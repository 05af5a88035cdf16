import TypedApi.Text.Blank
import TypedApi.Text.Word

/-! # Integers written in text

An integer may stand between blanks, with a sign and with decimal digits of any script, single
underscores between them. One of more than 4300 digits is refused.
-/
namespace TypedApi.Numeral

/-- The most decimal digits that a numeral may have. -/
def digitLimit : Nat := 4300

/-- The value of a digit in a base up to sixteen. -/
def digitValue? (base : Nat) (c : Char) : Option Nat :=
  let value? :=
    if let some n := Text.decimalValue? c then some n
    else if 'a'.toNat ≤ c.toNat && c.toNat ≤ 'f'.toNat then some (c.toNat - 'a'.toNat + 10)
    else if 'A'.toNat ≤ c.toNat && c.toNat ≤ 'F'.toNat then some (c.toNat - 'A'.toNat + 10)
    else none
  value?.filter (· < base)

/-- The digit values of a numeral in which single underscores stand between digits. -/
def digits? (base : Nat) : List Char → Option (List Nat)
  | [] => none
  | [c] => (digitValue? base c).map ([·])
  | c :: '_' :: rest =>
    match digitValue? base c, digits? base rest with
    | some d, some ds => some (d :: ds)
    | _, _ => none
  | c :: rest =>
    match digitValue? base c, digits? base rest with
    | some d, some ds => some (d :: ds)
    | _, _ => none

/-- The number that the digit values `ds` write. -/
def valueOf (base : Nat) (ds : List Nat) : Nat :=
  ds.foldl (fun n d => n * base + d) 0

/-- The natural number that a numeral without sign and blanks writes. -/
def natural? (base : Nat) (cs : List Char) : Option Nat :=
  match digits? base cs with
  | none => none
  | some ds => if base == 10 && digitLimit < ds.length then none else some (valueOf base ds)

/-- The integer that a numeral writes. -/
def integer? (base : Nat) (cs : List Char) : Option Int :=
  match Text.trimEnd (Text.trimStart cs) with
  | '-' :: rest => (natural? base rest).map fun n => -(n : Int)
  | '+' :: rest => (natural? base rest).map fun n => (n : Int)
  | rest => (natural? base rest).map fun n => (n : Int)

end TypedApi.Numeral
