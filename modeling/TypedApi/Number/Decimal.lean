import TypedApi.Number.Binary64
import TypedApi.Number.Numeral

/-! # Fractions written in decimal

A decimal may stand between blanks, with a sign, a point, and an exponent to the base ten. There
are words for the numbers beyond all others and for the result of an operation that has none.
-/
namespace TypedApi.Numeral

/-- The longest run of decimal digits at the start of a text, and what follows it. -/
def decimalRun : List Char → List Nat × List Char
  | [] => ([], [])
  | c :: rest =>
    match digitValue? 10 c with
    | some d =>
      let (ds, rest) := decimalRun rest
      (d :: ds, rest)
    | none => ([], c :: rest)

/-- The exponent that the rest of a decimal writes; there is none in an empty text. -/
def exponent? (cs : List Char) : Option Int :=
  let digits? (rest : List Char) : Option Nat :=
    match decimalRun rest with
    | ([], _) => none
    | (ds, []) => some (valueOf 10 ds)
    | _ => none
  match cs with
  | [] => some 0
  | e :: rest =>
    if e != 'e' && e != 'E' then none
    else match rest with
      | '-' :: rest => (digits? rest).map fun n => -(n : Int)
      | '+' :: rest => (digits? rest).map fun n => (n : Int)
      | rest => (digits? rest).map fun n => (n : Int)

/-- The number that a decimal without sign and blanks writes. -/
def magnitude? (cs : List Char) : Option Binary64 :=
  let word := (String.ofList cs).toLower
  if word == "inf" || word == "infinity" then some (.infinite false)
  else if word == "nan" then some .nan
  else
    let (whole, rest) := decimalRun cs
    let (fraction, rest) := match rest with
      | '.' :: rest => decimalRun rest
      | rest => ([], rest)
    if whole.isEmpty && fraction.isEmpty then none
    else (exponent? rest).map fun e =>
      .ofDecimal false (valueOf 10 (whole ++ fraction)) (e - fraction.length)

/-- The number that a decimal writes. -/
def decimal? (cs : List Char) : Option Binary64 :=
  match Text.trimEnd (Text.trimStart cs) with
  | '-' :: rest => (magnitude? rest).map Binary64.negate
  | '+' :: rest => magnitude? rest
  | rest => magnitude? rest

end TypedApi.Numeral
