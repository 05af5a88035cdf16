import Mathlib.Tactic.SplitIfs
import TypedApi.Text.Literal

/-! # What string literals stand for

At run time a text is the list of its UTF-16 units, and different texts have different ones
(`utf16_injective`).  A string literal is read unit by unit up to the quote that closes it.  The
literal that is written for a text is read as exactly its units, and ends where it should, whatever
follows it (`readUnits_encode`).
-/
namespace TypedApi.Text

/-! ## UTF-16 -/

/-- The UTF-16 units of a character: one, or a surrogate pair. -/
def units (c : Char) : List Nat :=
  if c.toNat < 0x10000 then [c.toNat]
  else [0xD800 + (c.toNat - 0x10000) / 0x400, 0xDC00 + (c.toNat - 0x10000) % 0x400]

/-- The UTF-16 units of a text. -/
def utf16 (cs : List Char) : List Nat := cs.flatMap units

@[simp] theorem utf16_cons (c : Char) (cs : List Char) :
    utf16 (c :: cs) = units c ++ utf16 cs := rfl

/-- No character is a surrogate. -/
theorem not_surrogate (c : Char) : c.toNat < 0xD800 ∨ (0xDFFF < c.toNat ∧ c.toNat < 0x110000) :=
  c.valid

theorem units_append_inj {c d : Char} {us vs : List Nat}
    (h : units c ++ us = units d ++ vs) : c = d ∧ us = vs := by
  have validC := not_surrogate c
  have validD := not_surrogate d
  unfold units at h
  split at h <;> split at h <;>
    simp only [List.cons_append, List.nil_append, List.cons.injEq] at h
  · exact ⟨Char.toNat_inj.mp h.1, h.2⟩
  · omega
  · omega
  · exact ⟨Char.toNat_inj.mp (by omega), h.2.2⟩

/-- **Different texts have different units.** -/
theorem utf16_injective {cs ds : List Char} (h : utf16 cs = utf16 ds) : cs = ds := by
  have some_ (c : Char) (rest : List Char) : utf16 (c :: rest) ≠ [] := by
    rw [utf16_cons, units]
    split <;> simp
  induction cs generalizing ds with
  | nil =>
    cases ds with
    | nil => rfl
    | cons d ds => exact absurd h.symm (some_ d ds)
  | cons c cs ih =>
    cases ds with
    | nil => exact absurd h (some_ c cs)
    | cons d ds =>
      obtain ⟨rfl, rest⟩ := units_append_inj h
      rw [ih rest]

namespace Literal

/-! ## Reading literals -/

/-- The value of a hexadecimal digit. -/
def hexValue? (c : Char) : Option Nat :=
  if '0'.toNat ≤ c.toNat ∧ c.toNat ≤ '9'.toNat then some (c.toNat - '0'.toNat)
  else if 'a'.toNat ≤ c.toNat ∧ c.toNat ≤ 'f'.toNat then some (c.toNat - 'a'.toNat + 10)
  else if 'A'.toNat ≤ c.toNat ∧ c.toNat ≤ 'F'.toNat then some (c.toNat - 'A'.toNat + 10)
  else none

/-- The unit that four hexadecimal digits stand for. -/
def hexUnit? (a b c d : Char) : Option Nat := do
  return (((← hexValue? a) * 16 + (← hexValue? b)) * 16 + (← hexValue? c)) * 16 + (← hexValue? d)

/-- The unit that a character behind a backslash stands for. -/
def escaped? : Char → Option Nat
  | '"' => some 34
  | '\\' => some 92
  | '/' => some 47
  | 'b' => some 8
  | 'f' => some 12
  | 'n' => some 10
  | 'r' => some 13
  | 't' => some 9
  | _ => none

/-- What is read when some units come first. -/
def behind (first : List Nat) (r : Option (List Nat × List Char)) :
    Option (List Nat × List Char) :=
  r.map fun (later, rest) => (first ++ later, rest)

/-- The units that a literal stands for, read behind its opening quote, and what follows it. -/
def readUnits : List Char → Option (List Nat × List Char)
  | '"' :: rest => some ([], rest)
  | '\\' :: 'u' :: a :: b :: c :: d :: rest =>
    (hexUnit? a b c d).bind fun unit => behind [unit] (readUnits rest)
  | '\\' :: e :: rest => (escaped? e).bind fun unit => behind [unit] (readUnits rest)
  | c :: rest => if c = '\\' ∨ c.toNat < 32 then none else behind (units c) (readUnits rest)
  | [] => none
termination_by structural cs => cs

theorem hexValue?_hexDigit {n : Nat} (h : n < 16) : hexValue? (hexDigit n) = some n := by
  have all : ∀ n < 16, hexValue? (hexDigit n) = some n := by decide
  exact all n h

theorem readUnits_unitEscape {n : Nat} (h : n < 0x10000) (rest : List Char) :
    readUnits (unitEscape n ++ rest) = behind [n] (readUnits rest) := by
  have digits : hexDigits 4 n = [hexDigit (n / 16 / 16 / 16 % 16), hexDigit (n / 16 / 16 % 16),
      hexDigit (n / 16 % 16), hexDigit (n % 16)] := rfl
  have value : hexUnit? (hexDigit (n / 16 / 16 / 16 % 16)) (hexDigit (n / 16 / 16 % 16))
      (hexDigit (n / 16 % 16)) (hexDigit (n % 16)) = some n := by
    have small (m : Nat) : m % 16 < 16 := Nat.mod_lt m (by decide)
    simp only [hexUnit?, hexValue?_hexDigit (small _), Option.bind_eq_bind, Option.bind_some,
      Option.pure_def, Option.some.injEq]
    omega
  rw [unitEscape, digits]
  simp only [List.cons_append, List.nil_append]
  rw [readUnits, value, Option.bind_some]

/-- Behind a backslash a character stands for one unit. -/
theorem readUnits_escaped {e : Char} {n : Nat} (h : escaped? e = some n) (rest : List Char) :
    readUnits ('\\' :: e :: rest) = behind [n] (readUnits rest) := by
  rw [readUnits, h, Option.bind_some]
  rintro a b c d after rfl -
  cases h

/-- A printable character stands for itself. -/
theorem readUnits_plain {c : Char} (quote : c ≠ '"') (backslash : c ≠ '\\') (h : 32 ≤ c.toNat)
    (rest : List Char) : readUnits (c :: rest) = behind (units c) (readUnits rest) := by
  rw [readUnits, if_neg]
  · exact not_or.mpr ⟨backslash, by omega⟩
  · exact quote
  · exact fun _ _ _ _ _ same _ => backslash same
  · exact fun _ _ same _ => backslash same

theorem behind_behind (first second : List Nat) (r : Option (List Nat × List Char)) :
    behind first (behind second r) = behind (first ++ second) r := by
  cases r <;> simp [behind]

theorem readUnits_encodeChar (c : Char) (rest : List Char) :
    readUnits (encodeChar c ++ rest) = behind (units c) (readUnits rest) := by
  have valid := not_surrogate c
  have below (h : c.toNat < 0x10000) : units c = [c.toNat] := if_pos h
  unfold encodeChar
  split_ifs with quote backslash feed carriage tab backspace page control printable basic
  · obtain rfl := beq_iff_eq.mp quote
    exact readUnits_escaped rfl rest
  · obtain rfl := beq_iff_eq.mp backslash
    exact readUnits_escaped rfl rest
  · obtain rfl := beq_iff_eq.mp feed
    exact readUnits_escaped rfl rest
  · obtain rfl := beq_iff_eq.mp carriage
    exact readUnits_escaped rfl rest
  · obtain rfl := beq_iff_eq.mp tab
    exact readUnits_escaped rfl rest
  · rw [beq_iff_eq] at backspace
    rw [below (by omega), backspace]
    exact readUnits_escaped rfl rest
  · rw [beq_iff_eq] at page
    rw [below (by omega), page]
    exact readUnits_escaped rfl rest
  · rw [below (by omega)]
    exact readUnits_unitEscape (by omega) rest
  · refine readUnits_plain ?_ ?_ (by omega) rest
    · exact fun h => quote (beq_iff_eq.mpr h)
    · exact fun h => backslash (beq_iff_eq.mpr h)
  · rw [below basic]
    exact readUnits_unitEscape basic rest
  · have pair : units c = [0xD800 + (c.toNat - 0x10000) / 0x400] ++
        [0xDC00 + (c.toNat - 0x10000) % 0x400] := if_neg basic
    rw [List.append_assoc, readUnits_unitEscape (by omega), readUnits_unitEscape (by omega),
      behind_behind, pair]

/-- **A literal stands for its text**, and ends at its own closing quote. -/
theorem readUnits_encode (cs rest : List Char) :
    readUnits (encode cs ++ '"' :: rest) = some (utf16 cs, rest) := by
  induction cs with
  | nil => rfl
  | cons c cs ih =>
    rw [encode_cons, List.append_assoc, readUnits_encodeChar, ih]
    rfl

end Literal
end TypedApi.Text
