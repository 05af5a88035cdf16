import TypedApi.Text.WordTable

/-! # Letters, digits and words

The character classes that names are made of. ASCII is decided by the classes of `Char`, the
rest by the tables of `TypedApi.Text.WordTable`.
-/
namespace TypedApi.Text

/-- Whether `n` lies in one of the inclusive ranges. -/
def inRanges (ranges : List (Nat × Nat)) (n : Nat) : Bool :=
  ranges.any fun r => r.1 ≤ n && n ≤ r.2

/-- An ASCII letter, an ASCII digit or the underscore. -/
def isPlainWordChar (c : Char) : Bool :=
  c.isAlphanum || c == '_'

/-- A letter or number of any script, or the underscore. Combining marks are neither. -/
def isWordChar (c : Char) : Bool :=
  if c.toNat < 128 then isPlainWordChar c else inRanges alphanumericRanges c.toNat

theorem isWordChar_of_isPlainWordChar {c : Char} (h : isPlainWordChar c = true)
    (ascii : c.toNat < 128) : isWordChar c = true := by
  simp [isWordChar, ascii, h]

/-- The value of a decimal digit of any script. -/
def decimalValue? (c : Char) : Option Nat :=
  if c.toNat < 128 then
    if c.isDigit then some (c.toNat - '0'.toNat) else none
  else
    (decimalZeros.find? fun start => start ≤ c.toNat && c.toNat ≤ start + 9).map (c.toNat - ·)

/-- `s` with its ASCII capitals in lower case. -/
def lower (s : String) : String :=
  .ofList (s.toList.map Char.toLower)

/-- Whether `cs` reads as one or more characters of the class `p`, a line feed allowed after
the last of them. -/
def isWordOf (p : Char → Bool) (cs : List Char) : Bool :=
  !(cs.takeWhile p).isEmpty && (cs.dropWhile p == [] || cs.dropWhile p == ['\n'])

end TypedApi.Text
