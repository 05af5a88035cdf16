/-! # Base 64

Bytes written as text, six bits a character. Characters that stand for no bits are skipped, and
padding that completes a group of four ends the text.
-/
namespace TypedApi.Text

/-- The bits that a character stands for. -/
def sixBits? (c : Char) : Option Nat :=
  if c.isUpper then some (c.toNat - 'A'.toNat)
  else if c.isLower then some (c.toNat - 'a'.toNat + 26)
  else if c.isDigit then some (c.toNat - '0'.toNat + 52)
  else if c == '+' then some 62
  else if c == '/' then some 63
  else none

/-- The bits that a text stands for, in groups of six, when `size` groups came before it and
`padding` signs of padding directly before it. -/
def sixBitGroups (size padding : Nat) : List Char → List Nat × Bool
  | [] => ([], false)
  | c :: rest =>
    if c == '=' then
      if 2 ≤ size % 4 then
        if 4 ≤ size % 4 + (padding + 1) then ([], true)
        else sixBitGroups size (padding + 1) rest
      else sixBitGroups size padding rest
    else match sixBits? c with
      | some n =>
        let (groups, ended) := sixBitGroups (size + 1) 0 rest
        (n :: groups, ended)
      | none => sixBitGroups size padding rest

/-- The whole bytes in groups of six bits. -/
def bytesOfGroups : List Nat → List UInt8
  | a :: b :: c :: d :: rest =>
    (a * 4 + b / 16).toUInt8 :: (b * 16 + c / 4).toUInt8 :: (c * 64 + d).toUInt8
      :: bytesOfGroups rest
  | [a, b, c] => [(a * 4 + b / 16).toUInt8, (b * 16 + c / 4).toUInt8]
  | [a, b] => [(a * 4 + b / 16).toUInt8]
  | _ => []

/-- The bytes that a text writes; the last group must be whole or padded. -/
def base64? (s : String) : Option (List UInt8) :=
  let (groups, ended) := sixBitGroups 0 0 s.toList
  if ended || groups.length % 4 == 0 then some (bytesOfGroups groups) else none

end TypedApi.Text
