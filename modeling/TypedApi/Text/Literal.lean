import TypedApi.Text.Quoted

/-! # String literals of generated code

A literal stands in double quotes and holds printable ASCII only. Every other character is written
as the escape of its UTF-16 units, so that a character above U+FFFF takes two escapes.
-/
namespace TypedApi.Text.Literal

/-- The escape of one UTF-16 unit. -/
def unitEscape (n : Nat) : List Char :=
  '\\' :: 'u' :: hexDigits 4 n

/-- One character inside a literal. -/
def encodeChar (c : Char) : List Char :=
  if c == '"' then ['\\', '"']
  else if c == '\\' then ['\\', '\\']
  else if c == '\n' then ['\\', 'n']
  else if c == '\r' then ['\\', 'r']
  else if c == '\t' then ['\\', 't']
  else if c.toNat == 8 then ['\\', 'b']
  else if c.toNat == 12 then ['\\', 'f']
  else if c.toNat < 32 then unitEscape c.toNat
  else if c.toNat < 127 then [c]
  else if c.toNat < 0x10000 then unitEscape c.toNat
  else
    let n := c.toNat - 0x10000
    unitEscape (0xD800 + n / 0x400) ++ unitEscape (0xDC00 + n % 0x400)

/-- The characters between the quotes of a literal. -/
def encode (cs : List Char) : List Char :=
  cs.flatMap encodeChar

@[simp] theorem encode_nil : encode [] = [] := rfl

@[simp] theorem encode_cons (c : Char) (cs : List Char) :
    encode (c :: cs) = encodeChar c ++ encode cs := rfl

end Literal

/-- `s` as a string literal of generated code. -/
def literal (s : String) : String :=
  .ofList ('"' :: (Literal.encode s.toList ++ ['"']))

end TypedApi.Text
