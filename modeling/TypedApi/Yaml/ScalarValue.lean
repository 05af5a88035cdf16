import TypedApi.Document.Value
import TypedApi.Number.Decimal
import TypedApi.Text.Base64
import TypedApi.Yaml.Tag

/-! # The values of scalars

What the text of a scalar denotes, given its type.
-/
namespace TypedApi.Yaml
namespace ScalarValue

/-- A text without underscores. -/
def withoutUnderscores (cs : List Char) : List Char := cs.filter (· != '_')

/-- Whether a number has a minus sign, and the number without its sign. -/
def signed (cs : List Char) : Bool × List Char := (cs.head? == some '-', Tag.unsigned cs)

/-! ## Integers -/

/-- The integer with the given digits in base sixty, the first one first. -/
def ofSixtieths (ds : List Int) : Int := ds.foldl (fun n d => n * 60 + d) 0

/-- An octal number; a letter may mark it as such. -/
def octal? (cs : List Char) : Option Int :=
  match cs with
  | '0' :: 'o' :: digits => (Numeral.natural? 8 digits).map fun n => (n : Int)
  | '0' :: 'O' :: digits => (Numeral.natural? 8 digits).map fun n => (n : Int)
  | cs => Numeral.integer? 8 cs

/-- The integer that a text without sign and underscores denotes. -/
def magnitude? (cs : List Char) : Option Int :=
  match cs with
  | [] => none
  | '0' :: 'b' :: digits => Numeral.integer? 2 digits
  | '0' :: 'x' :: digits => Numeral.integer? 16 digits
  | '0' :: _ => octal? cs
  | cs =>
    match Text.separated ':' cs with
    | [_] => Numeral.integer? 10 cs
    | parts => (parts.mapM (Numeral.integer? 10)).map ofSixtieths

/-- The integer that a text denotes. -/
def int? (cs : List Char) : Option Int :=
  let (negative, digits) := signed (withoutUnderscores cs)
  (magnitude? digits).map fun n => if negative then -n else n

/-! ## Fractions -/

/-- The sum of the digits of a fraction in base sixty, the last digit first. -/
def sumSixtieths (base : Nat) (total : Binary64) : List Binary64 → Binary64
  | [] => total
  | d :: ds => sumSixtieths (base * 60) (total.plus (d.times (.ofInt base))) ds

/-- The number that a text denotes. -/
def float? (cs : List Char) : Option Binary64 :=
  let (negative, digits) := signed (withoutUnderscores cs)
  let sign (x : Binary64) : Binary64 := if negative then x.negate else x
  let word := (String.ofList digits).toLower
  if word == ".inf" then some (sign (.infinite false))
  else if word == ".nan" then some .nan
  else match Text.separated ':' digits with
    | [_] => (Numeral.decimal? digits).map sign
    | parts =>
      (parts.mapM Numeral.decimal?).map fun ds =>
        sign (sumSixtieths 1 (.finite false 0) ds.reverse)

/-! ## Other types -/

/-- The truth value that a text denotes. -/
def bool? (text : String) : Option Bool :=
  let word := text.toLower
  if ["yes", "true", "on"].contains word then some true
  else if ["no", "false", "off"].contains word then some false
  else none

/-- The day or moment that a text denotes. -/
def timestamp? (cs : List Char) : Option Scalar := do
  let t ← Timestamp.parse? cs
  match t.clock with
  | none => if t.day.exists? then some (.day t.day) else none
  | some clock =>
    let moment := Timestamp.momentOf t.day clock
    if moment.exists? then some (.moment moment) else none

/-- The scalar of a text. -/
def text (content : ScalarText) : Scalar :=
  if content.halved then .halvedText content.text else .text content.text

/-- The bytes that a text denotes. -/
def bytes (content : ScalarText) : Except Fault Scalar :=
  if content.text.toList.all fun c => c.toNat < 128 then
    match Text.base64? content.text with
    | some data => .ok (.bytes data)
    | none => .error .badTag
  else .error .badTag

/-- A scalar that its text must denote. -/
def meaning (s : Option Scalar) : Except Fault Scalar :=
  match s with
  | some s => .ok s
  | none => .error .meaningless

/-- The scalar of a type that a text denotes. -/
def ofText (tag : Tag) (content : ScalarText) : Except Fault Scalar :=
  let cs := content.text.toList
  match tag with
  | .null => .ok .null
  | .bool => meaning ((bool? content.text).map .bool)
  | .int => meaning ((int? cs).map .int)
  | .float => meaning ((float? cs).map .float)
  | .binary => bytes content
  | .timestamp => meaning (timestamp? cs)
  | .str => .ok (text content)
  | _ => .error .badTag

end ScalarValue
end TypedApi.Yaml
