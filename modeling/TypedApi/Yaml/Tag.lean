import TypedApi.Text.Separated
import TypedApi.Yaml.Timestamp
import TypedApi.Yaml.Token

/-! # Tags

The type of a node. A tag names it, and for a plain scalar without a tag its text decides.
-/
namespace TypedApi.Yaml

/-- The type of a node. -/
inductive Tag where
  | null
  | bool
  | int
  | float
  | binary
  | timestamp
  | omap
  | pairs
  | set
  | str
  | seq
  | map
  /-- The key of a merge. -/
  | merge
  /-- The key of a default value. -/
  | value
  /-- A type that no value has. -/
  | unknown
deriving DecidableEq, Repr

namespace Tag

/-- What the names of the types of YAML begin with. -/
def lead : String := "tag:yaml.org,2002:"

/-- The type that a tag names. -/
def ofName (name : String) : Tag :=
  let types : List (String × Tag) :=
    [("null", null), ("bool", bool), ("int", int), ("float", float), ("binary", binary),
      ("timestamp", timestamp), ("omap", omap), ("pairs", pairs), ("set", set), ("str", str),
      ("seq", seq), ("map", map), ("merge", merge), ("value", value)]
  match types.find? fun t => lead ++ t.1 == name with
  | some (_, tag) => tag
  | none => unknown

/-! ## Classes of plain scalars -/

/-- A text without its sign. -/
def unsigned (cs : List Char) : List Char :=
  match cs with
  | c :: rest => if c == '-' || c == '+' then rest else cs
  | [] => []

/-- A decimal digit or an underscore. -/
def isDigitOrUnderscore (c : Char) : Bool := c.isDigit || c == '_'

/-- A number of minutes or seconds: one digit, or two that are less than sixty. -/
def isSixtieth (cs : List Char) : Bool :=
  match cs with
  | [a] => a.isDigit
  | [a, b] => '0' ≤ a && a ≤ '5' && b.isDigit
  | _ => false

/-- Whether a text without a sign is an integer in base sixty. -/
def isSexagesimal (cs : List Char) : Bool :=
  match Text.separated ':' cs with
  | first :: next :: rest =>
    first.all isDigitOrUnderscore && first.head?.any (fun c => c.isDigit && c != '0')
      && (next :: rest).all isSixtieth
  | _ => false

/-- Whether a text is an integer. -/
def isInt (cs : List Char) : Bool :=
  match unsigned cs with
  | ['0'] => true
  | '0' :: 'b' :: bits => !bits.isEmpty && bits.all fun c => c == '0' || c == '1' || c == '_'
  | '0' :: 'x' :: digits =>
    !digits.isEmpty && digits.all fun c =>
      isDigitOrUnderscore c || ('a' ≤ c && c ≤ 'f') || ('A' ≤ c && c ≤ 'F')
  | '0' :: digits => digits.all fun c => ('0' ≤ c && c ≤ '7') || c == '_'
  | c :: rest => (c.isDigit && rest.all isDigitOrUnderscore) || isSexagesimal (c :: rest)
  | [] => false

/-- Whether a text is empty or an exponent with its sign. -/
def isExponent (cs : List Char) : Bool :=
  match cs with
  | [] => true
  | e :: sign :: digits =>
    (e == 'e' || e == 'E') && (sign == '-' || sign == '+') && !digits.isEmpty
      && digits.all Char.isDigit
  | _ => false

/-- Whether a text without a sign is a fraction in base sixty. -/
def isSexagesimalFraction (cs : List Char) : Bool :=
  match Text.separated ':' cs with
  | first :: next :: rest =>
    let last := (next :: rest).getLast?.getD []
    let fraction := last.dropWhile (· != '.')
    first.all isDigitOrUnderscore && first.head?.any Char.isDigit
      && (next :: rest).dropLast.all isSixtieth && isSixtieth (last.takeWhile (· != '.'))
      && !fraction.isEmpty && (fraction.drop 1).all isDigitOrUnderscore
  | _ => false

/-- Whether a text is a number with a fraction. -/
def isFloat (cs : List Char) : Bool :=
  let body := unsigned cs
  let whole := body.takeWhile isDigitOrUnderscore
  let decimal (rest : List Char) : Bool := isExponent (rest.dropWhile isDigitOrUnderscore)
  match body.drop whole.length with
  | '.' :: rest =>
    if whole.isEmpty then
      (cs == body && rest.head?.any Char.isDigit && decimal rest)
        || [".inf", ".Inf", ".INF"].contains (String.ofList body)
        || [".nan", ".NaN", ".NAN"].contains (String.ofList cs)
    else whole.head?.any Char.isDigit && decimal rest
  | _ => isSexagesimalFraction body

/-- The texts of the truth values. -/
def isBool (text : String) : Bool :=
  ["yes", "Yes", "YES", "no", "No", "NO", "true", "True", "TRUE", "false", "False", "FALSE",
    "on", "On", "ON", "off", "Off", "OFF"].contains text

/-- The texts of the absent value. -/
def isNull (text : String) : Bool := ["", "~", "null", "Null", "NULL"].contains text

/-- The type of a scalar that its text decides. -/
def ofPlain (text : String) : Tag :=
  let cs := text.toList
  if isBool text then bool
  else if isFloat cs then float
  else if isInt cs then int
  else if text == "<<" then merge
  else if isNull text then null
  else if (Timestamp.parse? cs).any Timestamp.standsAlone then timestamp
  else if text == "=" then value
  else str

end Tag
end TypedApi.Yaml
