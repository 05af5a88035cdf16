import TypedApi.Document.Value
import TypedApi.Number.Shortest
import TypedApi.Text.Order
import TypedApi.Text.Quoted

/-! # Values in messages

How a message shows a value of a document, and the names of the kinds of values.
-/
namespace TypedApi

/-- A decimal number with at least `width` digits. -/
def paddedNat (width n : Nat) : String :=
  let digits := Nat.toDigits 10 n
  .ofList (List.replicate (width - digits.length) '0' ++ digits)

namespace Day

/-- A day with its parts named. -/
def shown (d : Day) : String :=
  "datetime.date(" ++ Text.commaList [toString d.year, toString d.month, toString d.day] ++ ")"

/-- A day as year, month and day of the month. -/
def plain (d : Day) : String :=
  paddedNat 4 d.year ++ "-" ++ paddedNat 2 d.month ++ "-" ++ paddedNat 2 d.day

end Day

namespace Moment

/-- The length of an offset: days first, so that the seconds are not negative. -/
def offsetShown (seconds : Int) : String :=
  if seconds == 0 then "datetime.timezone.utc"
  else
    let parts :=
      if seconds < 0 then ["days=-1", "seconds=" ++ toString (seconds + 86400)]
      else ["seconds=" ++ toString seconds]
    "datetime.timezone(datetime.timedelta(" ++ Text.commaList parts ++ "))"

/-- A moment with its parts named. Seconds and microseconds that are zero are left out. -/
def shown (m : Moment) : String :=
  let parts := [m.day.year, m.day.month, m.day.day, m.hour, m.minute].map toString
  let seconds :=
    if m.microsecond != 0 then [toString m.second, toString m.microsecond]
    else if m.second != 0 then [toString m.second]
    else []
  let zone := m.offset.toList.map fun o => "tzinfo=" ++ offsetShown o
  "datetime.datetime(" ++ Text.commaList (parts ++ seconds ++ zone) ++ ")"

/-- An offset as signed hours and minutes. -/
def offsetPlain (seconds : Int) : String :=
  let minutes := seconds.natAbs / 60
  (if seconds < 0 then "-" else "+") ++ paddedNat 2 (minutes / 60) ++ ":"
    ++ paddedNat 2 (minutes % 60)

/-- A moment as day, time and offset. -/
def plain (m : Moment) : String :=
  m.day.plain ++ " " ++ paddedNat 2 m.hour ++ ":" ++ paddedNat 2 m.minute ++ ":"
    ++ paddedNat 2 m.second
    ++ (if m.microsecond == 0 then "" else "." ++ paddedNat 6 m.microsecond)
    ++ (m.offset.map offsetPlain).getD ""

end Moment

/-- A byte string in quotes. -/
def bytesShown (data : List UInt8) : String :=
  let cs := data.map fun b => Char.ofNat b.toNat
  let quote := Text.quoteOf cs
  let byte (c : Char) : List Char :=
    if c == '\\' || c == quote then ['\\', c]
    else if c == '\n' then ['\\', 'n']
    else if c == '\r' then ['\\', 'r']
    else if c == '\t' then ['\\', 't']
    else if 32 ≤ c.toNat && c.toNat < 127 then [c]
    else '\\' :: 'x' :: Text.hexDigits 2 c.toNat
  .ofList ('b' :: quote :: (cs.flatMap byte ++ [quote]))

namespace Scalar

/-- A scalar as a message shows it: a text in quotes. -/
def shown : Scalar → String
  | .null => "None"
  | .bool true => "True"
  | .bool false => "False"
  | .int n => toString n
  | .float x => x.text
  | .text s => Text.quoted s
  | .halvedText s => Text.quoted s
  | .bytes data => bytesShown data
  | .day d => d.shown
  | .moment m => m.shown

/-- A scalar as plain text: a text as it is. -/
def plain : Scalar → String
  | .text s => s
  | .halvedText s => s
  | .day d => d.plain
  | .moment m => m.plain
  | s => s.shown

@[simp] theorem plain_text (s : String) : plain (.text s) = s := rfl

/-- The name of a scalar's kind. -/
def kindName : Scalar → String
  | .null => "NoneType"
  | .bool _ => "bool"
  | .int _ => "int"
  | .float _ => "float"
  | .text _ => "str"
  | .halvedText _ => "str"
  | .bytes _ => "bytes"
  | .day _ => "datetime.date"
  | .moment _ => "datetime.datetime"

end Scalar

namespace Value

mutual

/-- A value as a message shows it. -/
def shown : Value → String
  | .scalar s => s.shown
  | .list items => "[" ++ Text.commaList (shownItems items) ++ "]"
  | .map members => "\x7b" ++ Text.commaList (shownMembers members) ++ "\x7d"
  | .set [] => "set()"
  | .set items => "\x7b" ++ Text.commaList (items.map Scalar.shown) ++ "\x7d"
  | .pair first second => "(" ++ shown first ++ ", " ++ shown second ++ ")"
  | .cycle => "\x7b...\x7d"

/-- The items of a list as a message shows them. -/
def shownItems : List Value → List String
  | [] => []
  | v :: rest => shown v :: shownItems rest

/-- The members of a mapping as a message shows them. -/
def shownMembers : List (Scalar × Value) → List String
  | [] => []
  | (k, v) :: rest => (k.shown ++ ": " ++ shown v) :: shownMembers rest

end

/-- The name of a value's kind. -/
def kindName : Value → String
  | .scalar s => s.kindName
  | .list _ => "list"
  | .map _ => "dict"
  | .set _ => "set"
  | .pair _ _ => "tuple"
  | .cycle => "dict"

end Value

/-- A list of texts as a message shows it. -/
def textsShown (texts : List String) : String :=
  "[" ++ Text.commaList (texts.map Text.quoted) ++ "]"

end TypedApi
