import TypedApi.Document.Moment

/-! # Timestamps

A timestamp is a day, or a day with a time and perhaps an offset from UTC.
-/
namespace TypedApi.Yaml

/-- A time of a day, with the digits of the fraction of a second. -/
structure ClockText where
  hour : Nat
  minute : Nat
  second : Nat
  fraction : List Nat
  /-- The minutes that the time is ahead of UTC. -/
  offset : Option Int
deriving DecidableEq, Repr

/-- A timestamp as it is written. -/
structure Timestamp where
  day : Day
  /-- Whether the month and the day of the month have two digits each. -/
  isPadded : Bool
  clock : Option ClockText
deriving DecidableEq, Repr

namespace Timestamp

/-- The digits at the start of a text, up to `most` of them, and what follows. -/
def digits? (least most : Nat) (cs : List Char) : Option (List Nat × List Char) :=
  let run := (cs.take most).takeWhile Char.isDigit
  if run.length < least then none
  else some (run.map fun c => c.toNat - '0'.toNat, cs.drop run.length)

/-- The number with the given digits. -/
def number (ds : List Nat) : Nat := ds.foldl (fun n d => n * 10 + d) 0

/-- What follows the character `c` at the start of a text. -/
def after? (c : Char) (cs : List Char) : Option (List Char) :=
  match cs with
  | d :: rest => if d == c then some rest else none
  | [] => none

/-- A space or a tab. -/
def isInlineBlank (c : Char) : Bool := c == ' ' || c == '\t'

/-- What follows the mark between a day and a time. -/
def afterDay? (cs : List Char) : Option (List Char) :=
  match cs with
  | 'T' :: rest => some rest
  | 't' :: rest => some rest
  | c :: rest => if isInlineBlank c then some (rest.dropWhile isInlineBlank) else none
  | [] => none

/-- The offset that ends a timestamp. -/
def offset? (cs : List Char) : Option (Option Int) :=
  match cs, cs.dropWhile isInlineBlank with
  | [], _ => some none
  | _, ['Z'] => some (some 0)
  | _, sign :: rest => do
    let (hour, rest) ← digits? 1 2 rest
    let minute ← match rest with
      | [] => some 0
      | _ => do
        let (minute, rest) ← digits? 2 2 (← after? ':' rest)
        if rest.isEmpty then some (number minute) else none
    let ahead : Int := number hour * 60 + minute
    if sign == '+' then some (some ahead)
    else if sign == '-' then some (some (-ahead))
    else none
  | _, [] => none

/-- The time that ends a timestamp. -/
def clock? (cs : List Char) : Option ClockText := do
  let (hour, cs) ← digits? 1 2 cs
  let (minute, cs) ← digits? 2 2 (← after? ':' cs)
  let (second, cs) ← digits? 2 2 (← after? ':' cs)
  let (fraction, cs) ← match cs with
    | '.' :: rest => digits? 0 rest.length rest
    | cs => some ([], cs)
  return ⟨number hour, number minute, number second, fraction, ← offset? cs⟩

/-- Reads a timestamp. -/
def parse? (cs : List Char) : Option Timestamp := do
  let (year, cs) ← digits? 4 4 cs
  let (month, cs) ← digits? 1 2 (← after? '-' cs)
  let (day, cs) ← digits? 1 2 (← after? '-' cs)
  let date : Day := ⟨number year, number month, number day⟩
  let isPadded := month.length == 2 && day.length == 2
  if cs.isEmpty then return ⟨date, isPadded, none⟩
  else return ⟨date, isPadded, some (← clock? (← afterDay? cs))⟩

/-- Whether a text is a timestamp without being tagged as one. -/
def standsAlone (t : Timestamp) : Bool := t.isPadded || t.clock.isSome

/-- The microseconds of a fraction of a second; later digits are dropped. -/
def microseconds (fraction : List Nat) : Nat :=
  number (fraction.take 6 ++ List.replicate (6 - fraction.length) 0)

/-- The moment of a day at a time. -/
def momentOf (day : Day) (clock : ClockText) : Moment :=
  ⟨day, clock.hour, clock.minute, clock.second, microseconds clock.fraction,
    clock.offset.map (· * 60)⟩

end Timestamp
end TypedApi.Yaml
