import TypedApi.CommandLine.Switch
import TypedApi.Output.Mode
import TypedApi.Text.Order
import TypedApi.Text.Quoted
import TypedApi.Text.Word

/-! # Arguments

What the arguments of the program ask for. A switch may be shortened as long as it stays the only
one that begins so, and a value may follow its switch after an equals sign or as the next argument.
-/
namespace TypedApi.CommandLine

/-- Why arguments are refused. -/
inductive ArgumentFault where
  | ambiguous (argument : String) (names : List String)
  | missingValue (switch : Switch)
  | unwantedValue (switch : Switch) (value : String)
  | unknownMode (value : String)
  | missingSwitches (switches : List Switch)
  | unknownArguments (arguments : List String)
deriving DecidableEq, Repr

/-- The wording of a fault of the arguments. -/
def ArgumentFault.message : ArgumentFault → String
  | .ambiguous argument names =>
    "ambiguous option: " ++ argument ++ " could match " ++ Text.commaList names
  | .missingValue s => "argument " ++ s.title ++ ": expected one argument"
  | .unwantedValue s value =>
    "argument " ++ s.title ++ ": ignored explicit argument " ++ Text.quoted value
  | .unknownMode value =>
    "argument --mode: invalid choice: " ++ Text.quoted value ++ " (choose from 'api', 'client')"
  | .missingSwitches ss =>
    "the following arguments are required: " ++ Text.commaList (ss.map Switch.title)
  | .unknownArguments arguments => "unrecognized arguments: " ++ " ".intercalate arguments

/-- An argument of the program. -/
inductive Argument where
  | word (text : String)
  | switch (s : Switch) (value : Option String)
  /-- The short name of the help switch with more letters behind it. -/
  | letters (rest : List Char)
  /-- Something that looks like a switch. -/
  | unknown (text : String)
  /-- The mark after which there are only values. -/
  | mark
deriving DecidableEq, Repr

namespace Argument

/-- The text before the first equals sign, and the text after it. -/
def splitValue (cs : List Char) : String × Option String :=
  let name := cs.takeWhile (· != '=')
  (.ofList name, if name.length == cs.length then none else some (.ofList (cs.drop (name.length + 1))))

/-- What an argument with a shortened name may mean, with the full names. -/
def candidates (cs : List Char) : List (String × Argument) :=
  let starting (lead : List Char) (value : Option String) : List (String × Argument) :=
    (Switch.named.filter fun s => lead.isPrefixOf s.1.toList).map fun s =>
      (s.1, .switch s.2 value)
  match cs with
  | '-' :: '-' :: _ =>
    let (name, value) := splitValue cs
    starting name.toList value
  | '-' :: 'h' :: rest => ("-h", .letters rest) :: starting cs none
  | '-' :: _ => starting cs none
  | _ => []

/-- Whether a text is a negative number. -/
def isNegativeNumber (cs : List Char) : Bool :=
  let isDigit (c : Char) : Bool := (Text.decimalValue? c).isSome
  match cs with
  | '-' :: rest =>
    let fraction := rest.dropWhile isDigit
    match fraction with
    | [] => !rest.isEmpty
    | '.' :: digits => !digits.isEmpty && digits.all isDigit
    | _ => false
  | _ => false

/-- Reads an argument that begins with a dash and is no full name of a switch. -/
def ofDashed (cs : List Char) : Except ArgumentFault Argument :=
  let given : String := .ofList cs
  match splitValue cs with
  | (name, some value) =>
    match Switch.ofName? name with
    | some s => .ok (.switch s (some value))
    | none => shortened given
  | (_, none) => shortened given
where
  /-- Reads a shortened name of a switch. -/
  shortened (given : String) : Except ArgumentFault Argument :=
    match candidates cs with
    | [(_, argument)] => .ok argument
    | [] =>
      if isNegativeNumber cs || cs.contains ' ' then .ok (.word given) else .ok (.unknown given)
    | several => .error (.ambiguous given (several.map (·.1)))

/-- Reads an argument in front of the mark. -/
def ofText (given : String) : Except ArgumentFault Argument :=
  match given.toList with
  | '-' :: c :: rest =>
    match Switch.ofName? given with
    | some s => .ok (.switch s none)
    | none => ofDashed ('-' :: c :: rest)
  | _ => .ok (.word given)

/-- Reads all arguments. -/
def all : List String → Except ArgumentFault (List Argument)
  | [] => .ok []
  | given :: rest =>
    if given == "--" then .ok (.mark :: rest.map Argument.word)
    else do
      let first ← ofText given
      let later ← all rest
      return first :: later

end Argument

/-! ## What is asked for -/

/-- The settings that arguments make. -/
structure Settings where
  input : Option String
  output : Option String
  mode : Option Mode
  force : Bool
  format : Bool
  verbose : Bool
deriving DecidableEq, Repr

/-- What is asked for when the switches are complete. -/
structure Order where
  input : String
  output : String
  mode : Mode
  force : Bool
  format : Bool
  verbose : Bool
deriving DecidableEq, Repr

/-- What arguments ask for. -/
inductive Wish where
  | help
  | version
  | generation (order : Order)
deriving DecidableEq, Repr

namespace Settings

/-- The settings without arguments. -/
def initial : Settings := ⟨none, none, none, false, false, false⟩

/-- The settings with the value of a switch. -/
def withValue (t : Settings) (s : Switch) (value : String) : Except ArgumentFault Settings :=
  match s with
  | .input => .ok { t with input := some value }
  | .output => .ok { t with output := some value }
  | .mode =>
    match Mode.ofName? value with
    | some mode => .ok { t with mode := some mode }
    | none => .error (.unknownMode value)
  | _ => .ok t

/-- The settings with a switch that has no value. -/
def withFlag (t : Settings) : Switch → Settings
  | .force => { t with force := true }
  | .format => { t with format := true }
  | .verbose => { t with verbose := true }
  | _ => t

/-- The required switches that are missing. -/
def missing (t : Settings) : List Switch :=
  (if t.input.isNone then [.input] else []) ++ (if t.mode.isNone then [.mode] else [])
    ++ (if t.output.isNone then [.output] else [])

/-- What complete settings ask for. -/
def wish (t : Settings) (extra : List String) : Except ArgumentFault Wish :=
  match t.input, t.mode, t.output with
  | some input, some mode, some output =>
    if extra.isEmpty then .ok (.generation ⟨input, output, mode, t.force, t.format, t.verbose⟩)
    else .error (.unknownArguments extra)
  | _, _, _ => .error (.missingSwitches t.missing)

end Settings

namespace Wish

/-- What a switch asks for at once, if anything. -/
def atOnce? : Switch → Option Wish
  | .help => some .help
  | .version => some .version
  | _ => none

/-- What letters behind the short name of the help switch ask for. Any of them may follow, but
neither a dash nor an equals sign. -/
def ofLetters : List Char → Except ArgumentFault Wish
  | '-' :: rest => .error (.unwantedValue .help (.ofList ('-' :: rest)))
  | 'h' :: '=' :: rest => .error (.unwantedValue .help (.ofList rest))
  | 'h' :: rest => ofLetters rest
  | _ => .ok .help

/-- What the rest of the arguments asks for, after arguments that made the settings `t` and those
in `extra`, which are no switches. -/
def ofRest (t : Settings) (extra : List String) : List Argument → Except ArgumentFault Wish
  | [] => t.wish extra
  | .switch s value :: rest =>
    if s.takesValue then
      match value, rest with
      | some value, rest => do ofRest (← t.withValue s value) extra rest
      | none, .word value :: rest => do ofRest (← t.withValue s value) extra rest
      | none, _ => .error (.missingValue s)
    else
      match value with
      | some value => .error (.unwantedValue s value)
      | none =>
        match atOnce? s with
        | some wish => .ok wish
        | none => ofRest (t.withFlag s) extra rest
  | .letters letters :: _ => ofLetters letters
  | .word text :: rest => ofRest t (extra ++ [text]) rest
  | .unknown text :: rest => ofRest t (extra ++ [text]) rest
  | .mark :: rest => ofRest t (extra ++ ["--"]) rest

/-- What arguments ask for. -/
def ofArguments (arguments : List String) : Except ArgumentFault Wish := do
  ofRest .initial [] (← Argument.all arguments)

end Wish
end TypedApi.CommandLine
