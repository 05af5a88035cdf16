import TypedApi.Failure
import TypedApi.Text.Word

/-! # Path templates

A path such as `/widgets/{id}` is a list of literal texts and parameters. Reading it first cuts it
at its groups, a brace pair around a text without braces; a brace anywhere else is an error. The
written form of the parts read is the path again.
-/
namespace TypedApi

/-- A part of a path template. -/
inductive PathPart where
  | literal (text : String)
  | parameter (name : String)
deriving DecidableEq, Repr

/-- A path template with its parts in order. -/
structure PathTemplate where
  /-- The template as it is written. -/
  text : String
  parts : List PathPart
deriving DecidableEq, Repr

namespace PathTemplate

/-- The names of the parameters in order. -/
def parameterNames (template : PathTemplate) : List String :=
  template.parts.filterMap fun part => match part with
    | .parameter name => some name
    | .literal _ => none

/-- Whether a template has a parameter. -/
def hasParameters (template : PathTemplate) : Bool :=
  template.parts.any fun part => match part with
    | .parameter _ => true
    | .literal _ => false

/-- A part in a route pattern: a colon marks a parameter. -/
def routePart : PathPart → String
  | .literal text => text
  | .parameter name => ":" ++ name

/-- The template as a route pattern of the server. -/
def route (template : PathTemplate) : String :=
  String.join (template.parts.map routePart)

/-- A stretch of a template. -/
inductive Piece where
  /-- The text between two groups; it may be empty. -/
  | text (cs : List Char)
  /-- The text inside a pair of braces. -/
  | group (cs : List Char)
deriving DecidableEq, Repr

mutual

/-- The pieces of a template of which `text`, in reverse, was read since the last group. -/
def piecesFrom (text : List Char) : List Char → List Piece
  | [] => [.text text.reverse]
  | '\x7b' :: rest => piecesInGroup text [] rest
  | c :: rest => piecesFrom (c :: text) rest

/-- The pieces of a template after an opening brace that stands behind `text`, when `name` was
read since the brace; both are in reverse. -/
def piecesInGroup (text name : List Char) : List Char → List Piece
  | [] => [.text (name ++ '\x7b' :: text).reverse]
  | '\x7d' :: rest => .text text.reverse :: .group name.reverse :: piecesFrom [] rest
  | '\x7b' :: rest => piecesInGroup (name ++ '\x7b' :: text) [] rest
  | c :: rest => piecesInGroup text (c :: name) rest

end

/-- Whether a character is a brace. -/
def isBrace (c : Char) : Bool := c == '\x7b' || c == '\x7d'

/-- Whether a group names a parameter. -/
def isParameterName (cs : List Char) : Bool := Text.isWordOf Text.isWordChar cs

/-- The parts that the pieces of `template` stand for. -/
def partsOf (template : String) : List Piece → Except Failure (List PathPart)
  | [] => .ok []
  | .text cs :: rest =>
    if cs.any isBrace then .error (.operation (.unbalancedBraces template))
    else do
      let parts ← partsOf template rest
      return if cs.isEmpty then parts else .literal (.ofList cs) :: parts
  | .group cs :: rest =>
    if isParameterName cs then do
      let parts ← partsOf template rest
      return .parameter (.ofList cs) :: parts
    else .error (.operation (.parameterNameInPath (.ofList cs) template))

/-- Reads a path template. -/
def parse (template : String) : Except Failure PathTemplate := do
  match ← partsOf template (piecesFrom [] template.toList) with
  | [] => return ⟨template, [.literal template]⟩
  | parts => return ⟨template, parts⟩

end PathTemplate
end TypedApi
