import TypedApi.Output.Controller
import TypedApi.Proofs.Code.Names
import TypedApi.Proofs.Noted

/-! # Handlers of routes

The handler of a route binds the body, every parameter and the result to variables of one scope.
`Handler` is what it consists of, and the lines of a route are written from its handler
(`routeLines_handlerOf`).  Read off these lines, the declarations are those of the handler
(`declarations_lines`).
-/
namespace TypedApi

/-! ## Handlers -/

namespace Controller
open Noted

/-- A variable of a handler: its written name, the text that it is read from, and the expression
that it is bound to. -/
structure Input where
  name : String
  source : String
  expression : String

/-- What a handler writes as the result. -/
inductive Answer where
  /-- There is none. -/
  | nothing
  /-- The result itself. -/
  | plain
  /-- The value of an expression. -/
  | printed (expression : String)

/-- The handler of a route. -/
structure Handler where
  body : Option Input
  parameters : List Input
  answer : Answer

def Input.line (input : Input) : String :=
  "\t\t\t\tconst " ++ input.name ++ " = " ++ input.expression ++ ";"

/-- The variable of the body. -/
def bodyInput (body : BodySpec) : Emission Input := do
  let decoded ← body.slot.fromJson "req.body" (Code.contextLiteral body.place none)
  return ⟨"body", "req.body", decoded⟩

/-- The variable of the body, if there is one. -/
def bodyInput? : Option BodySpec → Emission (Option Input)
  | none => return none
  | some body => do
    let input ← bodyInput body
    return some input

/-- The object in the request that holds the parameters of a location. -/
def holder : ParameterLocation → String
  | .path => "req.params."
  | .query => "req.query."

/-- The text that a parameter is read from. -/
def sourceOf (parameter : ParameterSpec) : String := holder parameter.location ++ parameter.name

/-- The variable of a parameter. -/
def parameterInput (parameter : ParameterSpec) : Emission Input := do
  let decoded ← parameter.slot.fromParam (sourceOf parameter)
    (Code.contextLiteral parameter.place none)
  return ⟨parameter.name, sourceOf parameter, decoded⟩

/-- The result of a handler. -/
def answerOf : Option BodySpec → Emission Answer
  | none => return .nothing
  | some response =>
    if response.slot.hasPrinter then do
      let printed ← response.slot.toJson resultName
      return .printed printed
    else return .plain

/-- The handler of the route of an operation. -/
def handlerOf (signature : Signature) : Emission Handler := do
  let body ← bodyInput? signature.body
  let parameters ← signature.parameters.mapM parameterInput
  let answer ← answerOf signature.response
  return ⟨body, parameters, answer⟩

namespace Handler

/-- All variables that are read from the request. -/
def inputs (handler : Handler) : List Input := handler.body.toList ++ handler.parameters

/-- The lines that call the method and write the result. -/
def answerLines (signature : Signature) : Answer → List String
  | .nothing => ["\t\t\t\tawait " ++ methodCall signature ++ ";"]
  | .plain =>
    ["\t\t\t\tconst " ++ resultName ++ " = await " ++ methodCall signature ++ ";",
      "\t\t\t\treturn " ++ resultName ++ ";"]
  | .printed expression =>
    ["\t\t\t\tconst " ++ resultName ++ " = await " ++ methodCall signature ++ ";",
      "\t\t\t\treturn this.printResponse(() => " ++ expression ++ ");"]

/-- The lines of the route with the handler. -/
def lines (signature : Signature) (handler : Handler) : List String :=
  ["\t\tapp." ++ signature.operation.method.key ++ "("
      ++ Text.literal signature.operation.url.route ++ ", (req: Request, res: Response) =>",
    "\t\t\tthis.handleResponse(res, (async () => \x7b"]
  ++ handler.body.toList.map Input.line ++ handler.parameters.map Input.line
  ++ answerLines signature handler.answer ++
  ["\t\t\t\x7d)()),", "\t\t);"]

end Handler

theorem parameterLine_eq (parameter : ParameterSpec) :
    parameterLine parameter = do return (← parameterInput parameter).line := by
  obtain ⟨name, location, slot, description, place⟩ := parameter
  cases location <;> simp [parameterLine, parameterInput, sourceOf, holder, Input.line]

theorem parameterLines_eq (parameters : List ParameterSpec) :
    parameterLines parameters = do return (← parameters.mapM parameterInput).map Input.line := by
  induction parameters with
  | nil => simp [parameterLines]
  | cons parameter rest ih =>
    rw [parameterLines, parameterLine_eq, ih, List.mapM_cons]
    simp only [bind_assoc, pure_bind, List.map_cons]

theorem callLines_eq (signature : Signature) :
    callLines signature = do
      return Handler.answerLines signature (← answerOf signature.response) := by
  unfold callLines answerOf
  cases signature.response with
  | none => simp [Handler.answerLines]
  | some response =>
    simp only
    split <;> simp [Handler.answerLines]

/-- **A route is its handler.**  The lines of a route declare the variables of the handler in order,
and nothing else. -/
theorem routeLines_handlerOf (signature : Signature) :
    routeLines signature = do return (← handlerOf signature).lines signature := by
  unfold routeLines handlerOf
  rw [parameterLines_eq, callLines_eq]
  cases signature.body with
  | none => simp [Handler.lines, bodyInput?]
  | some body => simp [Handler.lines, bodyInput?, bodyLines, bodyInput, Input.line]

/-! ## What a route declares -/

/-- The start of a line that declares a variable. -/
def constStart : String := "\t\t\t\tconst "

/-- The identifier that a line of a route declares. -/
def declaredName? (line : String) : Option String :=
  if constStart.toList.isPrefixOf line.toList then
    some (Code.boundName (.ofList (line.toList.drop constStart.toList.length)))
  else none

/-- The identifier of the result, if there is one. -/
def Answer.declared : Answer → List String
  | .nothing => []
  | _ => [resultName]

/-- The expression that prints the result, if there is one. -/
def Answer.expressions : Answer → List String
  | .printed expression => [expression]
  | _ => []

/-- The identifiers that are declared. -/
def Handler.declared (handler : Handler) : List String :=
  (handler.inputs.map fun input => Code.boundName input.name) ++ handler.answer.declared

theorem declaredName?_const (text : String) :
    declaredName? (constStart ++ text) = some (Code.boundName text) := by
  have start : constStart.toList.isPrefixOf (constStart.toList ++ text.toList) = true :=
    List.isPrefixOf_iff_prefix.mpr (List.prefix_append _ _)
  rw [declaredName?, String.toList_append, if_pos start, List.drop_left, String.ofList_toList]

/-- A line that starts otherwise declares nothing. -/
theorem declaredName?_other {start : String} (rest : String)
    (h : ¬ constStart.toList <+: start.toList ∧ ¬ start.toList <+: constStart.toList) :
    declaredName? (start ++ rest) = none := by
  rw [declaredName?, if_neg]
  rw [List.isPrefixOf_iff_prefix, String.toList_append]
  intro whole
  rcases List.prefix_or_prefix_of_prefix whole (List.prefix_append _ _) with first | second
  · exact h.1 first
  · exact h.2 second

theorem declaredName?_line (input : Input) :
    declaredName? input.line = some (Code.boundName input.name) := by
  have stop : (" = " ++ input.expression ++ ";").toList.takeWhile Code.isNamePart = [] := by
    rw [String.append_assoc, String.toList_append]
    rfl
  have split : input.line =
      constStart ++ (input.name ++ (" = " ++ input.expression ++ ";")) := by
    simp only [Input.line, constStart, String.append_assoc]
  rw [split, declaredName?_const, Code.boundName_append stop]

/-- The call declares the result, if there is one. -/
theorem declaredName?_call (signature : Signature) :
    declaredName? ("\t\t\t\tconst " ++ resultName ++ " = await " ++ methodCall signature ++ ";") =
      some resultName := by
  have stop : (" = await " ++ methodCall signature ++ ";").toList.takeWhile Code.isNamePart =
      [] := by
    rw [String.append_assoc, String.toList_append]
    rfl
  have bound : Code.boundName resultName = resultName := by decide
  have whole := declaredName?_const (resultName ++ (" = await " ++ methodCall signature ++ ";"))
  rw [Code.boundName_append stop, bound] at whole
  simpa only [constStart, String.append_assoc] using whole

theorem filterMap_answerLines (signature : Signature) (answer : Answer) :
    (Handler.answerLines signature answer).filterMap declaredName? = answer.declared := by
  cases answer with
  | nothing =>
    have call : declaredName? ("\t\t\t\tawait " ++ methodCall signature ++ ";") = none := by
      rw [String.append_assoc]
      exact declaredName?_other _ (by decide)
    rw [Handler.answerLines, List.filterMap_cons_none call]
    rfl
  | plain =>
    have returned : declaredName? ("\t\t\t\treturn " ++ resultName ++ ";") = none :=
      declaredName?_other ";" (by decide)
    rw [Handler.answerLines, List.filterMap_cons_some (declaredName?_call signature),
      List.filterMap_cons_none returned]
    rfl
  | printed expression =>
    have returned : declaredName? ("\t\t\t\treturn this.printResponse(() => " ++ expression
        ++ ");") = none := by
      rw [String.append_assoc]
      exact declaredName?_other _ (by decide)
    rw [Handler.answerLines, List.filterMap_cons_some (declaredName?_call signature),
      List.filterMap_cons_none returned]
    rfl

theorem filterMap_inputLines (inputs : List Input) :
    (inputs.map Input.line).filterMap declaredName? =
      inputs.map fun input => Code.boundName input.name := by
  induction inputs with
  | nil => rfl
  | cons input rest ih =>
    rw [List.map_cons, List.filterMap_cons_some (declaredName?_line input), ih]
    rfl

/-- **The declarations of a route** are the variables of its handler, in order. -/
theorem declarations_lines (signature : Signature) (handler : Handler) :
    (handler.lines signature).filterMap declaredName? = handler.declared := by
  have app : ∀ rest, declaredName? ("\t\tapp." ++ rest) = none := fun rest =>
    declaredName?_other rest (by decide)
  have opened : declaredName? "\t\t\tthis.handleResponse(res, (async () => \x7b" = none := by decide
  have closed : ["\t\t\t\x7d)()),", "\t\t);"].filterMap declaredName? = [] := by decide
  simp only [Handler.lines, Handler.declared, Handler.inputs, List.filterMap_append,
    List.filterMap_cons, List.filterMap_nil, filterMap_inputLines, filterMap_answerLines, closed,
    String.append_assoc, app, opened, List.nil_append, List.append_nil, List.map_append]

end Controller
end TypedApi
