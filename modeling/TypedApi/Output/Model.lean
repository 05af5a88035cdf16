import TypedApi.Code.Comment
import TypedApi.Code.Name
import TypedApi.Code.SourceFile
import TypedApi.Schema.Conversion
import TypedApi.Text.Lines

/-! # Model files

The file of a component: its type, the function that writes its values and the function that
checks them.
-/
namespace TypedApi

/-- The lines of the description of a schema. -/
def Members.descriptionLines (members : Members) : Except Failure (List String) :=
  let description := members.getD "description"
  if !description.isTruthy then .ok []
  else
    match description.text? with
    | some text => .ok (Text.descriptionLines text)
    | none => .error (.defect .descriptionNotText)

/-- The file in `folder` with the given path that holds the lines of `emission` and imports what
they need. -/
def Emission.toFile (folder : Option Code.Folder) (path : String) (lines : Emission (List String)) :
    Except Failure Code.SourceFile := do
  let body ← lines.result
  let imports := (Code.ImportSet.empty folder).addAll lines.notes
  return ⟨path, Code.fileText [imports.render, Code.joinLines body]⟩

namespace Model

/-- The lines of an enumeration. -/
def enumerationLines (name : String) (values description : List String) :
    Emission (List String) := do
  Noted.note (Code.Import.helper "validateOneOf")
  let literals := values.map Text.literal
  return Code.descriptionComment "" description ++
    ["export type " ++ name ++ " = " ++ " | ".intercalate literals ++ ";",
     "",
     "/** Array of " ++ name ++ " values. */",
     "export const values" ++ name ++ ": ReadonlyArray<" ++ name ++ "> = ["
       ++ Text.commaList literals ++ "];",
     "",
     "/** Convert from " ++ name ++ " to JSON. */",
     "export const print" ++ name ++ " = (value: " ++ name ++ "): any => value;",
     "",
     "/** Convert from JSON to " ++ name ++ ". */",
     "export const validate" ++ name ++ " = (json: unknown, context: string[] = []): " ++ name
       ++ " =>",
     "\tvalidateOneOf(json, values" ++ name ++ ", "
       ++ Code.contextLiteral [name] (some "context") ++ ");"]

/-- The lines that a property adds to the type, to the writing and to the checking function. -/
structure PropertyLines where
  type : List String
  printer : String
  validator : String
deriving DecidableEq, Repr

/-- The comment of a property. A reference has none. -/
def propertyComment (schema : Value) : Except Failure (List String) :=
  match schema with
  | .map members =>
    if Members.has "$ref" members then .ok []
    else return Code.descriptionComment "\t" (← Members.descriptionLines members)
  | _ => .ok []

/-- The lines of a property of the component `name`. -/
def propertyLines (registry : Registry) (name : String) (required : List String)
    (property : String × Value) : Emission PropertyLines := do
  let (key, schema) := property
  let isRequired := required.contains key
  let slot ← resolveSlot registry [name, key] schema isRequired
  let comment ← Noted.ofExcept (propertyComment schema)
  let printed ← slot.toJson (Code.memberAccess "value" key)
  let checked ← slot.fromJson (Code.memberAccess "object" key)
    (Code.contextLiteral [name, key] (some "context"))
  let written := Code.memberKey key
  return {
    type := comment ++ ["\treadonly " ++ written ++ (if isRequired then "" else "?") ++ ": "
      ++ slot.typeName ++ ";"]
    printer := "\t\t" ++ written ++ ": " ++ printed ++ ","
    validator := "\t\t" ++ written ++ ": " ++ checked ++ "," }

/-- The lines of the properties of the component `name`, in order. -/
def allPropertyLines (registry : Registry) (name : String) (required : List String) :
    List (String × Value) → Emission (List PropertyLines)
  | [] => return []
  | property :: rest => do
    let lines ← propertyLines registry name required property
    let later ← allPropertyLines registry name required rest
    return lines :: later

/-- The lines of an object. -/
def objectLines (registry : Registry) (name : String) (properties : List (String × Value))
    (required : List String) (description : Except Failure (List String)) :
    Emission (List String) := do
  Noted.note (Code.Import.helper "validateObject")
  let lines ← allPropertyLines registry name required properties
  let description ← Noted.ofExcept description
  let type :=
    if lines.isEmpty then ["export type " ++ name ++ " = Record<string, never>;"]
    else ("export type " ++ name ++ " = \x7b") :: (lines.flatMap (·.type) ++ ["\x7d;"])
  return Code.descriptionComment "" description ++ type ++
    ["",
     "/** Convert from " ++ name ++ " to JSON. */",
     "export const print" ++ name ++ " = (value: " ++ name ++ "): any => \x7b",
     "\tvalidateObject(value, " ++ Code.contextLiteral [name] none ++ ");",
     "\treturn \x7b"] ++ lines.map (·.printer) ++
    ["\t\x7d;",
     "\x7d;",
     "",
     "/** Convert from JSON to " ++ name ++ ". */",
     "export const validate" ++ name ++ " = (json: unknown, context: string[] = []): " ++ name
       ++ " => \x7b",
     "\tconst object = validateObject(json, context);",
     "\treturn \x7b"] ++ lines.map (·.validator) ++
    ["\t\x7d;",
     "\x7d;"]

/-- The lines of a component schema. -/
def lines (registry : Registry) (name : Identifier) (schema : Value) :
    Emission (List String) := do
  let shape ← Noted.ofExcept (classify [name.upperCamel] schema)
  let description := match schema with
    | .map members => Members.descriptionLines members
    | _ => .ok []
  match shape with
  | .enumeration values =>
    enumerationLines name.upperCamel values (← Noted.ofExcept description)
  | .object properties required =>
    objectLines registry name.upperCamel properties required description
  | _ => .fail (.defect (.notAModel name.upperCamel))

/-- The file of the component `raw`. -/
def file (registry : Registry) (raw : String) (schema : Value) :
    Except Failure Code.SourceFile := do
  let name ← Identifier.ofHumped raw
  Emission.toFile (some .model) ("model/" ++ name.kebab ++ ".ts") (lines registry name schema)

end Model
end TypedApi
