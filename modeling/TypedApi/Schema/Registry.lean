import TypedApi.Schema.Classify

/-! # The registry of components

Each component schema is an enumeration of texts or an object with properties. The registry says
which, by the type name of the component, so that a reference is resolved without its schema.
-/
namespace TypedApi

/-- What a component schema is. -/
inductive ComponentKind where
  | enumeration
  | object
deriving DecidableEq, Repr

/-- The component schemas of a document by type name, in document order. -/
structure Registry where
  kinds : List (String × ComponentKind)
deriving DecidableEq, Repr

namespace Registry

/-- The kind of the component with the given type name. -/
def kind? (registry : Registry) (typeName : String) : Option ComponentKind :=
  registry.kinds.lookup typeName

/-- The kind of the component that `name` names. -/
def kindOf (registry : Registry) (name : Identifier) : Except Failure ComponentKind :=
  match registry.kind? name.upperCamel with
  | some kind => .ok kind
  | none => .error (.reference (.unknown name.upperCamel))

/-- The kind of a component with the given shape. -/
def componentKind (place : Place) : Shape → Except Failure ComponentKind
  | .enumeration _ => .ok .enumeration
  | .object _ _ => .ok .object
  | _ => .error (.shape place .notAComponent)

/-- The components of `members`, after those of which `names` holds the type name and the name
in the document. -/
def entries (names : List (String × String)) : Members → Except Failure (List (String × ComponentKind))
  | [] => .ok []
  | (.text raw, schema) :: rest => do
    let name ← Identifier.ofHumped raw
    match names.lookup name.upperCamel with
    | some first => throw (.naming (.schemaClash first raw name.upperCamel))
    | none =>
      let place := [name.upperCamel]
      let kind ← componentKind place (← classify place schema)
      let later ← entries (names ++ [(name.upperCamel, raw)]) rest
      return (name.upperCamel, kind) :: later
  | _ :: _ => .error (.defect .nameNotText)

/-- The registry of the component schemas of a document. -/
def ofSchemas (schemas : Members) : Except Failure Registry :=
  return ⟨← entries [] schemas⟩

end Registry
end TypedApi
