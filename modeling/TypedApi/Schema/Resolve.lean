import TypedApi.Code.Import
import TypedApi.Noted
import TypedApi.Schema.Codec
import TypedApi.Schema.Parts
import TypedApi.Schema.Registry

/-! # Resolution of schemas

The codec of a schema, found by following the schema down to its leaves and looking references up
in the registry. The imports noted are those of the static type.
-/
namespace TypedApi

/-- A computation that yields generated code and notes the imports that the code needs. -/
abbrev Emission := Noted Code.Import

/-- A name that the file of a component exports. -/
def Identifier.export (name : Identifier) (exported : String) : Code.Import :=
  ⟨.generated (some .model) name.kebab, exported⟩

/-- The codec of a reference at `place`. -/
def resolveReference (registry : Registry) (place : Place) (name : Identifier) :
    Emission Codec := do
  let kind ← Noted.ofExcept (registry.kindOf name)
  Noted.note (name.export name.upperCamel)
  return match kind with
    | .enumeration => .enumeration name
    | .object => .object name place

mutual

/-- The codec of the schema at `place`. -/
def resolve (registry : Registry) (place : Place) (schema : Value) : Emission Codec :=
  match h : classify place schema with
  | .error e => .fail e
  | .ok (.reference _ name) => resolveReference registry place name
  | .ok (.oneOf options) => do
    have := sizeOf_options h
    return .union (← resolveOptions registry place 0 options)
  | .ok .boolean => return .boolean
  | .ok (.number integer) => return .number integer
  | .ok .date => return .date
  | .ok .dateTime => return .dateTime
  | .ok (.text limits) => return .text limits
  | .ok (.map values) => do
    have := sizeOf_values h
    return .map (← resolve registry (place ++ ["additionalProperties"]) values) place
  | .ok (.array items) => do
    have := sizeOf_items h
    return .array (← resolve registry (place ++ ["items"]) items)
  | .ok (.enumeration _) => .fail (.shape place .inlineEnum)
  | .ok (.object _ _) => .fail (.shape place .inlineObject)
termination_by sizeOf schema

/-- The codecs of the alternatives of a choice at `place`, of which the first has the given
index. -/
def resolveOptions (registry : Registry) (place : Place) (index : Nat) (options : List Value) :
    Emission (List Codec) :=
  match options with
  | [] => return []
  | option :: rest => do
    let codec ← resolve registry (place ++ ["oneOf[" ++ toString index ++ "]"]) option
    let codecs ← resolveOptions registry place (index + 1) rest
    return codec :: codecs
termination_by sizeOf options

end

/-- The codec of the schema at `place`, for a value that may have to be there. -/
def resolveSlot (registry : Registry) (place : Place) (schema : Value) (required : Bool) :
    Emission Slot := do
  return ⟨← resolve registry place schema, required⟩

end TypedApi
