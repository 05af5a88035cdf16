import TypedApi.Proofs.Noted
import TypedApi.Schema.Resolve

/-! # How a schema resolves

One equation for each shape: `resolve` is opened here and nowhere else.  A shape that is a
reference names the component that its text spells (`parseReference_of_classify`).
-/
namespace TypedApi

section Shapes
variable {registry : Registry} {place : Place} {schema : Value}

theorem resolve_of_error {e : Failure} (h : classify place schema = .error e) :
    resolve registry place schema = .fail e := by
  rw [resolve]
  split <;> simp_all

theorem resolve_of_reference {reference : String} {name : Identifier}
    (h : classify place schema = .ok (.reference reference name)) :
    resolve registry place schema = resolveReference registry place name := by
  rw [resolve]
  split <;> simp_all

theorem resolve_of_oneOf {options : List Value}
    (h : classify place schema = .ok (.oneOf options)) :
    resolve registry place schema =
      do return .union (← resolveOptions registry place 0 options) := by
  rw [resolve]
  split <;> simp_all

theorem resolve_of_map {values : Value} (h : classify place schema = .ok (.map values)) :
    resolve registry place schema =
      do return .map (← resolve registry (place ++ ["additionalProperties"]) values) place := by
  rw [resolve]
  split <;> simp_all

theorem resolve_of_array {items : Value} (h : classify place schema = .ok (.array items)) :
    resolve registry place schema =
      do return .array (← resolve registry (place ++ ["items"]) items) := by
  rw [resolve]
  split <;> simp_all

theorem resolve_of_boolean (h : classify place schema = .ok .boolean) :
    resolve registry place schema = pure .boolean := by
  rw [resolve]
  split <;> simp_all

theorem resolve_of_number {integer : Bool} (h : classify place schema = .ok (.number integer)) :
    resolve registry place schema = pure (.number integer) := by
  rw [resolve]
  split <;> simp_all

theorem resolve_of_text {limits : TextLimits} (h : classify place schema = .ok (.text limits)) :
    resolve registry place schema = pure (.text limits) := by
  rw [resolve]
  split <;> simp_all

theorem resolve_of_date (h : classify place schema = .ok .date) :
    resolve registry place schema = pure .date := by
  rw [resolve]
  split <;> simp_all

theorem resolve_of_dateTime (h : classify place schema = .ok .dateTime) :
    resolve registry place schema = pure .dateTime := by
  rw [resolve]
  split <;> simp_all

theorem resolve_of_enumeration {values : List String}
    (h : classify place schema = .ok (.enumeration values)) :
    resolve registry place schema = .fail (.shape place .inlineEnum) := by
  rw [resolve]
  split <;> simp_all

theorem resolve_of_object {properties : List (String × Value)} {required : List String}
    (h : classify place schema = .ok (.object properties required)) :
    resolve registry place schema = .fail (.shape place .inlineObject) := by
  rw [resolve]
  split <;> simp_all

theorem resolveReference_eq_ok {name : Identifier} {codec : Codec}
    (h : (resolveReference registry place name).result = .ok codec) :
    ∃ kind, registry.kind? name.upperCamel = some kind ∧
      codec = (match kind with
        | .enumeration => .enumeration name
        | .object => .object name place) ∧
      (resolveReference registry place name).notes = [name.export name.upperCamel] := by
  unfold resolveReference Registry.kindOf at h ⊢
  cases found : registry.kind? name.upperCamel with
  | none =>
    rw [found] at h
    cases h
  | some kind =>
    rw [found] at h
    cases h
    exact ⟨kind, rfl, rfl, rfl⟩

end Shapes

/-! ## The name of a reference -/

namespace Schema
variable {place : Place} {members : Members} {text : String} {name : Identifier}

theorem oneOf_ne_reference : oneOf place members ≠ .ok (.reference text name) := by
  intro h
  simp only [oneOf, bind, Except.bind, pure, Except.pure, throw, throwThe,
    MonadExceptOf.throw] at h
  repeat' split at h
  all_goals cases h

theorem boundedText_ne_reference {email : Bool} :
    boundedText place members email ≠ .ok (.reference text name) := by
  intro h
  simp only [boundedText, bind, Except.bind, pure, Except.pure, throw, throwThe,
    MonadExceptOf.throw] at h
  repeat' split at h
  all_goals cases h

theorem typed_ne_reference : typed place members ≠ .ok (.reference text name) := by
  intro h
  simp only [typed, enumeration, Schema.text, array, object, map, bind, Except.bind, pure,
    Except.pure, throw, throwThe, MonadExceptOf.throw] at h
  repeat' split at h
  all_goals first
    | cases h
    | exact boundedText_ne_reference h

theorem reference_eq_ok (h : reference place members = .ok (.reference text name)) :
    parseReference text = .ok name := by
  simp only [reference, bind, Except.bind, pure, Except.pure, throw, throwThe,
    MonadExceptOf.throw] at h
  repeat' split at h
  all_goals cases h
  assumption

theorem ofMembers_eq_reference (h : ofMembers place members = .ok (.reference text name)) :
    parseReference text = .ok name := by
  simp only [ofMembers] at h
  split at h
  · exact reference_eq_ok h
  · split at h
    · cases h
    · split at h
      · exact absurd h oneOf_ne_reference
      · exact absurd h typed_ne_reference

end Schema

theorem parseReference_of_classify {place : Place} {schema : Value} {text : String}
    {name : Identifier} (h : classify place schema = .ok (.reference text name)) :
    parseReference text = .ok name := by
  unfold classify at h
  split at h
  · exact Schema.ofMembers_eq_reference h
  · cases h

end TypedApi
