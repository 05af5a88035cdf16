import TypedApi.Proofs.Operation.Signature

/-! # What the operations of a tag refer to

Building the signatures of a tag notes the types of the components that their slots refer to and
nothing else (`Signature.ofGroup_resolvesTo`), since every slot is resolved once and the checks
around it leave no notes.
-/
namespace TypedApi

/-- The components that an operation refers to. -/
def Signature.references (signature : Signature) : List Identifier :=
  signature.body.toList.flatMap (·.slot.references)
    ++ signature.parameters.flatMap (·.slot.references)
    ++ signature.response.toList.flatMap (·.slot.references)

namespace Signature

variable {registry : Registry} {method : String}

/-! ## Bodies and parameters -/

theorem bodySpec_resolvesTo {place : Place} {owner : String} {content description : Value} :
    ResolvesTo registry (bodySpec registry place owner content description)
      (·.slot.references) :=
  .after (Noted.ofExcept_notes _) fun _ => resolveSlot_resolvesTo.map fun _ => rfl

/-- The components that a body refers to, if there is one. -/
def bodyReferences (body : Option BodySpec) : List Identifier :=
  body.toList.flatMap (·.slot.references)

theorem some_bodySpec_resolvesTo {place : Place} {owner : String} {content description : Value} :
    ResolvesTo registry (do return some (← bodySpec registry place owner content description))
      bodyReferences :=
  bodySpec_resolvesTo.map fun body => by simp [bodyReferences]

theorem requestBody_resolvesTo {operation : Operation} :
    ResolvesTo registry (requestBody registry method operation) bodyReferences := by
  unfold requestBody
  split
  · exact resolvesTo_pure rfl
  · split
    · exact resolvesTo_fail
    · split
      · exact some_bodySpec_resolvesTo
      · exact resolvesTo_fail
  · exact resolvesTo_fail

theorem responseBody_resolvesTo {operation : Operation} :
    ResolvesTo registry (responseBody registry method operation) bodyReferences := by
  unfold responseBody
  -- each split is one check; only the innermost branch resolves a schema
  split
  · simp only
    split
    · exact resolvesTo_fail
    · split
      · exact resolvesTo_fail
      · split
        · split
          · exact resolvesTo_fail
          · split
            · exact resolvesTo_pure rfl
            · exact some_bodySpec_resolvesTo
        · exact resolvesTo_fail
  · exact resolvesTo_fail

theorem parameterSpec_resolvesTo {parameter : Members} :
    ResolvesTo registry (parameterSpec registry method parameter) (·.slot.references) := by
  have probed : ∀ (place : Place) (schema : Value) (required : Bool) (name : String)
      (spec : Slot → ParameterSpec), (∀ slot, (spec slot).slot = slot) →
      ResolvesTo registry (do
        Noted.silent (readable registry place schema required name)
        let slot ← resolveSlot registry place schema required
        return spec slot) (·.slot.references) := fun _ _ _ _ spec own =>
    .after (Noted.silent_notes _) fun _ => resolveSlot_resolvesTo.map fun slot => by rw [own]
  unfold parameterSpec
  refine .after (Noted.ofExcept_notes _) fun name => ?_
  refine .after (Noted.ofExcept_notes _) fun location => ?_
  simp only
  -- the first split is on whether a value has to be given
  split
  all_goals
    split
    · exact resolvesTo_fail
    · split
      · exact resolvesTo_fail
      · split
        · exact .after (Noted.ofExcept_notes _) fun _ => probed _ _ _ _ _ fun _ => rfl
        · exact probed _ _ _ _ _ fun _ => rfl

theorem parameterSpecs_resolvesTo (parameters : List Members) :
    ResolvesTo registry (parameterSpecs registry method parameters)
      (List.flatMap (·.slot.references)) := by
  induction parameters with
  | nil => exact resolvesTo_pure rfl
  | cons parameter rest ih => exact parameterSpec_resolvesTo.cons ih

theorem matchingParameters_resolvesTo {operation : Operation} :
    ResolvesTo registry (matchingParameters registry method operation)
      (List.flatMap (·.slot.references)) := by
  unfold matchingParameters
  refine (parameterSpecs_resolvesTo operation.parameters).bind (fun _ _ => [])
    (fun specs => ?_) fun specs specs' same => ?_
  · simp only
    split
    · exact resolvesTo_fail
    · split
      · exact resolvesTo_fail
      · exact resolvesTo_pure rfl
  · simp only at same
    split at same
    · cases same
    · split at same
      · cases same
      · cases same
        rw [List.append_nil]

/-! ## Signatures -/

theorem ofOperation_resolvesTo {operation : Operation} :
    ResolvesTo registry (ofOperation registry method operation) references := by
  refine requestBody_resolvesTo.bind (fun _ signature =>
    signature.parameters.flatMap (·.slot.references) ++ bodyReferences signature.response)
    (fun body => ?_) fun body signature built => ?_
  · refine matchingParameters_resolvesTo.bind (fun _ signature => bodyReferences signature.response)
      (fun specs => responseBody_resolvesTo.map fun _ => rfl) fun specs signature built => ?_
    obtain ⟨response, -, built⟩ := Noted.bind_eq_ok.mp built
    cases built
    rfl
  · obtain ⟨specs, -, built⟩ := Noted.bind_eq_ok.mp built
    obtain ⟨response, -, built⟩ := Noted.bind_eq_ok.mp built
    cases built
    exact List.append_assoc _ _ _

theorem ofOperations_resolvesTo {tag : Identifier} {tagName : String}
    (seen : List (String × String)) (operations : List Operation) :
    ResolvesTo registry (ofOperations registry tag tagName seen operations)
      (List.flatMap references) := by
  induction operations generalizing seen with
  | nil => exact resolvesTo_pure rfl
  | cons operation rest ih =>
    refine .after (Noted.ofExcept_notes _) fun name => ?_
    split
    · exact resolvesTo_fail
    · exact ofOperation_resolvesTo.cons (ih _)

/-- **The types that a tag imports** are those of the components that its operations refer to. -/
theorem ofGroup_resolvesTo {group : TagGroup} :
    ResolvesTo registry (ofGroup registry group) (List.flatMap references) :=
  .after (Noted.ofExcept_notes _) fun _ => ofOperations_resolvesTo [] group.operations

end Signature
end TypedApi
