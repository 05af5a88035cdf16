import TypedApi.Operation.Signature
import TypedApi.Proofs.Schema.Imports

/-! # Signatures are fit for both classes

The checks that build a signature leave nothing to fail for the classes that are written from it
(`Signature.Sound`): each parameter can be read from text, since this was tried before
(`parameterSpec_yields`), each parameter of the path template is there
(`matchingParameters_yields`), and all components are registered.
-/
namespace TypedApi

/-- A parameter whose text can be read. -/
structure ParameterSpec.Sound (registry : Registry) (parameter : ParameterSpec) : Prop where
  known : parameter.slot.Known registry
  readable : parameter.slot.Readable

/-- A signature from which both classes can be written. -/
structure Signature.Sound (registry : Registry) (signature : Signature) : Prop where
  body : ∀ body ∈ signature.body, body.slot.Known registry
  parameters : ∀ parameter ∈ signature.parameters, parameter.Sound registry
  response : ∀ response ∈ signature.response, response.slot.Known registry
  /-- Every parameter of the path template is one of the operation. -/
  template : ∀ name ∈ signature.operation.url.parameterNames,
    ∃ parameter ∈ signature.parameters, parameter.location = .path ∧ parameter.name = name

namespace Signature
open Noted

variable {registry : Registry} {method : String}

/-! ## Bodies -/

theorem bodySpec_yields {place : Place} {owner : String} {content description : Value} :
    Yields registry.Supplies (fun body : BodySpec => body.slot.Known registry)
      (bodySpec registry place owner content description) := by
  refine (yields_any _).bind fun schema _ => ?_
  exact resolveSlot_yields.bind fun slot known => yields_pure known

/-- What is said of an optional body. -/
def BodyKnown (registry : Registry) (body : Option BodySpec) : Prop :=
  ∀ b ∈ body, b.slot.Known registry

theorem bodyKnown_none : BodyKnown registry none := by
  intro b h
  cases h

theorem some_bodySpec_yields {place : Place} {owner : String} {content description : Value} :
    Yields registry.Supplies (BodyKnown registry)
      (do return some (← bodySpec registry place owner content description)) :=
  bodySpec_yields.bind fun body known => yields_pure fun b hb => by
    cases hb
    exact known

theorem requestBody_yields {operation : Operation} :
    Yields registry.Supplies (BodyKnown registry) (requestBody registry method operation) := by
  unfold requestBody
  split
  · exact yields_pure bodyKnown_none
  · split
    · exact yields_fail _
    · split
      · exact some_bodySpec_yields
      · exact yields_fail _
  · exact yields_fail _

theorem responseBody_yields {operation : Operation} :
    Yields registry.Supplies (BodyKnown registry) (responseBody registry method operation) := by
  unfold responseBody
  -- each split is one check; only the innermost branch resolves a schema
  split
  · simp only
    split
    · exact yields_fail _
    · split
      · exact yields_fail _
      · split
        · split
          · exact yields_fail _
          · split
            · exact yields_pure bodyKnown_none
            · exact some_bodySpec_yields
        · exact yields_fail _
  · exact yields_fail _

/-- The responses by status are responses of the operation. -/
theorem mem_of_mem_byStatus {responses : Members} {response : String × Value}
    (h : response ∈ byStatus responses) : ∃ status, (status, response.2) ∈ responses := by
  unfold byStatus at h
  -- what holds of every response found so far is kept by the next one, which may take the place of
  -- an earlier one
  refine List.foldlRecOn
    (motive := fun seen => ∀ response ∈ seen, ∃ status, (status, response.2) ∈ responses)
    responses _ (List.forall_mem_nil _) (fun seen earlier member hm => ?_) response h
  have own : ∃ status, (status, member.2) ∈ responses := ⟨member.1, hm⟩
  simp only
  split
  · intro response hr
    obtain ⟨before, hb, rfl⟩ := List.mem_map.mp hr
    split
    · exact own
    · exact earlier before hb
  · intro response hr
    rcases List.mem_append.mp hr with hr | hr
    · exact earlier response hr
    · cases List.mem_singleton.mp hr
      exact own

/-! ## Parameters -/

/-- **The probe decides.**  If the values of a schema were once read from text, they always can
be. -/
theorem readable_of_ok {place : Place} {schema : Value} {required : Bool} {name : String}
    {slot : Slot} (h : (readable registry place schema required name).result = .ok ())
    (hs : (resolveSlot registry place schema required).result = .ok slot) : slot.Readable := by
  obtain ⟨probed, hp, read⟩ := bind_eq_ok.mp h
  -- the probe resolves the same schema
  cases hs.symm.trans hp
  obtain ⟨text, ht, -⟩ := bind_eq_ok.mp read
  exact Slot.fromParam_ok_of_ok ht

theorem probed_yields {place : Place} {schema : Value} {required : Bool} {name : String}
    {location : ParameterLocation} {description : Option String} :
    Yields registry.Supplies (ParameterSpec.Sound registry) (do
      silent (readable registry place schema required name)
      let slot ← resolveSlot registry place schema required
      return ⟨name, location, slot, description, place⟩) := by
  refine (yields_silent fun _ => id).bind fun _ probed => ?_
  intro parameter h
  obtain ⟨slot, hs, hp⟩ := bind_eq_ok.mp h
  obtain ⟨known, notes⟩ := resolveSlot_yields slot hs
  cases hp
  refine ⟨⟨known, readable_of_ok probed hs⟩, fun i hi => ?_⟩
  rw [notes_bind_of_ok hs, pure_notes, List.append_nil] at hi
  exact notes i hi

theorem parameterSpec_yields {parameter : Members} :
    Yields registry.Supplies (ParameterSpec.Sound registry)
      (parameterSpec registry method parameter) := by
  unfold parameterSpec
  refine (yields_any _).bind fun name _ => ?_
  refine (yields_any _).bind fun location _ => ?_
  simp only
  -- the first split is on whether a value has to be given
  split
  all_goals
    split
    · exact yields_fail _
    · split
      · exact yields_fail _
      · split
        · exact (yields_any _).bind fun _ _ => probed_yields
        · exact probed_yields

/-- Every element of a list of parameters is sound. -/
def AllSound (registry : Registry) (parameters : List ParameterSpec) : Prop :=
  ∀ parameter ∈ parameters, parameter.Sound registry

theorem parameterSpecs_yields (parameters : List Members) :
    Yields registry.Supplies (AllSound registry)
      (parameterSpecs registry method parameters) := by
  induction parameters with
  | nil => exact yields_pure fun _ h => by cases h
  | cons parameter rest ih =>
    refine parameterSpec_yields.bind fun spec sound => ih.bind fun specs allSound => ?_
    refine yields_pure fun p hp => ?_
    rcases List.mem_cons.mp hp with rfl | hp
    · exact sound
    · exact allSound p hp

/-- The path parameters of an operation are those of its path template. -/
theorem matchingParameters_yields {operation : Operation} :
    Yields registry.Supplies
      (fun specs => AllSound registry specs ∧ ∀ name ∈ operation.url.parameterNames,
        ∃ parameter ∈ specs, parameter.location = .path ∧ parameter.name = name)
      (matchingParameters registry method operation) := by
  refine (parameterSpecs_yields operation.parameters).bind fun specs sound => ?_
  simp only
  split
  · exact yields_fail _
  · split
    · exact yields_fail _
    · rename_i same
      refine yields_pure ⟨sound, fun name hn => ?_⟩
      -- sorted alike, the two lists of names have the same members
      have same : Text.sorted (pathNames specs) = Text.sorted operation.url.parameterNames := by
        simpa using same
      rw [← Text.mem_sorted, ← same, Text.mem_sorted, pathNames] at hn
      obtain ⟨parameter, hp, rfl⟩ := List.mem_map.mp hn
      obtain ⟨hp, path⟩ := List.mem_filter.mp hp
      exact ⟨parameter, hp, of_decide_eq_true path, rfl⟩

/-! ## Signatures -/

theorem ofOperation_yields {operation : Operation} :
    Yields registry.Supplies
      (fun signature => signature.Sound registry ∧ signature.operation = operation)
      (ofOperation registry method operation) := by
  refine requestBody_yields.bind fun body hb => matchingParameters_yields.bind fun specs hs =>
    responseBody_yields.bind fun response hr => yields_pure ⟨?_, rfl⟩
  exact ⟨hb, hs.1, hr, hs.2⟩

/-- What is said of the signatures of some operations. -/
def OfOperations (registry : Registry) (operations : List Operation)
    (signatures : List Signature) : Prop :=
  (∀ signature ∈ signatures, signature.Sound registry) ∧
    signatures.map (·.operation) = operations

theorem ofOperations_yields {tag : Identifier} {tagName : String} (seen : List (String × String))
    (operations : List Operation) :
    Yields registry.Supplies (OfOperations registry operations)
      (ofOperations registry tag tagName seen operations) := by
  induction operations generalizing seen with
  | nil => exact yields_pure ⟨List.forall_mem_nil _, rfl⟩
  | cons operation rest ih =>
    refine (yields_any _).bind fun name _ => ?_
    split
    · exact yields_fail _
    · refine ofOperation_yields.bind fun signature hs => (ih _).bind fun later hl => ?_
      obtain ⟨sound, rfl⟩ := hs
      obtain ⟨allSound, rfl⟩ := hl
      refine yields_pure (And.intro (fun s hm => ?_) rfl)
      rcases List.mem_cons.mp hm with rfl | hm
      · exact sound
      · exact allSound s hm

/-- **Signatures are fit for both classes.**  The signatures of a tag belong to its operations in
order, are sound, and import only what the registered components export. -/
theorem ofGroup_yields {group : TagGroup} :
    Yields registry.Supplies (OfOperations registry group.operations)
      (ofGroup registry group) :=
  (yields_any _).bind fun _ _ => ofOperations_yields [] group.operations

end Signature
end TypedApi
