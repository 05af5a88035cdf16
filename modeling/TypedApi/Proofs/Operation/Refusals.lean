import TypedApi.Proofs.Operation.Grouping
import TypedApi.Proofs.Operation.Signature
import TypedApi.Proofs.Schema.Expressions
import TypedApi.Proofs.Schema.Refusals

/-! # Operations are refused properly

The operations of a document whose keys are texts are read or refused, if no parameter has a
collection for its name or its location: these are compared before they are looked at
(`Operation.grouped_refuses`).  Every schema in an operation that was read has texts as keys again
(`Operation.Keyed`), so that its signature is found or refused (`Signature.ofGroup_refuses`).
-/
namespace TypedApi

/-! ## Parameter objects -/

/-- Whether a value is a scalar. -/
def Value.isScalar : Value → Bool
  | .scalar _ => true
  | _ => false

/-- Whether the name and the location of a parameter object are scalars. -/
def Members.isLabelled (parameter : Members) : Bool :=
  (parameter.getD "name").isScalar && (parameter.getD "in").isScalar

/-- The objects that a path item or an operation lists as its parameters. -/
def Members.listedParameters (members : Members) : List Members :=
  match members.getD "parameters" with
  | .list items => items.filterMap fun item =>
      match item with
      | .map parameter => some parameter
      | _ => none
  | _ => []

/-- The parameter objects of a method member: those of its path item and its own. -/
def MethodMember.parameterObjects (member : MethodMember) : List Members :=
  member.item.listedParameters ++
    match member.value with
    | .map members => Members.listedParameters members
    | _ => []

/-- The parameters that were read are listed. -/
theorem mem_listedParameters {members : Members} {parameters : List Members}
    (h : ListsParameters (members.getD "parameters") parameters) {parameter : Members}
    (hp : parameter ∈ parameters) : parameter ∈ members.listedParameters := by
  rcases h with ⟨-, rfl⟩ | listed
  · cases hp
  · rw [Members.listedParameters, listed]
    exact List.mem_filterMap.mpr ⟨.map parameter, List.mem_map_of_mem hp, rfl⟩

namespace PathTemplate

theorem partsOf_refuses (template : String) (pieces : List Piece) :
    Refuses (partsOf template pieces) := by
  induction pieces with
  | nil => exact refuses_ok []
  | cons piece rest ih =>
    cases piece with
    | text cs =>
      rw [partsOf]
      split
      · exact refuses_error rfl
      · exact ih.bind fun _ _ => refuses_ok _
    | group cs =>
      rw [partsOf]
      split
      · exact ih.bind fun _ _ => refuses_ok _
      · exact refuses_error rfl

theorem parse_refuses (template : String) : Refuses (parse template) := by
  refine (partsOf_refuses template _).bind fun parts _ => ?_
  split
  · exact refuses_ok _
  · exact refuses_ok _

end PathTemplate

namespace Operation

theorem expectOnly_refuses (owner : String) (members : Members) (allowed : List String) :
    Refuses (expectOnly owner members allowed) := by
  unfold expectOnly
  simp only
  split
  · exact refuses_ok ()
  · exact refuses_error rfl

/-! ## Tags -/

theorem readTag_refuses (tag : Value) : Refuses (readTag tag) := by
  unfold readTag
  split
  · split
    · split
      · exact refuses_error rfl
      · exact (expectOnly_refuses _ _ _).bind fun _ _ => refuses_ok _
    · exact refuses_error rfl
  · exact refuses_error rfl

theorem readTags_refuses (seen : List String) (tags : List Value) :
    Refuses (readTags seen tags) := by
  induction tags generalizing seen with
  | nil => exact refuses_ok []
  | cons tag rest ih =>
    refine (readTag_refuses tag).bind fun declaration _ => ?_
    split
    · exact refuses_error rfl
    · exact (ih _).bind fun _ _ => refuses_ok _

theorem onlyTag_refuses (label : String) (members : Members) : Refuses (onlyTag label members) := by
  unfold onlyTag
  simp only
  split
  · split
    · exact refuses_ok _
    · exact refuses_error rfl
  · exact refuses_error rfl

/-! ## Parameters -/

theorem readParameter_refuses (owner : String) (value : Value) :
    Refuses (readParameter owner value) := by
  unfold readParameter
  split
  · split
    · exact refuses_error rfl
    · exact refuses_ok _
  · exact refuses_error rfl

theorem readParameters_refuses (owner : String) (value : Value) :
    Refuses (readParameters owner value) := by
  unfold readParameters
  split
  · exact refuses_ok []
  · exact refuses_mapM fun item _ => readParameter_refuses owner item
  · exact refuses_error rfl

theorem parameterKey_refuses {parameter : Members} (h : parameter.isLabelled = true) :
    Refuses (parameterKey parameter) := by
  rw [Members.isLabelled, Bool.and_eq_true] at h
  unfold parameterKey
  split
  · exact refuses_ok _
  · rename_i unlabelled
    exfalso
    cases name : parameter.getD "name" with
    | scalar s =>
      cases location : parameter.getD "in" with
      | scalar t => exact unlabelled s t name location
      | _ => simp [location, Value.isScalar] at h
    | _ => simp [name, Value.isScalar] at h

theorem mergeParameters_refuses {shared own : List Members}
    (hs : ∀ parameter ∈ shared, parameter.isLabelled = true)
    (ho : ∀ parameter ∈ own, parameter.isLabelled = true) :
    Refuses (mergeParameters shared own) := by
  refine (refuses_mapM fun parameter hp => parameterKey_refuses (ho parameter hp)).bind
    fun _ _ => ?_
  exact (refuses_mapM fun parameter hp => parameterKey_refuses (hs parameter hp)).bind
    fun _ _ => refuses_ok _

/-! ## Reading -/

section Reading
variable {declared : List String} {path : String} {url : PathTemplate} {shared : List Members}

/-- All parameter objects of a method member have scalars as names and locations. -/
def Labelled (member : MethodMember) : Prop :=
  ∀ parameter ∈ member.parameterObjects, parameter.isLabelled = true

instance (member : MethodMember) : Decidable (Labelled member) :=
  inferInstanceAs (Decidable (∀ parameter ∈ member.parameterObjects, parameter.isLabelled = true))

theorem read_refuses {method : Method} {item : Members} {value : Value}
    (listed : ListsParameters (item.getD "parameters") shared)
    (labelled : Labelled ⟨.text path, item, method.key, value⟩) :
    Refuses (read declared path url shared method value) := by
  cases value with
  | map members =>
    refine (expectOnly_refuses _ _ _).bind fun _ _ => ?_
    refine (onlyTag_refuses _ _).bind fun tag _ => ?_
    split
    · exact refuses_error rfl
    · refine (readParameters_refuses _ _).bind fun own ho => ?_
      have ownListed := listsParameters_of_readParameters ho
      have merged : Refuses (mergeParameters shared own) := mergeParameters_refuses
        (fun p hp => labelled p (List.mem_append_left _ (mem_listedParameters listed hp)))
        fun p hp => labelled p (List.mem_append_right _ (mem_listedParameters ownListed hp))
      exact merged.bind fun _ _ => refuses_ok _
  | _ => exact refuses_error rfl

theorem readMembers_refuses {item members : Members}
    (listed : ListsParameters (item.getD "parameters") shared)
    (labelled : ∀ member ∈ members.filterMap (MethodMember.of? (.text path) item),
      Labelled member) : Refuses (readMembers declared path url shared members) := by
  fun_induction readMembers declared path url shared members with
  | case1 => exact refuses_ok []
  | case2 key value rest no ih =>
    rw [List.filterMap_cons_none (MethodMember.of?_eq_none no item value)] at labelled
    exact ih labelled
  | case3 key value rest method yes ih =>
    rw [List.filterMap_cons_some (MethodMember.of?_eq_some yes item value)] at labelled
    obtain ⟨own, later⟩ := List.forall_mem_cons.mp labelled
    refine (read_refuses listed own).bind fun _ _ => ?_
    exact (ih later).bind fun _ _ => refuses_ok _

theorem readPath_refuses {key : Scalar} {item : Value} (named : ∃ name, key = .text name)
    (labelled : ∀ member ∈ MethodMember.ofItem key item, Labelled member) :
    Refuses (readPath declared key item) := by
  obtain ⟨name, rfl⟩ := named
  cases item with
  | map members =>
    refine (PathTemplate.parse_refuses name).bind fun url _ => ?_
    refine (readParameters_refuses name _).bind fun shared hs => ?_
    exact readMembers_refuses (listsParameters_of_readParameters hs) labelled
  | _ => exact refuses_error rfl

theorem readPaths_refuses {paths : Members} (keyed : (Value.map paths).hasTextKeys = true)
    (labelled : ∀ member ∈ MethodMember.ofPaths paths, Labelled member) :
    Refuses (readPaths declared paths) := by
  induction paths with
  | nil => exact refuses_ok []
  | cons entry rest ih =>
    rw [MethodMember.ofPaths, List.flatMap_cons] at labelled
    obtain ⟨own, later⟩ := List.forall_mem_append.mp labelled
    have named := (Value.textKey_of_mem keyed List.mem_cons_self).1
    refine (readPath_refuses named own).bind fun _ _ => ?_
    exact (ih (Value.hasTextKeys_of_cons keyed) later).bind fun _ _ => refuses_ok _

/-- **The operations of a document are read or refused.** -/
theorem grouped_refuses {paths : Members} {tags : List Value}
    (keyed : (Value.map paths).hasTextKeys = true)
    (labelled : ∀ member ∈ MethodMember.ofPaths paths, Labelled member) :
    Refuses (grouped paths tags) := by
  refine (readTags_refuses [] tags).bind fun declarations _ => ?_
  exact (readPaths_refuses keyed labelled).bind fun _ _ => refuses_ok _

end Reading

/-! ## What was read -/

/-- All keys in an operation and in its parameters are texts. -/
structure Keyed (operation : Operation) : Prop where
  members : (Value.map operation.members).hasTextKeys = true
  parameters : ∀ parameter ∈ operation.parameters, (Value.map parameter).hasTextKeys = true

theorem keyed_of_listsParameters {members : Members} {parameters : List Members}
    (keyed : (Value.map members).hasTextKeys = true)
    (h : ListsParameters (members.getD "parameters") parameters) :
    ∀ parameter ∈ parameters, (Value.map parameter).hasTextKeys = true := by
  have listed := Members.hasTextKeys_getD keyed "parameters"
  rcases h with ⟨-, rfl⟩ | same
  · exact List.forall_mem_nil _
  · intro parameter hp
    rw [same] at listed
    exact Value.hasTextKeys_of_mem listed (List.mem_map_of_mem hp)

theorem keyed_of_mem_ofPaths {paths : Members} (keyed : (Value.map paths).hasTextKeys = true)
    {member : MethodMember} (h : member ∈ MethodMember.ofPaths paths) :
    (Value.map member.item).hasTextKeys = true ∧ member.value.hasTextKeys = true := by
  obtain ⟨⟨path, item⟩, he, h⟩ := List.mem_flatMap.mp h
  have below := (Value.textKey_of_mem keyed he).2
  cases item with
  | map item =>
    obtain ⟨⟨key, value⟩, hm, read⟩ := List.mem_filterMap.mp h
    have own := (Value.textKey_of_mem below hm).2
    unfold MethodMember.of? at read
    split at read
    · split at read
      · rename_i same _
        cases same
        cases read
        exact ⟨below, own⟩
      · cases read
    · cases read
  | _ => cases h

theorem keyed_of_readFrom {member : MethodMember} {operation : Operation}
    (h : ReadFrom member operation) (item : (Value.map member.item).hasTextKeys = true)
    (value : member.value.hasTextKeys = true) : operation.Keyed := by
  rw [h.object] at value
  refine ⟨value, fun parameter hp => ?_⟩
  obtain ⟨shared, own, hs, ho, merged⟩ := h.parameters
  rw [merged] at hp
  rcases List.mem_append.mp hp with hp | hp
  · exact keyed_of_listsParameters item hs parameter (List.mem_of_mem_filter hp)
  · exact keyed_of_listsParameters value ho parameter hp

/-- The operations of the groups have texts as keys like the document they were read from. -/
theorem keyed_of_grouped {paths : Members} {tags : List Value} {groups : List TagGroup}
    (keyed : (Value.map paths).hasTextKeys = true) (h : grouped paths tags = .ok groups) :
    ∀ group ∈ groups, ∀ operation ∈ group.operations, operation.Keyed := by
  obtain ⟨declarations, -, h⟩ := Except.bind_eq_ok.mp h
  obtain ⟨operations, read, h⟩ := Except.bind_eq_ok.mp h
  cases h
  intro group hg operation ho
  obtain ⟨declaration, -, rfl⟩ := List.mem_map.mp hg
  have among : operation ∈ operations := List.mem_of_mem_filter ho
  obtain ⟨member, hm, from_, -⟩ := exists_of_mem_right (readPaths_forall₂ read) among
  obtain ⟨item, value⟩ := keyed_of_mem_ofPaths keyed hm
  exact keyed_of_readFrom from_ item value

end Operation

/-! ## Reading from text -/

/-- A value that has no written form in a URL is refused. -/
theorem Slot.fromParam_refuses (slot : Slot) (value context : String) :
    Refuses (slot.fromParam value context).result := by
  rw [Slot.fromParam_eq]
  refine Noted.refuses_bind ?_ fun expression _ => ?_
  · rcases slot.codec.fromParam_cases value context with ⟨-, _, read⟩ | ⟨fault, -, failed⟩
    · exact .of_ok read
    · rw [failed]
      exact refuses_error rfl
  · obtain ⟨text, guarded⟩ := (slot.guardedIfOptional_spec value expression).1
    exact .of_ok guarded

namespace Signature
open Noted

variable {registry : Registry} {method : String} {operation : Operation}

theorem methodNameOf_refuses (tag : Identifier) (operation : Operation) :
    Refuses (methodNameOf tag operation) := by
  unfold methodNameOf
  split
  · exact refuses_error rfl
  · simp only
    repeat' split
    all_goals first
      | exact refuses_ok _
      | exact refuses_error rfl

/-! ## Bodies -/

theorem jsonSchema_refuses (owner : String) (content : Value) :
    Refuses (jsonSchema owner content) := by
  unfold jsonSchema
  extract_lets schema
  split
  · exact refuses_ok _
  · exact refuses_error rfl

theorem keyed_of_jsonSchema {owner : String} {content schema : Value}
    (keyed : content.hasTextKeys = true) (h : jsonSchema owner content = .ok schema) :
    schema.hasTextKeys = true := by
  unfold jsonSchema at h
  extract_lets found at h
  split at h
  · rw [← Except.ok.inj h]
    unfold found
    split
    · rename_i contents
      have inside := Members.hasTextKeys_getD keyed "application/json"
      split
      · rename_i media found
        rw [found] at inside
        exact Members.hasTextKeys_getD inside "schema"
      · rfl
    · rfl
  · cases h

theorem bodySpec_refuses {place : Place} {owner : String} {content description : Value}
    (keyed : content.hasTextKeys = true) :
    Refuses (bodySpec registry place owner content description).result := by
  refine refuses_bind (jsonSchema_refuses owner content) fun schema hs => ?_
  have inside := keyed_of_jsonSchema keyed hs
  exact refuses_bind (resolveSlot_refuses inside _) fun _ _ => refuses_pure _

theorem some_bodySpec_refuses {place : Place} {owner : String} {content description : Value}
    (keyed : content.hasTextKeys = true) :
    Refuses (do return some (← bodySpec registry place owner content description)
      : Emission (Option BodySpec)).result :=
  refuses_bind (bodySpec_refuses keyed) fun _ _ => refuses_pure _

theorem requestBody_refuses (keyed : operation.Keyed) :
    Refuses (requestBody registry method operation).result := by
  have inside := Members.hasTextKeys_getD keyed.members "requestBody"
  unfold requestBody
  split
  · exact refuses_pure _
  · rename_i members found
    rw [found] at inside
    split
    · exact refuses_fail rfl
    · split
      · exact some_bodySpec_refuses (Members.hasTextKeys_getD inside "content")
      · exact refuses_fail rfl
  · exact refuses_fail rfl

/-- All keys in the responses that some statuses have are texts. -/
def AllKeyed (statuses : List (String × Value)) : Prop :=
  ∀ response ∈ statuses, response.2.hasTextKeys = true

theorem allKeyed_byStatus {responses : Members}
    (keyed : (Value.map responses).hasTextKeys = true) : AllKeyed (byStatus responses) := by
  intro response hr
  obtain ⟨status, hm⟩ := mem_of_mem_byStatus hr
  exact (Value.textKey_of_mem keyed hm).2

theorem AllKeyed.lookup {statuses : List (String × Value)} (keyed : AllKeyed statuses)
    (status : String) : ((statuses.lookup status).getD .null).hasTextKeys = true := by
  cases found : statuses.lookup status with
  | none => rfl
  | some response =>
    obtain ⟨before, after, split, -⟩ := List.lookup_eq_some_iff.mp found
    exact keyed (status, response) (split ▸ by simp)

theorem responseBody_refuses (keyed : operation.Keyed) :
    Refuses (responseBody registry method operation).result := by
  have inside := Members.hasTextKeys_getD keyed.members "responses"
  unfold responseBody
  split
  · rename_i responses found
    rw [found] at inside
    have response := (allKeyed_byStatus inside).lookup "200"
    simp only
    -- each split is one check; only the innermost branch resolves a schema
    split
    · exact refuses_fail rfl
    · split
      · exact refuses_fail rfl
      · split
        · rename_i members found
          rw [found] at response
          split
          · exact refuses_fail rfl
          · split
            · exact refuses_pure _
            · exact some_bodySpec_refuses (Members.hasTextKeys_getD response "content")
        · exact refuses_fail rfl
  · exact refuses_fail rfl

/-! ## Parameters -/

theorem parameterName_refuses (method : String) (parameter : Members) :
    Refuses (parameterName method parameter) := by
  unfold parameterName
  simp only
  repeat' split
  all_goals first
    | exact refuses_ok _
    | exact refuses_error rfl

theorem parameterLocation_refuses (method name : String) (parameter : Members) :
    Refuses (parameterLocation method name parameter) := by
  unfold parameterLocation
  repeat' split
  all_goals first
    | exact refuses_ok _
    | exact refuses_error rfl

section Schema
variable {place : Place} {schema : Value} (keyed : schema.hasTextKeys = true)
include keyed

theorem refuseArray_refuses : Refuses (refuseArray place schema) := by
  refine (classify_refuses keyed).bind fun shape _ => ?_
  split
  · exact refuses_error rfl
  · exact refuses_ok ()

theorem readable_refuses {required : Bool} {name : String} :
    Refuses (readable registry place schema required name).result := by
  refine refuses_bind (resolveSlot_refuses keyed required) fun slot _ => ?_
  exact refuses_bind (slot.fromParam_refuses name emptyContext) fun _ _ => refuses_pure _

theorem probed_refuses {required : Bool} {name : String} {location : ParameterLocation}
    {description : Option String} :
    Refuses (do
      silent (readable registry place schema required name)
      let slot ← resolveSlot registry place schema required
      return ⟨name, location, slot, description, place⟩ : Emission ParameterSpec).result := by
  refine refuses_bind (readable_refuses keyed) fun _ _ => ?_
  exact refuses_bind (resolveSlot_refuses keyed required) fun _ _ => refuses_pure _

end Schema

theorem parameterSpec_refuses {parameter : Members}
    (keyed : (Value.map parameter).hasTextKeys = true) :
    Refuses (parameterSpec registry method parameter).result := by
  have inside := Members.hasTextKeys_getD keyed "schema"
  unfold parameterSpec
  refine refuses_bind (parameterName_refuses method parameter) fun name _ => ?_
  refine refuses_bind (parameterLocation_refuses method name parameter) fun location _ => ?_
  simp only
  -- the first split is on whether a value has to be given
  split
  all_goals
    split
    · exact refuses_fail rfl
    · split
      · exact refuses_fail rfl
      · split
        · exact refuses_bind (refuseArray_refuses inside) fun _ _ => probed_refuses inside
        · exact probed_refuses inside

theorem parameterSpecs_refuses {parameters : List Members}
    (keyed : ∀ parameter ∈ parameters, (Value.map parameter).hasTextKeys = true) :
    Refuses (parameterSpecs registry method parameters).result := by
  induction parameters with
  | nil => exact refuses_pure _
  | cons parameter rest ih =>
    obtain ⟨own, later⟩ := List.forall_mem_cons.mp keyed
    refine refuses_bind (parameterSpec_refuses own) fun _ _ => ?_
    exact refuses_bind (ih later) fun _ _ => refuses_pure _

theorem matchingParameters_refuses (keyed : operation.Keyed) :
    Refuses (matchingParameters registry method operation).result := by
  refine refuses_bind (parameterSpecs_refuses keyed.parameters) fun specs _ => ?_
  simp only
  split
  · exact refuses_fail rfl
  · split
    · exact refuses_fail rfl
    · exact refuses_pure _

/-! ## Signatures -/

theorem ofOperation_refuses (keyed : operation.Keyed) :
    Refuses (ofOperation registry method operation).result :=
  refuses_bind (requestBody_refuses keyed) fun _ _ =>
    refuses_bind (matchingParameters_refuses keyed) fun _ _ =>
      refuses_bind (responseBody_refuses keyed) fun _ _ => refuses_pure _

theorem ofOperations_refuses {tag : Identifier} {tagName : String} {operations : List Operation}
    (keyed : ∀ operation ∈ operations, operation.Keyed) (seen : List (String × String)) :
    Refuses (ofOperations registry tag tagName seen operations).result := by
  induction operations generalizing seen with
  | nil => exact refuses_pure _
  | cons operation rest ih =>
    obtain ⟨own, later⟩ := List.forall_mem_cons.mp keyed
    refine refuses_bind (methodNameOf_refuses tag operation) fun name _ => ?_
    split
    · exact refuses_fail rfl
    · refine refuses_bind (ofOperation_refuses own) fun _ _ => ?_
      exact refuses_bind (ih later _) fun _ _ => refuses_pure _

/-- **The signatures of a tag are found or refused.** -/
theorem ofGroup_refuses {group : TagGroup}
    (keyed : ∀ operation ∈ group.operations, operation.Keyed) :
    Refuses (ofGroup registry group).result :=
  refuses_bind (Identifier.ofSpaced_refuses group.name) fun _ _ => ofOperations_refuses keyed []

end Signature
end TypedApi
