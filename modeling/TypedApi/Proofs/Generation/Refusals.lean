import TypedApi.Proofs.Generation.ModeAgreement
import TypedApi.Proofs.Operation.Refusals

/-! # Every document is accepted or refused

Generation uses some values of a document without a check of its own: keys as texts, descriptions
as texts, names and locations of parameters as keys.  Where a document has such values there
(`DocumentParts.Usable`), generation gives a tree or a refusal (`generate_refuses`).  The other
values are used where an earlier pass has looked at them: the registry has classified the schemas
that models are written for, a printer is only called where there is one, and every parameter of a
path template was found among those of the operation.
-/
namespace TypedApi

/-! ## Descriptions -/

/-- Whether a value is a text or counts as not given. -/
def Value.isDescription (v : Value) : Bool := !v.isTruthy || v.text?.isSome

/-- Whether the description of a schema is one; a schema that is no mapping has none. -/
def Value.isDescribed : Value → Bool
  | .map members => (Members.getD "description" members).isDescription
  | _ => true

/-- Whether a schema is a reference. -/
def Value.isReference : Value → Bool
  | .map members => Members.has "$ref" members
  | _ => false

/-- The schemas of the properties that a component schema lists. -/
def Value.propertySchemas : Value → List Value
  | .map members =>
    match Members.getD "properties" members with
    | .map properties => properties.map (·.2)
    | _ => []
  | _ => []

/-- The values that generation uses without a check are of the kind expected there: descriptions
are texts, and names and locations of parameters are scalars. -/
structure DocumentParts.Usable (parts : DocumentParts) : Prop where
  components : ∀ member ∈ parts.schemas, member.2.isDescribed = true
  properties : ∀ member ∈ parts.schemas, ∀ property ∈ member.2.propertySchemas,
    property.isReference = false → property.isDescribed = true
  parameters : ∀ member ∈ MethodMember.ofPaths parts.paths, Operation.Labelled member

instance (parts : DocumentParts) : Decidable parts.Usable :=
  decidable_of_iff
    ((∀ member ∈ parts.schemas, member.2.isDescribed = true) ∧
      (∀ member ∈ parts.schemas, ∀ property ∈ member.2.propertySchemas,
        property.isReference = false → property.isDescribed = true) ∧
      ∀ member ∈ MethodMember.ofPaths parts.paths, Operation.Labelled member)
    ⟨fun ⟨components, properties, parameters⟩ => ⟨components, properties, parameters⟩,
      fun usable => ⟨usable.components, usable.properties, usable.parameters⟩⟩

theorem Members.descriptionLines_refuses {members : Members}
    (h : (Value.map members).isDescribed = true) : Refuses members.descriptionLines := by
  unfold Members.descriptionLines
  simp only
  split
  · exact refuses_ok []
  · rename_i given
    split
    · exact refuses_ok _
    · rename_i untold
      simp [Value.isDescribed, Value.isDescription, untold, given] at h

/-! ## Models -/

namespace Model
variable {registry : Registry} {name : String} {required : List String}

theorem propertyComment_refuses {schema : Value}
    (described : schema.isReference = false → schema.isDescribed = true) :
    Refuses (propertyComment schema) := by
  unfold propertyComment
  split
  · rename_i members
    split
    · exact refuses_ok []
    · rename_i inline
      have told := described (eq_false_of_ne_true inline)
      exact (Members.descriptionLines_refuses told).bind fun _ _ => refuses_ok _
  · exact refuses_ok []

/-- Only the schema and the comment of a property can be refused: what its codec reads and writes
is always written. -/
theorem propertyLines_refuses {property : String × Value}
    (keyed : property.2.hasTextKeys = true)
    (described : property.2.isReference = false → property.2.isDescribed = true) :
    Refuses (propertyLines registry name required property).result := by
  unfold propertyLines
  refine Noted.refuses_bind (resolveSlot_refuses keyed _) fun slot _ => ?_
  refine Noted.refuses_bind (propertyComment_refuses described) fun comment _ => ?_
  obtain ⟨printed, hp⟩ := (slot.toJson_spec (Code.memberAccess "value" property.1)).1
  obtain ⟨checked, hc⟩ := (slot.fromJson_spec (Code.memberAccess "object" property.1)
    (Code.contextLiteral [name, property.1] (some "context"))).1
  refine Noted.refuses_bind (.of_ok hp) fun _ _ => ?_
  exact Noted.refuses_bind (.of_ok hc) fun _ _ => Noted.refuses_pure _

theorem allPropertyLines_refuses {properties : List (String × Value)}
    (keyed : ∀ property ∈ properties, property.2.hasTextKeys = true)
    (described : ∀ property ∈ properties,
      property.2.isReference = false → property.2.isDescribed = true) :
    Refuses (allPropertyLines registry name required properties).result := by
  induction properties with
  | nil => exact Noted.refuses_pure _
  | cons property rest ih =>
    obtain ⟨ownKeyed, laterKeyed⟩ := List.forall_mem_cons.mp keyed
    obtain ⟨own, later⟩ := List.forall_mem_cons.mp described
    refine Noted.refuses_bind (propertyLines_refuses ownKeyed own) fun _ _ => ?_
    exact Noted.refuses_bind (ih laterKeyed later) fun _ _ => Noted.refuses_pure _

theorem objectLines_refuses {properties : List (String × Value)}
    {description : Except Failure (List String)} (told : Refuses description)
    (keyed : ∀ property ∈ properties, property.2.hasTextKeys = true)
    (described : ∀ property ∈ properties,
      property.2.isReference = false → property.2.isDescribed = true) :
    Refuses (objectLines registry name properties required description).result := by
  refine Noted.refuses_bind (.of_ok (Noted.note_result _)) fun _ _ => ?_
  refine Noted.refuses_bind (allPropertyLines_refuses keyed described) fun lines _ => ?_
  exact Noted.refuses_bind told fun _ _ => Noted.refuses_pure _

/-- The properties of a component are among those whose descriptions are known. -/
theorem mem_propertySchemas {members : Members} {properties : List (String × Value)}
    (h : Schema.properties? (members.getD "properties") = some properties) :
    ∀ property ∈ properties, property.2 ∈ (Value.map members).propertySchemas := by
  intro property hp
  obtain ⟨listed, found, hm⟩ := Schema.mem_of_properties? h hp
  simp only [Value.propertySchemas, found]
  exact List.mem_map_of_mem hm

/-- **Models are written or refused.**  A schema that the registry has a kind for is an enumeration
or an object when it is classified again, at the same place. -/
theorem lines_refuses {name : Identifier} {member : Scalar × Value} {kind : ComponentKind}
    (declares : Registry.Declares member name kind) (keyed : member.2.hasTextKeys = true)
    (described : member.2.isDescribed = true)
    (properties : ∀ property ∈ member.2.propertySchemas,
      property.isReference = false → property.isDescribed = true) :
    Refuses (Model.lines registry name member.2).result := by
  obtain ⟨shape, classified, kinded⟩ := declares.kind
  unfold Model.lines
  refine Noted.refuses_bind (.of_ok classified) fun found same => ?_
  cases classified.symm.trans same
  have told : Refuses (match member.2 with
      | .map members => Members.descriptionLines members
      | _ => .ok [] : Except Failure (List String)) := by
    split
    · rename_i members same
      rw [same] at described
      exact Members.descriptionLines_refuses described
    · exact refuses_ok []
  cases shape with
  | enumeration values =>
    exact Noted.refuses_bind told fun _ _ => .of_ok rfl
  | object listed required =>
    obtain ⟨members, same, listed_⟩ := properties_of_classify classified
    rw [same] at keyed properties
    have below := Members.hasTextKeys_getD keyed "properties"
    exact objectLines_refuses told (Schema.keyed_of_properties? below listed_)
      fun property hp => properties property.2 (mem_propertySchemas listed_ property hp)
  | _ => cases kinded

end Model

theorem Emission.toFile_refuses {folder : Option Code.Folder} {path : String}
    {x : Emission (List String)} (h : Refuses x.result) : Refuses (x.toFile folder path) :=
  h.bind fun _ _ => refuses_ok _

namespace Generation
open Noted

theorem modelFiles_refuses {registry : Registry} {schemas : Members}
    (h : ∀ member ∈ schemas, (∃ name kind, Registry.Declares member name kind) ∧
      member.2.hasTextKeys = true ∧ member.2.isDescribed = true ∧
      ∀ property ∈ member.2.propertySchemas,
        property.isReference = false → property.isDescribed = true) :
    Refuses (modelFiles registry schemas) := by
  induction schemas with
  | nil => exact refuses_ok []
  | cons member rest ih =>
    obtain ⟨⟨⟨name, kind, declares⟩, keyed, described, properties⟩, later⟩ :=
      List.forall_mem_cons.mp h
    obtain ⟨raw, key, spelled⟩ := declares.named
    obtain ⟨_, schema⟩ := member
    cases key
    have file : Refuses (Model.file registry raw schema) := by
      refine Refuses.bind (.of_ok spelled) fun name' same => ?_
      cases spelled.symm.trans same
      exact Emission.toFile_refuses (Model.lines_refuses declares keyed described properties)
    exact file.bind fun _ _ => (ih later).bind fun _ _ => refuses_ok _

/-! ## Tags -/

theorem take_refuses (taken : List (String × String)) (tagName : String) (names : List String) :
    Refuses (take taken tagName names) := by
  induction names generalizing taken with
  | nil => exact refuses_ok taken
  | cons name rest ih =>
    rw [take]
    split
    · exact refuses_error rfl
    · exact ih _

/-- The file of a tag is written if its signatures are found. -/
theorem tagFile_refuses (mode : Mode) {registry : Registry} {group : TagGroup}
    (keyed : ∀ operation ∈ group.operations, operation.Keyed) :
    Refuses (tagFile mode registry group) := by
  have found : Refuses (Signature.ofGroup registry group).result :=
    Signature.ofGroup_refuses keyed
  cases mode with
  | api =>
    refine (Identifier.ofSpaced_refuses group.name).bind fun tag _ => ?_
    refine Emission.toFile_refuses ?_
    cases h : (Signature.ofGroup registry group).result with
    | error failure =>
      rw [controller_lines_of_error h]
      exact refuses_error (found failure h)
    | ok signatures => exact (Controller.lines_delivers tag h).refuses
  | client =>
    refine (Identifier.ofSpaced_refuses group.name).bind fun tag _ => ?_
    refine Emission.toFile_refuses ?_
    cases h : (Signature.ofGroup registry group).result with
    | error failure =>
      rw [client_lines_of_error h]
      exact refuses_error (found failure h)
    | ok signatures => exact (Client.lines_delivers tag h).refuses

theorem tagOutput_refuses (mode : Mode) {registry : Registry} {groups : List TagGroup}
    (keyed : ∀ group ∈ groups, ∀ operation ∈ group.operations, operation.Keyed)
    (taken : List (String × String)) : Refuses (tagOutput mode registry taken groups) := by
  induction groups generalizing taken with
  | nil => exact refuses_ok _
  | cons group rest ih =>
    obtain ⟨own, later⟩ := List.forall_mem_cons.mp keyed
    rw [tagOutput]
    split
    · exact (ih later taken).bind fun _ _ => refuses_ok _
    · refine (Identifier.ofSpaced_refuses group.name).bind fun tag _ => ?_
      refine (take_refuses taken group.name _).bind fun taken _ => ?_
      refine (tagFile_refuses mode own).bind fun _ _ => ?_
      exact (ih later taken).bind fun _ _ => refuses_ok _

/-! ## The whole output -/

theorem ofMembers_refuses (document : Members) : Refuses (DocumentParts.ofMembers document) := by
  unfold DocumentParts.ofMembers
  repeat' split
  all_goals first
    | exact refuses_ok _
    | exact refuses_error rfl

theorem keyed_of_ofMembers {document : Members} {parts : DocumentParts}
    (keyed : (Value.map document).hasTextKeys = true)
    (h : DocumentParts.ofMembers document = .ok parts) :
    (Value.map parts.schemas).hasTextKeys = true ∧ (Value.map parts.paths).hasTextKeys = true := by
  have components := Members.hasTextKeys_getD keyed "components"
  have paths := Members.hasTextKeys_getD keyed "paths"
  unfold DocumentParts.ofMembers at h
  split at h
  · rename_i found
    rw [found] at components
    have schemas := Members.hasTextKeys_getD components "schemas"
    split at h
    · rename_i found
      rw [found] at schemas
      split at h
      · rename_i found
        rw [found] at paths
        split at h
        all_goals cases h
        all_goals exact ⟨schemas, paths⟩
      · cases h
    · cases h
  · cases h

theorem ofParts_refuses (mode : Mode) {parts : DocumentParts}
    (schemas : (Value.map parts.schemas).hasTextKeys = true)
    (paths : (Value.map parts.paths).hasTextKeys = true) (usable : parts.Usable) :
    Refuses (ofParts mode parts).result := by
  refine refuses_bind (Registry.ofSchemas_refuses schemas) fun registry hr => ?_
  refine refuses_bind (Operation.grouped_refuses paths usable.parameters) fun groups hg => ?_
  have models : Refuses (modelFiles registry parts.schemas) :=
    modelFiles_refuses fun member hm =>
      ⟨Registry.declares_of_mem hr hm, (Value.textKey_of_mem schemas hm).2,
        usable.components member hm, usable.properties member hm⟩
  refine refuses_bind models fun _ _ => ?_
  refine refuses_bind (.of_ok (note_result _)) fun _ _ => ?_
  have keyed : ∀ group ∈ sortedGroups groups, ∀ operation ∈ group.operations, operation.Keyed :=
    fun group hm => Operation.keyed_of_grouped paths hg group ((Text.perm_sortedBy _ groups).mem_iff.mp hm)
  refine refuses_bind (tagOutput_refuses mode keyed []) fun tags _ => ?_
  refine refuses_bind (.of_ok (note_result _)) fun _ _ => ?_
  obtain ⟨index, hi⟩ := index_of_tags mode tags.tags
  exact refuses_bind (.of_ok hi) fun _ _ => refuses_pure _

/-- **Every document is accepted or refused.**  Let all keys of a document be texts, and the
descriptions of its components and of their own properties, and the names and locations of its
parameters, be of a usable kind.  Then generation gives a tree or stops with a failure that is
reported in its own words: no value is used that was not checked. -/
theorem generate_refuses {mode : Mode} {document : Members}
    (keyed : (Value.map document).hasTextKeys = true)
    (usable : ∀ parts, DocumentParts.ofMembers document = .ok parts → parts.Usable) :
    (∃ tree, (generate (.text mode.name) (.map document)).result = .ok tree) ∨
      ∃ failure, (generate (.text mode.name) (.map document)).result = .error failure ∧
        failure.isRefusal = true := by
  have refuses : Refuses (generate (.text mode.name) (.map document)).result := by
    refine refuses_bind (.of_ok (mode?_name mode)) fun found same => ?_
    cases (mode?_name mode).symm.trans same
    refine refuses_bind (ofMembers_refuses document) fun parts hp => ?_
    obtain ⟨schemas, paths⟩ := keyed_of_ofMembers keyed hp
    exact ofParts_refuses mode schemas paths (usable parts hp)
  cases h : (generate (.text mode.name) (.map document)).result with
  | ok tree => exact .inl ⟨tree, rfl⟩
  | error failure => exact .inr ⟨failure, rfl, refuses failure h⟩

/-- The component schemas of a document.  The description beside a reference is no text, which does
not matter. -/
def dogSchemas : Members :=
  let kennel := Value.map [(.text "$ref", .text "#/components/schemas/Kennel"),
    (.text "description", .list [.int 1])]
  [(.text "Dog", .map [(.text "type", .text "object"), (.text "description", .text "A dog."),
      (.text "properties", .map [(.text "kennel", kennel)])]),
    (.text "Kennel", .map [(.text "type", .text "string"),
      (.text "enum", .list [.text "north", .text "south"])])]

/-- The paths of a document, with the location of the parameter given. -/
def dogPaths (location : Value) : Members :=
  let parameter := Value.map [(.text "name", .text "kennel"), (.text "in", location),
    (.text "required", .bool true),
    (.text "schema", .map [(.text "$ref", .text "#/components/schemas/Kennel")])]
  let content := Value.map [(.text "application/json",
    .map [(.text "schema", .map [(.text "$ref", .text "#/components/schemas/Dog")])])]
  [(.text "/kennels/{kennel}", .map [(.text "get", .map [(.text "operationId", .text "dogs.find"),
    (.text "tags", .list [.text "dogs"]), (.text "parameters", .list [parameter]),
    (.text "responses", .map [(.text "200", .map [(.text "content", content)])])])])]

/-- A document with these components and paths. -/
def dogDocument (location : Value) : Members :=
  [(.text "components", .map [(.text "schemas", .map dogSchemas)]),
    (.text "paths", .map (dogPaths location)),
    (.text "tags", .list [.map [(.text "name", .text "dogs")]])]

/-- With a parameter of the path the document is accepted, and with one of a header it is refused. -/
theorem generate_refuses_dogs :
    (∃ tree, (generate (.text Mode.client.name) (.map (dogDocument (.text "path")))).result =
      .ok tree) ∧
    ∃ failure, (generate (.text Mode.client.name) (.map (dogDocument (.text "header")))).result =
      .error failure ∧ failure.isRefusal = true := by
  have usable (location : Value)
      (given : (⟨dogSchemas, dogPaths location,
        [.map [(.text "name", .text "dogs")]]⟩ : DocumentParts).Usable) :
      ∀ parts, DocumentParts.ofMembers (dogDocument location) = .ok parts → parts.Usable := by
    intro parts h
    cases h
    exact given
  constructor
  · rcases @generate_refuses .client (dogDocument (.text "path"))
      (by decide +kernel) (usable _ (by decide +kernel)) with accepted | ⟨failure, refused, -⟩
    · exact accepted
    · have accepted : (generate (.text Mode.client.name)
          (.map (dogDocument (.text "path")))).result.isOk = true := by decide +kernel
      rw [refused] at accepted
      cases accepted
  · rcases @generate_refuses .client (dogDocument (.text "header"))
      (by decide +kernel) (usable _ (by decide +kernel)) with ⟨tree, accepted⟩ | refused
    · have refused : (generate (.text Mode.client.name)
          (.map (dogDocument (.text "header")))).result.isOk = false := by decide +kernel
      rw [accepted] at refused
      cases refused
    · exact refused

end Generation
end TypedApi
