import TypedApi.Proofs.Generation.Accepted
import TypedApi.Proofs.Generation.Refusals
import TypedApi.Proofs.Schema.Mentions

/-! # Generated files depend on little

The file of a component is made from its schema, and the file of a tag from the operations of the
tag.  All that either learns of the rest of the document is the kind of each component that it
mentions (`Model.lines_congr`, `Signature.ofGroup_congr`), so that where these kinds are the same,
two documents have the file in common (`Generation.generate_local`).
-/
namespace TypedApi

/-! ## Models -/

namespace Model
variable {registry other : Registry}

theorem propertyLines_congr {property : String × Value}
    (agree : registry.AgreesOn other (Schema.Mentions property.2)) (name : String)
    (required : List String) :
    propertyLines registry name required property =
      propertyLines other name required property := by
  simp only [propertyLines, resolveSlot_congr agree]

theorem allPropertyLines_congr {properties : List (String × Value)}
    (agree : ∀ property ∈ properties, registry.AgreesOn other (Schema.Mentions property.2))
    (name : String) (required : List String) :
    allPropertyLines registry name required properties =
      allPropertyLines other name required properties := by
  induction properties with
  | nil => rfl
  | cons property rest ih =>
    obtain ⟨own, later⟩ := List.forall_mem_cons.mp agree
    rw [allPropertyLines, allPropertyLines, propertyLines_congr own, ih later]

/-- **The model of a component** depends on its schema and on the kinds of the components that the
schema mentions. -/
theorem lines_congr {schema : Value} (agree : registry.AgreesOn other (Schema.Mentions schema))
    (name : Identifier) : lines registry name schema = lines other name schema := by
  refine Noted.bind_congr fun shape classified => ?_
  cases shape with
  | object properties required =>
    have inside : ∀ property ∈ properties,
        registry.AgreesOn other (Schema.Mentions property.2) :=
      fun property hp => agree.mono fun _ => Schema.mentions_of_property classified hp
    simp only [objectLines, allPropertyLines_congr inside]
  | _ => rfl

end Model

/-! ## Signatures -/

/-- A schema of a parameter, of the body or of a response of an operation. -/
inductive Operation.Involves (operation : Operation) : Value → Prop
  | parameter {parameter : Members} :
      parameter ∈ operation.parameters → Involves operation (parameter.getD "schema")
  | body {members : Members} {owner : String} {schema : Value} :
      operation.members.getD "requestBody" = .map members →
        Signature.jsonSchema owner (members.getD "content") = .ok schema →
          Involves operation schema
  | response {responses members : Members} {status : Scalar} {owner : String} {schema : Value} :
      operation.members.getD "responses" = .map responses → (status, .map members) ∈ responses →
        Signature.jsonSchema owner (members.getD "content") = .ok schema →
          Involves operation schema

/-- A schema of the operation mentions the component. -/
def Operation.Mentions (operation : Operation) (name : Identifier) : Prop :=
  ∃ schema, operation.Involves schema ∧ Schema.Mentions schema name

/-- An operation of the tag mentions the component. -/
def TagGroup.Mentions (group : TagGroup) (name : Identifier) : Prop :=
  ∃ operation ∈ group.operations, operation.Mentions name

namespace Signature
variable {registry other : Registry} {method : String} {operation : Operation}

theorem agreesOn_of_involves (agree : registry.AgreesOn other operation.Mentions) {schema : Value}
    (h : operation.Involves schema) : registry.AgreesOn other (Schema.Mentions schema) :=
  agree.mono fun _ mentioned => ⟨schema, h, mentioned⟩

theorem bodySpec_congr {owner : String} {content : Value}
    (agree : ∀ schema, jsonSchema owner content = .ok schema →
      registry.AgreesOn other (Schema.Mentions schema)) (place : Place) (description : Value) :
    bodySpec registry place owner content description =
      bodySpec other place owner content description := by
  refine Noted.bind_congr fun schema found => ?_
  rw [resolveSlot_congr (agree schema found)]

theorem requestBody_congr (agree : registry.AgreesOn other operation.Mentions) :
    requestBody registry method operation = requestBody other method operation := by
  unfold requestBody
  split
  · rfl
  · next members found =>
    have body := fun owner => bodySpec_congr fun schema (read : jsonSchema owner _ = .ok schema) =>
      agreesOn_of_involves agree (.body found read)
    simp only [body]
  · rfl

/-- The response with a status is one of the operation. -/
theorem mem_of_lookup_byStatus {responses members : Members} {status : String}
    (h : ((byStatus responses).lookup status).getD .null = .map members) :
    ∃ key, (key, .map members) ∈ responses := by
  cases found : (byStatus responses).lookup status with
  | none =>
    rw [found] at h
    cases h
  | some response =>
    rw [found] at h
    cases h
    obtain ⟨before, after, split, -⟩ := List.lookup_eq_some_iff.mp found
    have listed : (status, .map members) ∈ byStatus responses := split ▸ by simp
    exact mem_of_mem_byStatus listed

theorem responseBody_congr (agree : registry.AgreesOn other operation.Mentions) :
    responseBody registry method operation = responseBody other method operation := by
  unfold responseBody
  -- each split is one check; only the innermost branch resolves a schema
  split
  · next responses found =>
    simp only
    split
    · rfl
    · split
      · rfl
      · split
        · next members same =>
          obtain ⟨status, hm⟩ := mem_of_lookup_byStatus same
          have body := fun owner =>
            bodySpec_congr fun schema (read : jsonSchema owner _ = .ok schema) =>
              agreesOn_of_involves agree (.response found hm read)
          split
          · rfl
          · split
            · rfl
            · rw [body]
        · rfl
  · rfl

theorem parameterSpec_congr {parameter : Members}
    (agree : registry.AgreesOn other (Schema.Mentions (parameter.getD "schema"))) :
    parameterSpec registry method parameter = parameterSpec other method parameter := by
  simp only [parameterSpec, readable, resolveSlot_congr agree]

theorem parameterSpecs_congr {parameters : List Members}
    (agree : ∀ parameter ∈ parameters,
      registry.AgreesOn other (Schema.Mentions (Members.getD "schema" parameter))) :
    parameterSpecs registry method parameters = parameterSpecs other method parameters := by
  induction parameters with
  | nil => rfl
  | cons parameter rest ih =>
    obtain ⟨own, later⟩ := List.forall_mem_cons.mp agree
    rw [parameterSpecs, parameterSpecs, parameterSpec_congr own, ih later]

theorem ofOperation_congr (agree : registry.AgreesOn other operation.Mentions) :
    ofOperation registry method operation = ofOperation other method operation := by
  have parameters : parameterSpecs registry method operation.parameters =
      parameterSpecs other method operation.parameters :=
    parameterSpecs_congr fun parameter hp => agreesOn_of_involves agree (.parameter hp)
  rw [ofOperation, ofOperation, matchingParameters, matchingParameters, parameters,
    requestBody_congr agree, responseBody_congr agree]

theorem ofOperations_congr {operations : List Operation}
    (agree : ∀ operation ∈ operations, registry.AgreesOn other operation.Mentions)
    (tag : Identifier) (tagName : String) (seen : List (String × String)) :
    ofOperations registry tag tagName seen operations =
      ofOperations other tag tagName seen operations := by
  induction operations generalizing seen with
  | nil => rfl
  | cons operation rest ih =>
    obtain ⟨own, later⟩ := List.forall_mem_cons.mp agree
    simp only [ofOperations, ofOperation_congr own, ih later]

/-- **The signatures of a tag** depend on its operations and on the kinds of the components that
these mention. -/
theorem ofGroup_congr {group : TagGroup} (agree : registry.AgreesOn other group.Mentions) :
    ofGroup registry group = ofGroup other group := by
  have operations : ∀ operation ∈ group.operations,
      registry.AgreesOn other operation.Mentions :=
    fun operation ho => agree.mono fun _ mentioned => ⟨operation, ho, mentioned⟩
  simp only [ofGroup, ofOperations_congr operations]

end Signature

/-! ## The files of an output -/

/-- Both trees have the same file at a path. -/
def OutputTree.ShareFile (tree other : OutputTree) (path : String) : Prop :=
  ∃ file, tree.at? path = some file ∧ other.at? path = some file

namespace Generation

theorem tagDraft_congr {registry other : Registry} {tag : Identifier × TagGroup} (mode : Mode)
    (agree : registry.AgreesOn other tag.2.Mentions) :
    tagDraft mode registry tag = tagDraft mode other tag := by
  cases mode with
  | api => simp only [tagDraft, Controller.lines, Signature.ofGroup_congr agree]
  | client => simp only [tagDraft, Client.lines, Signature.ofGroup_congr agree]

theorem path_tagDraft (mode : Mode) (registry : Registry) (tag : Identifier × TagGroup) :
    (tagDraft mode registry tag).path = mode.name ++ "/" ++ tag.1.kebab ++ ".ts" := by
  cases mode <;> rfl

/-- **Generated files depend on little.**  Let two documents be accepted in a mode.  A component
schema that both have gives the same file in both outputs if each component that it mentions is of
the same kind in both documents, and a tag with operations that both have gives the same file if each
component that its operations mention is of the same kind. -/
theorem generate_local {mode : Mode} {document document' : Value} {parts parts' : DocumentParts}
    {registry registry' : Registry} {groups groups' : List TagGroup} {tree tree' : OutputTree}
    (accepted : Accepted mode document parts registry groups tree)
    (accepted' : Accepted mode document' parts' registry' groups' tree') :
    (∀ raw schema, (.text raw, schema) ∈ parts.schemas → (.text raw, schema) ∈ parts'.schemas →
      registry.AgreesOn registry' (Schema.Mentions schema) →
        ∃ name, Identifier.ofHumped raw = .ok name ∧
          tree.ShareFile tree' ("model/" ++ name.kebab ++ ".ts")) ∧
    ∀ group ∈ groups, group ∈ groups' → group.isUsed = true →
      registry.AgreesOn registry' group.Mentions →
        ∃ tag, Identifier.ofSpaced group.name = .ok tag ∧
          tree.ShareFile tree' (mode.name ++ "/" ++ tag.kebab ++ ".ts") := by
  constructor
  · intro raw schema here there agree
    obtain ⟨name, file, named, written, place⟩ := accepted.model_at here
    obtain ⟨name', file', named', written', place'⟩ := accepted'.model_at there
    cases named.symm.trans named'
    rw [← Model.lines_congr agree name] at written'
    cases written.symm.trans written'
    exact ⟨name, named, file, place, place'⟩
  · intro group here there used agree
    obtain ⟨tag, file, named, written, place⟩ := accepted.tag_at here used
    obtain ⟨tag', file', named', written', place'⟩ := accepted'.tag_at there used
    cases named.symm.trans named'
    rw [← tagDraft_congr mode agree] at written' place'
    cases written.symm.trans written'
    rw [path_tagDraft] at place place'
    exact ⟨tag, named, file, place, place'⟩

/-- The document of the dogs with an operation and a component more, with everything in another order
and with other kennels. -/
def catDocument : Members :=
  let cat := Value.map [(.text "type", .text "string"), (.text "enum", .list [.text "calm"])]
  let kennel := Value.map [(.text "type", .text "string"), (.text "enum", .list [.text "east"])]
  let cats := Value.map [(.text "delete", .map [(.text "operationId", .text "removeAll"),
    (.text "tags", .list [.text "cats"]),
    (.text "responses", .map [(.text "200", .map [(.text "description", .text "Done.")])])])]
  [(.text "components", .map [(.text "schemas",
      .map ((.text "Cat", cat) :: (.text "Kennel", kennel) :: dogSchemas.take 1))]),
    (.text "paths", .map ((.text "/cats", cats) :: dogPaths (.text "path"))),
    (.text "tags", .list [.map [(.text "name", .text "cats")], .map [(.text "name", .text "dogs")]])]

theorem generate_local_dogs :
    ∃ tree tree', (generate (.text "client") (.map (dogDocument (.text "path")))).result = .ok tree ∧
      (generate (.text "client") (.map catDocument)).result = .ok tree' ∧
      tree.ShareFile tree' "model/dog.ts" ∧ tree.ShareFile tree' "client/dogs.ts" := by
  obtain ⟨tree, here⟩ := Except.exists_of_isOk
    (show (generate (.text "client") (.map (dogDocument (.text "path")))).result.isOk = true by
      decide +kernel)
  obtain ⟨tree', there⟩ := Except.exists_of_isOk
    (show (generate (.text "client") (.map catDocument)).result.isOk = true by decide +kernel)
  have first : Accepted .client (.map (dogDocument (.text "path"))) _
      ⟨[("Dog", .object), ("Kennel", .enumeration)]⟩ [⟨"dogs", none, _⟩] tree :=
    ⟨rfl, rfl, rfl, here⟩
  have second : Accepted .client (.map catDocument) _
      ⟨[("Cat", .enumeration), ("Kennel", .enumeration), ("Dog", .object)]⟩
      [⟨"cats", none, _⟩, ⟨"dogs", none, _⟩] tree' :=
    ⟨rfl, rfl, rfl, there⟩
  have shared := generate_local first second
  have model : tree.ShareFile tree' "model/dog.ts" := by
    obtain ⟨name, named, share⟩ := shared.1 "Dog" _ List.mem_cons_self
      (List.mem_cons_of_mem _ (List.mem_cons_of_mem _ List.mem_cons_self)) fun name mentioned => by
        cases mentioned with
        | reference found _ => cases found
        | inner hb _ => cases hb
        | property found hp inside =>
          cases found
          cases List.mem_singleton.mp hp
          cases Schema.eq_of_mentions_reference rfl rfl rfl inside
          rfl
    cases named
    exact share
  have tag : tree.ShareFile tree' "client/dogs.ts" := by
    obtain ⟨tag, named, share⟩ := shared.2 _ List.mem_cons_self
      (List.mem_cons_of_mem _ List.mem_cons_self) rfl fun name mentioned => by
        obtain ⟨operation, ho, schema, involved, inside⟩ := mentioned
        cases List.mem_singleton.mp ho
        cases involved with
        | parameter hp =>
          cases List.mem_singleton.mp hp
          cases Schema.eq_of_mentions_reference rfl rfl rfl inside
          rfl
        | body found _ => cases found
        | response found hr read =>
          cases found
          cases List.mem_singleton.mp hr
          cases read
          cases Schema.eq_of_mentions_reference rfl rfl rfl inside
          rfl
    cases named
    exact share
  exact ⟨tree, tree', here, there, model, tag⟩

end Generation
end TypedApi
