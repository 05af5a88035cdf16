import TypedApi.Generation
import TypedApi.Proofs.Operation.Restyled
import TypedApi.Proofs.Output.TagFiles

/-! # Titles, examples and member order

Documents that differ within their schemas only, where these say the same, have the same output
(`Generation.generate_restyled`): the same components are registered, their models are written from
the same properties, and the files of tags are written from the same signatures.
-/
namespace TypedApi
open Schema (Restyled NodesAlike PropertiesAlike ShapesAlike)

/-! ## Components -/

namespace Registry

theorem componentKind_eq {shape shape' : Shape} (h : ShapesAlike shape shape') (place : Place) :
    componentKind place shape = componentKind place shape' := by
  cases h <;> rfl

theorem entries_concur (names : List (String × String)) {schemas schemas' : Members}
    (h : PropertiesAlike schemas schemas') :
    Concur Eq (entries names schemas) (entries names schemas') := by
  induction h generalizing names with
  | nil => exact .done rfl
  | @cons member member' rest rest' own _ ih =>
    obtain ⟨key, schema⟩ := member
    obtain ⟨_, schema'⟩ := member'
    obtain ⟨rfl, related⟩ := own
    cases key with
    | text raw =>
      rw [entries, entries]
      refine .same_bind _ fun name => ?_
      split
      · exact .fail _ _
      · refine (classify_concur _ related).bind fun shape shape' alike => ?_
        rw [componentKind_eq alike]
        exact .same_bind _ fun kind => (ih _).eq_bind fun _ => .done rfl
    | _ => exact .fail _ _

theorem ofSchemas_concur {schemas schemas' : Members} (h : PropertiesAlike schemas schemas') :
    Concur Eq (ofSchemas schemas) (ofSchemas schemas') :=
  (entries_concur [] h).eq_bind fun _ => .done rfl

end Registry

namespace Model
variable {registry : Registry} {name : String} {required : List String}

theorem descriptionLines_eq {members members' : Members} (h : NodesAlike members members') :
    members.descriptionLines = members'.descriptionLines := by
  rw [Members.descriptionLines, Members.descriptionLines,
    h.getD_eq "description" (by decide) (by decide)]

theorem propertyComment_eq {schema schema' : Value} (h : Restyled .schema schema schema') :
    propertyComment schema = propertyComment schema' := by
  rcases h.of_schema with ⟨members, members', rfl, rfl, alike⟩ | ⟨rfl, -⟩
  · rw [propertyComment, propertyComment, alike.has_eq "$ref" (by decide),
      descriptionLines_eq alike]
  · rfl

theorem propertyLines_concur {property property' : String × Value} (key : property.1 = property'.1)
    (h : Restyled .schema property.2 property'.2) :
    Noted.Concur Eq (propertyLines registry name required property)
      (propertyLines registry name required property') := by
  obtain ⟨key, schema⟩ := property
  obtain ⟨_, schema'⟩ := property'
  cases key
  simp only [propertyLines, propertyComment_eq h]
  exact (resolveSlot_concur h _ _).eq_bind fun _ => .same _ fun _ => rfl

theorem allPropertyLines_concur {properties properties' : List (String × Value)}
    (h : PropertiesAlike properties properties') :
    Noted.Concur Eq (allPropertyLines registry name required properties)
      (allPropertyLines registry name required properties') := by
  induction h with
  | nil => exact .done rfl
  | cons own _ ih =>
    rw [allPropertyLines, allPropertyLines]
    exact (propertyLines_concur own.1 own.2).eq_bind fun _ => ih.eq_bind fun _ => .done rfl

theorem lines_concur (name : Identifier) {schema schema' : Value}
    (h : Restyled .schema schema schema') :
    Noted.Concur Eq (lines registry name schema) (lines registry name schema') := by
  rcases h.of_schema with ⟨members, members', rfl, rfl, same⟩ | ⟨rfl, -⟩
  · unfold lines
    simp only [descriptionLines_eq same]
    refine (Noted.Concur.ofExcept (classify_concur _ h)).bind fun shape shape' alike => ?_
    cases alike with
    | same => exact .same _ fun _ => rfl
    | object related =>
      refine .same_bind _ fun _ => (allPropertyLines_concur related).eq_bind fun _ => ?_
      exact .same _ fun _ => rfl
    | _ => exact .fail _ _
  · exact .same _ fun _ => rfl

/-- Lines that concur are written to the same file. -/
theorem toFile_concur {x y : Emission (List String)} (h : Noted.Concur Eq x y)
    (folder : Option Code.Folder) (path : String) :
    Concur Eq (x.toFile folder path) (y.toFile folder path) := by
  rcases h.cases with ⟨e, e', hx, hy⟩ | ⟨a, _, hx, hy, rfl, notes⟩
  · rw [Emission.toFile, Emission.toFile, hx, hy]
    exact .fail e e'
  · rw [Emission.toFile, Emission.toFile, hx, hy, notes]
    exact .done rfl

theorem file_concur (raw : String) {schema schema' : Value} (h : Restyled .schema schema schema') :
    Concur Eq (file registry raw schema) (file registry raw schema') :=
  .same_bind _ fun name => toFile_concur (lines_concur name h) _ _

end Model

/-! ## Tags -/

namespace Signature.Resembles
variable {signature signature' : Signature} (h : signature.Resembles signature')
include h

theorem returnType_eq : signature.returnType = signature'.returnType := by
  rw [returnType, returnType, h.response]

theorem arguments_eq : signature.arguments = signature'.arguments := by
  rw [arguments, arguments, h.body, h.parameters]

theorem argumentNames_eq : signature.argumentNames = signature'.argumentNames := by
  rw [argumentNames, argumentNames, h.body, h.parameters]

theorem docLines_eq (extra : List (String × String)) :
    signature.docLines extra = signature'.docLines extra := by
  simp only [docLines, docTags, h.operation.text?_eq "summary" rfl,
    h.operation.text?_eq "description" rfl, h.body, h.parameters, h.response]

end Signature.Resembles

namespace Controller

theorem routeLines_eq {signature signature' : Signature} (h : signature.Resembles signature') :
    routeLines signature = routeLines signature' := by
  simp only [routeLines, callLines, methodCall, h.argumentNames_eq, h.operation.method,
    h.operation.url, h.methodName, h.body, h.parameters, h.response]

theorem declaration_eq {signature signature' : Signature} (h : signature.Resembles signature') :
    declaration signature = declaration signature' := by
  rw [declaration, declaration, h.docLines_eq, h.methodName, h.arguments_eq, h.returnType_eq]

theorem allRouteLines_eq {signatures signatures' : List Signature}
    (h : List.Forall₂ Signature.Resembles signatures signatures') :
    allRouteLines signatures = allRouteLines signatures' := by
  induction h with
  | nil => rfl
  | cons own _ ih => rw [allRouteLines, allRouteLines, routeLines_eq own, ih]

theorem declarations_eq {signatures signatures' : List Signature}
    (h : List.Forall₂ Signature.Resembles signatures signatures') :
    signatures.flatMap declaration = signatures'.flatMap declaration := by
  induction h with
  | nil => rfl
  | cons own _ ih => rw [List.flatMap_cons, List.flatMap_cons, declaration_eq own, ih]

theorem lines_concur {registry : Registry} (tag : Identifier) {group group' : TagGroup}
    (h : group.Resembles group') :
    Noted.Concur Eq (lines registry tag group) (lines registry tag group') := by
  unfold lines
  refine .same_bind _ fun _ => ?_
  refine (Signature.ofGroup_concur h).bind fun signatures signatures' hs => ?_
  rw [allRouteLines_eq hs, declarations_eq hs, h.description]
  exact .same _ fun _ => rfl

end Controller

namespace Client

section Methods
variable {signature signature' : Signature} (h : signature.Resembles signature')
include h

theorem pathCalls_eq (parts : List PathPart) :
    pathCalls signature parts = pathCalls signature' parts := by
  induction parts with
  | nil => rfl
  | cons part rest ih =>
    cases part with
    | literal text => rw [pathCalls, pathCalls, ih]
    | parameter name => rw [pathCalls, pathCalls, pathSlot, pathSlot, h.parameters, ih]

theorem methodLines_eq : methodLines signature = methodLines signature' := by
  simp only [methodLines, urlExpression, pathCalls_eq h, h.arguments_eq, h.docLines_eq,
    h.returnType_eq, h.operation.method, h.operation.url, h.methodName, h.body, h.parameters,
    h.response]

end Methods

theorem allMethodLines_eq {signatures signatures' : List Signature}
    (h : List.Forall₂ Signature.Resembles signatures signatures') :
    allMethodLines signatures = allMethodLines signatures' := by
  induction h with
  | nil => rfl
  | cons own later ih =>
    cases later with
    | nil => exact methodLines_eq own
    | cons next rest =>
      rw [allMethodLines_cons_cons, allMethodLines_cons_cons, methodLines_eq own, ih]

theorem lines_concur {registry : Registry} (tag : Identifier) {group group' : TagGroup}
    (h : group.Resembles group') :
    Noted.Concur Eq (lines registry tag group) (lines registry tag group') := by
  unfold lines
  refine .same_bind _ fun _ => ?_
  refine (Signature.ofGroup_concur h).bind fun signatures signatures' hs => ?_
  rw [allMethodLines_eq hs, h.description]
  exact .same _ fun _ => rfl

end Client

/-! ## The whole output -/

section Sorted
variable {α β : Type} {R : α → β → Prop} {key : α → String} {key' : β → String}
  (keys : ∀ a b, R a b → key a = key' b)
include keys

theorem forall₂_insertBy {a : α} {b : β} (own : R a b) {as : List α} {bs : List β}
    (h : List.Forall₂ R as bs) :
    List.Forall₂ R (Text.insertBy key a as) (Text.insertBy key' b bs) := by
  induction h with
  | nil => exact .cons own .nil
  | cons first later ih =>
    rw [Text.insertBy, Text.insertBy, keys _ _ own, keys _ _ first]
    split
    · exact .cons own (.cons first later)
    · exact .cons first ih

/-- Sorting keeps counterparts with the same keys in the same places. -/
theorem forall₂_sortedBy {as : List α} {bs : List β} (h : List.Forall₂ R as bs) :
    List.Forall₂ R (Text.sortedBy key as) (Text.sortedBy key' bs) := by
  induction h with
  | nil => exact .nil
  | cons own _ ih => exact forall₂_insertBy keys own ih

end Sorted

theorem isEmpty_eq_of_forall₂ {α β : Type} {R : α → β → Prop} {as : List α} {bs : List β}
    (h : List.Forall₂ R as bs) : as.isEmpty = bs.isEmpty := by
  cases h <;> rfl

namespace Generation

theorem modelFiles_concur {registry : Registry} {schemas schemas' : Members}
    (h : PropertiesAlike schemas schemas') :
    Concur Eq (modelFiles registry schemas) (modelFiles registry schemas') := by
  induction h with
  | nil => exact .done rfl
  | @cons member member' rest rest' own _ ih =>
    obtain ⟨key, schema⟩ := member
    obtain ⟨_, schema'⟩ := member'
    obtain ⟨rfl, related⟩ := own
    cases key with
    | text raw =>
      rw [modelFiles, modelFiles]
      exact (Model.file_concur raw related).eq_bind fun _ => ih.eq_bind fun _ => .done rfl
    | _ => exact .fail _ _

theorem tagFile_concur (mode : Mode) {registry : Registry} {group group' : TagGroup}
    (h : group.Resembles group') :
    Concur Eq (tagFile mode registry group) (tagFile mode registry group') := by
  cases mode with
  | api =>
    rw [tagFile, tagFile, Controller.file, Controller.file, h.name]
    exact .same_bind _ fun tag => Model.toFile_concur (Controller.lines_concur tag h) _ _
  | client =>
    rw [tagFile, tagFile, Client.file, Client.file, h.name]
    exact .same_bind _ fun tag => Model.toFile_concur (Client.lines_concur tag h) _ _

theorem tagOutput_concur (mode : Mode) {registry : Registry} (taken : List (String × String))
    {groups groups' : List TagGroup} (h : List.Forall₂ TagGroup.Resembles groups groups') :
    Concur Eq (tagOutput mode registry taken groups) (tagOutput mode registry taken groups') := by
  induction h generalizing taken with
  | nil => exact .done rfl
  | cons own _ ih =>
    rw [tagOutput, tagOutput, own.name, isEmpty_eq_of_forall₂ own.operations]
    split
    · exact (ih taken).eq_bind fun _ => .done rfl
    · refine .same_bind _ fun tag => .same_bind _ fun taken => ?_
      exact (tagFile_concur mode own).eq_bind fun _ => (ih taken).eq_bind fun _ => .done rfl

/-- The parts of documents that are alike. -/
structure PartsAlike (parts parts' : DocumentParts) : Prop where
  schemas : PropertiesAlike parts.schemas parts'.schemas
  paths : MembersAlike (fun _ => MapAlike (under itemParts)) parts.paths parts'.paths
  tags : parts.tags = parts'.tags

theorem ofParts_concur (mode : Mode) {parts parts' : DocumentParts} (h : PartsAlike parts parts') :
    Noted.Concur Eq (ofParts mode parts) (ofParts mode parts') := by
  have groups : Concur (List.Forall₂ TagGroup.Resembles)
      (Operation.grouped parts.paths parts.tags) (Operation.grouped parts'.paths parts'.tags) :=
    h.tags ▸ Operation.grouped_concur parts.tags h.paths
  have count : parts.schemas.length = parts'.schemas.length := h.schemas.length_eq
  unfold ofParts
  rw [count]
  refine (Noted.Concur.ofExcept (Registry.ofSchemas_concur h.schemas)).eq_bind fun registry => ?_
  refine (Noted.Concur.ofExcept groups).bind fun groups groups' hg => ?_
  refine (Noted.Concur.ofExcept (modelFiles_concur h.schemas)).eq_bind fun models => ?_
  refine .same_bind _ fun _ => ?_
  have sorted := forall₂_sortedBy (fun _ _ same => same.name) hg
  refine (Noted.Concur.ofExcept (tagOutput_concur mode [] sorted)).eq_bind fun tags => ?_
  exact .same _ fun _ => rfl

/-! ## Documents -/

/-- The parts of the components in which there are schemas. -/
def componentParts : List (String × (Value → Value → Prop)) :=
  [("schemas", MapAlike fun _ => Restyled .schema)]

/-- The parts of a document in which there are schemas. -/
def documentParts : List (String × (Value → Value → Prop)) :=
  [("components", MapAlike (under componentParts)), ("paths", PathsAlike)]

/-- Documents that differ within their schemas only, where these say the same: the schemas of
components, parameters, request bodies and responses. -/
def DocumentsAlike : Value → Value → Prop := MapAlike (under documentParts)

theorem PartsAlike.refl (parts : DocumentParts) : PartsAlike parts parts :=
  ⟨.refl parts.schemas, .refl (fun _ => .same) parts.paths, rfl⟩

theorem componentParts_same : ∀ key v, under componentParts key v v :=
  under_same (by simp [componentParts, MapAlike.same])

/-- What is done with the members of a mapping concurs if it does for all that are alike. -/
theorem expectMap_concur {α β : Type} {S : α → β → Prop} {R : Scalar → Value → Value → Prop}
    (same : ∀ key v, R key v v) {v v' : Value} {f : Members → Except Failure α}
    {g : Members → Except Failure β} {e e' : Failure} :
    MapAlike R v v' →
    (∀ members members', MembersAlike R members members' →
      Concur S (f members) (g members')) →
    Concur S (match v with | .map members => f members | _ => .error e)
      (match v' with | .map members => g members | _ => .error e') := by
  intro h hf
  rcases h.cases same with ⟨members, members', rfl, rfl, alike⟩ | ⟨rfl, none⟩
  · exact hf members members' alike
  · cases v' with
    | map members => cases none
    | _ => exact .fail e e'

theorem ofMembers_concur {document document' : Members}
    (h : MembersAlike (under documentParts) document document') :
    Concur PartsAlike (DocumentParts.ofMembers document) (DocumentParts.ofMembers document') := by
  have tags : document.get? "tags" = document'.get? "tags" := by
    have found : Option.Rel Eq (document.get? "tags") (document'.get? "tags") := h.get?_rel "tags"
    generalize document.get? "tags" = v, document'.get? "tags" = v' at found ⊢
    cases found with
    | some same => exact congrArg some same
    | none => rfl
  unfold DocumentParts.ofMembers
  rw [tags]
  refine expectMap_concur componentParts_same
    (h.getD_rel "components" (.same _)) fun components components' alike => ?_
  refine expectMap_concur (fun _ => .same) (alike.getD_rel "schemas" (.same _))
    fun schemas schemas' named => ?_
  refine expectMap_concur (fun _ => .same) (h.getD_rel "paths" (.same _))
    fun paths paths' items => ?_
  split
  · exact .done ⟨named, items, rfl⟩
  · exact .done ⟨named, items, rfl⟩
  · exact .fail _ _

theorem ofDocument_concur {document document' : Value} (h : DocumentsAlike document document') :
    Concur PartsAlike (DocumentParts.ofDocument document)
      (DocumentParts.ofDocument document') := by
  cases h with
  | same =>
    exact .same _ fun parts => ⟨.refl parts.schemas, .refl (fun _ => .same) parts.paths, rfl⟩
  | map members => exact ofMembers_concur members

/-- **Titles, examples and the order of members do not matter.**  Two documents that differ within
their schemas only, in titles and examples and in the order of members, are both accepted or both
refused in a mode; if they are accepted, the output is the same, with the same warnings, and so is
what is noted of the progress. -/
theorem generate_restyled (mode : Value) {document document' : Value}
    (alike : DocumentsAlike document document') (tree : OutputTree) :
    ((generate mode document).result = .ok tree ↔ (generate mode document').result = .ok tree) ∧
      ((generate mode document).result = .ok tree →
        (generate mode document).notes = (generate mode document').notes) := by
  have both : Noted.Concur Eq (generate mode document) (generate mode document') := by
    refine .same_bind _ fun found => ?_
    refine (Noted.Concur.ofExcept (ofDocument_concur alike)).bind fun parts parts' same => ?_
    exact ofParts_concur found same
  rcases both.cases with ⟨e, e', refused, refused'⟩ | ⟨a, _, accepted, accepted', rfl, notes⟩
  · simp [refused, refused']
  · rw [accepted, accepted']
    exact ⟨.rfl, fun _ => notes⟩

/-- A parameter of the query with the given schema. -/
def yearParameter (schema : Value) : Members :=
  [(.text "name", .text "year"), (.text "in", .text "query"), (.text "required", .bool true),
    (.text "schema", schema)]

/-- A document with the component `Book` and a parameter of the given schemas. -/
def bookDocument (book year : Value) : Value :=
  let content := Value.map [(.text "application/json",
    .map [(.text "schema", .map [(.text "$ref", .text "#/components/schemas/Book")])])]
  .map [(.text "components", .map [(.text "schemas", .map [(.text "Book", book)])]),
    (.text "paths", .map [(.text "/books", .map [(.text "get", .map [
      (.text "operationId", .text "books.find"), (.text "tags", .list [.text "books"]),
      (.text "parameters", .list [.map (yearParameter year)]),
      (.text "responses", .map [(.text "200", .map [(.text "content", content)])])])])]),
    (.text "tags", .list [.map [(.text "name", .text "books")]])]

theorem bookDocument_alike {book book' year year' : Value} (hb : Restyled .schema book book')
    (hy : Restyled .schema year year') :
    DocumentsAlike (bookDocument book year) (bookDocument book' year') := by
  have parameter : MembersAlike (under parameterParts) (yearParameter year) (yearParameter year') :=
    .cons ⟨rfl, rfl⟩ (.cons ⟨rfl, rfl⟩ (.cons ⟨rfl, rfl⟩ (.cons ⟨rfl, hy⟩ .nil)))
  refine .map (.cons ⟨rfl, .map (.cons ⟨rfl, .map (.cons ⟨rfl, hb⟩ .nil)⟩ .nil)⟩
    (.cons ⟨rfl, .map (.cons ⟨rfl, .map (.cons ⟨rfl, .map ?_⟩ .nil)⟩ .nil)⟩
      (.cons ⟨rfl, rfl⟩ .nil)))
  exact .cons ⟨rfl, rfl⟩ (.cons ⟨rfl, rfl⟩
    (.cons ⟨rfl, .list (.cons (.map parameter) .nil)⟩ (.cons ⟨rfl, .same _⟩ .nil)))

/-- A schema with properties that are called like asides. -/
def bookSchema : Value :=
  .map [(.text "type", .text "object"), (.text "required", .list [.text "title"]),
    (.text "properties", .map [(.text "title", .map [(.text "type", .text "string")]),
      (.text "example", .map [(.text "type", .text "integer")])])]

/-- The same schema with asides and with its members in another order. -/
def styledBookSchema : Value :=
  .map [(.text "title", .text "A book"),
    (.text "properties", .map [
      (.text "title", .map [(.text "title", .text "Its title"), (.text "type", .text "string")]),
      (.text "example", .map [(.text "type", .text "integer"), (.text "example", .int 3)])]),
    (.text "type", .text "object"), (.text "required", .list [.text "title"]),
    (.text "example", .map [])]

theorem bookSchema_restyled : Restyled .schema bookSchema styledBookSchema := by
  refine .of_perm (by decide) (@List.perm_append_comm _ [_, _] [_])
    (.cons ⟨rfl, .properties rfl ?_⟩ (.cons ⟨rfl, .same _⟩ (.cons ⟨rfl, .same _⟩ .nil)))
  exact .cons (.of_filter (by decide) rfl) (.cons (.of_filter (by decide) rfl) .nil)

theorem generate_restyled_book :
    ∃ tree, (generate (.text "api") (bookDocument bookSchema (.map [(.text "type",
        .text "integer")]))).result = .ok tree ∧
      (generate (.text "api") (bookDocument styledBookSchema (.map [(.text "example", .int 1999),
        (.text "type", .text "integer")]))).result = .ok tree := by
  obtain ⟨tree, accepted⟩ := Except.exists_of_isOk
    (show (generate (.text "api") (bookDocument bookSchema (.map [(.text "type",
        .text "integer")]))).result.isOk = true by decide +kernel)
  have year : Restyled .schema (.map [(.text "type", .text "integer")])
      (.map [(.text "example", .int 1999), (.text "type", .text "integer")]) :=
    .of_filter (by decide) rfl
  have alike := bookDocument_alike bookSchema_restyled year
  exact ⟨tree, accepted, (generate_restyled (.text "api") alike tree).1.mp accepted⟩

end Generation
end TypedApi
