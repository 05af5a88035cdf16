import TypedApi.Operation.Signature
import TypedApi.Proofs.Operation.Grouping
import TypedApi.Proofs.Schema.Restyled

/-! # Operations that say the same

Two documents are alike if they differ only within their schemas, where these say the same.  Their
other mappings have the same members in the same order, so that both have the same operations with
schemas that say the same (`Operation.grouped_concur`), and these have the same signatures
(`Signature.ofGroup_concur`).
-/
namespace TypedApi
open Schema (Restyled)

/-! ## Values that are alike outside schemas -/

/-- Values are the same, or mappings with related members. -/
inductive MapAlike (R : Scalar → Value → Value → Prop) : Value → Value → Prop
  | same (v : Value) : MapAlike R v v
  | map {members members' : Members} :
      MembersAlike R members members' → MapAlike R (.map members) (.map members')

/-- Values are the same, or lists with related items. -/
inductive ListAlike (R : Value → Value → Prop) : Value → Value → Prop
  | same (v : Value) : ListAlike R v v
  | list {items items' : List Value} :
      List.Forall₂ R items items' → ListAlike R (.list items) (.list items')

/-- The relation between the values of a key: one of those in the table, or else equality. -/
def under (table : List (String × (Value → Value → Prop))) : Scalar → Value → Value → Prop
  | .text name => (table.lookup name).getD Eq
  | _ => Eq

/-- A media type has a schema. -/
def MediaAlike : Value → Value → Prop := MapAlike (under [("schema", Restyled .schema)])

/-- A request body or a response has content of some media types. -/
def BodyAlike : Value → Value → Prop :=
  MapAlike (under [("content", MapAlike fun _ => MediaAlike)])

/-- The parts of a parameter in which there are schemas. -/
def parameterParts : List (String × (Value → Value → Prop)) := [("schema", Restyled .schema)]

/-- Parameters of a path or an operation. -/
def ParametersAlike : Value → Value → Prop := ListAlike (MapAlike (under parameterParts))

/-- The parts of an operation in which there are schemas. -/
def operationParts : List (String × (Value → Value → Prop)) :=
  [("parameters", ParametersAlike), ("requestBody", BodyAlike),
    ("responses", MapAlike fun _ => BodyAlike)]

/-- The parts of a path item in which there are schemas. -/
def itemParts : List (String × (Value → Value → Prop)) :=
  ("parameters", ParametersAlike) ::
    Method.all.map fun method => (method.key, MapAlike (under operationParts))

/-- Paths with the same operations besides their schemas. -/
def PathsAlike : Value → Value → Prop := MapAlike fun _ => MapAlike (under itemParts)

namespace MembersAlike
variable {R : Scalar → Value → Value → Prop} {members members' : Members}
  (h : MembersAlike R members members')
include h

theorem getD_rel (name : String) (same : R (.text name) .null .null) :
    R (.text name) (members.getD name) (members'.getD name) := by
  have found := h.get?_rel name
  rw [Members.getD, Members.getD]
  generalize members.get? name = v, members'.get? name = v' at found ⊢
  cases found with
  | some related => exact related
  | none => exact same

theorem getD_eq (name : String) (plain : R (.text name) = Eq) :
    members.getD name = members'.getD name := by
  have same := h.getD_rel name (plain ▸ rfl)
  rwa [plain] at same

theorem has_eq (name : String) : members.has name = members'.has name := by
  have found := h.get?_rel name
  rw [Members.has, Members.has]
  generalize members.get? name = v, members'.get? name = v' at found ⊢
  cases found with
  | some _ => rfl
  | none => rfl

end MembersAlike

theorem MapAlike.cases {R : Scalar → Value → Value → Prop} (same : ∀ key v, R key v v)
    {v v' : Value} (h : MapAlike R v v') :
    (∃ members members', v = .map members ∧ v' = .map members' ∧ MembersAlike R members members') ∨
      (v' = v ∧ v.isMap = false) := by
  cases h with
  | same =>
    cases v with
    | map members => exact .inl ⟨members, members, rfl, rfl, .refl same members⟩
    | _ => exact .inr ⟨rfl, rfl⟩
  | map related => exact .inl ⟨_, _, rfl, rfl, related⟩

theorem under_same {table : List (String × (Value → Value → Prop))}
    (same : ∀ entry ∈ table, ∀ v, entry.2 v v) (key : Scalar) (v : Value) :
    under table key v v := by
  cases key with
  | text name =>
    show (table.lookup name).getD Eq v v
    cases found : table.lookup name with
    | none => rfl
    | some R =>
      obtain ⟨before, after, split, -⟩ := List.lookup_eq_some_iff.mp found
      exact same (name, R) (split ▸ by simp) v
  | _ => rfl

theorem parameterParts_same : ∀ key v, under parameterParts key v v :=
  under_same (by simp [parameterParts, Restyled.same])

theorem operationParts_same : ∀ key v, under operationParts key v v :=
  under_same (by simp [operationParts, ParametersAlike, BodyAlike, MapAlike.same, ListAlike.same])

theorem itemParts_same : ∀ key v, under itemParts key v v :=
  under_same (by simp [itemParts, ParametersAlike, MapAlike.same, ListAlike.same])

/-! ## Reading -/

/-- Operations that differ in their schemas only, where they say the same. -/
structure Operation.Resembles (operation operation' : Operation) : Prop where
  method : operation.method = operation'.method
  path : operation.path = operation'.path
  url : operation.url = operation'.url
  tag : operation.tag = operation'.tag
  members : MembersAlike (under operationParts) operation.members operation'.members
  parameters : List.Forall₂ (MembersAlike (under parameterParts)) operation.parameters
    operation'.parameters

/-- Groups of the same tag with operations that say the same. -/
structure TagGroup.Resembles (group group' : TagGroup) : Prop where
  name : group.name = group'.name
  description : group.description = group'.description
  operations : List.Forall₂ Operation.Resembles group.operations group'.operations

theorem mapM_eq_of_forall₂ {m : Type → Type} [Monad m] [LawfulMonad m] {α β γ : Type} {f : α → m γ}
    {g : β → m γ} {as : List α} {bs : List β} (h : List.Forall₂ (fun a b => f a = g b) as bs) :
    as.mapM f = bs.mapM g := by
  induction h with
  | nil => rfl
  | cons own _ ih => rw [List.mapM_cons, List.mapM_cons, own, ih]

theorem filterMap_eq_of_forall₂ {α β γ : Type} {f : α → Option γ} {g : β → Option γ} {as : List α}
    {bs : List β} (h : List.Forall₂ (fun a b => f a = g b) as bs) :
    as.filterMap f = bs.filterMap g := by
  induction h with
  | nil => rfl
  | cons own _ ih => rw [List.filterMap_cons, List.filterMap_cons, own, ih]

namespace Operation

theorem expectOnly_eq {R : Scalar → Value → Value → Prop} {members members' : Members}
    (h : MembersAlike R members members') (owner : String) (allowed : List String) :
    expectOnly owner members allowed = expectOnly owner members' allowed := by
  unfold expectOnly
  rw [filterMap_eq_of_forall₂ (h.imp ?_)]
  rintro ⟨key, v⟩ ⟨_, v'⟩ ⟨rfl, -⟩
  rfl

theorem onlyTag_eq {members members' : Members}
    (h : MembersAlike (under operationParts) members members') (label : String) :
    onlyTag label members = onlyTag label members' := by
  unfold onlyTag
  rw [h.getD_eq "tags" rfl]

section Parameters

/-- Parameter objects that say the same. -/
abbrev AllParametersAlike : List Members → List Members → Prop :=
  List.Forall₂ (MembersAlike (under parameterParts))

theorem readParameter_concur (owner : String) {v v' : Value}
    (h : MapAlike (under parameterParts) v v') :
    Concur (MembersAlike (under parameterParts)) (readParameter owner v)
      (readParameter owner v') := by
  rcases h.cases parameterParts_same with ⟨members, members', rfl, rfl, alike⟩ | ⟨rfl, -⟩
  · rw [readParameter, readParameter, alike.has_eq "$ref"]
    split
    · exact .fail _ _
    · exact .done alike
  · exact .same _ (.refl parameterParts_same)

theorem readParameters_concur (owner : String) {v v' : Value} (h : ParametersAlike v v') :
    Concur AllParametersAlike (readParameters owner v) (readParameters owner v') := by
  cases h with
  | same => exact .same _ (forall₂_refl (.refl parameterParts_same))
  | list items => exact .mapM items fun _ _ => readParameter_concur owner

theorem parameterKey_eq {parameter parameter' : Members}
    (h : MembersAlike (under parameterParts) parameter parameter') :
    parameterKey parameter = parameterKey parameter' := by
  rw [parameterKey, parameterKey, h.getD_eq "name" rfl, h.getD_eq "in" rfl]

/-- Choosing parameters by their keys chooses those in the same places. -/
theorem forall₂_filter_zip {shared shared' : List Members} (h : AllParametersAlike shared shared')
    (keys : List (Scalar × Scalar)) (kept : Scalar × Scalar → Bool) :
    AllParametersAlike (((shared.zip keys).filter fun p => kept p.2).map Prod.fst)
      (((shared'.zip keys).filter fun p => kept p.2).map Prod.fst) := by
  induction h generalizing keys with
  | nil => exact .nil
  | cons own _ ih =>
    cases keys with
    | nil => exact .nil
    | cons key rest =>
      rw [List.zip_cons_cons, List.zip_cons_cons, List.filter_cons, List.filter_cons]
      by_cases chosen : kept key = true
      · rw [if_pos chosen, if_pos chosen]
        exact .cons own (ih rest)
      · rw [if_neg chosen, if_neg chosen]
        exact ih rest

theorem mergeParameters_concur {shared shared' own own' : List Members}
    (hs : AllParametersAlike shared shared') (ho : AllParametersAlike own own') :
    Concur AllParametersAlike (mergeParameters shared own) (mergeParameters shared' own') := by
  rw [mergeParameters, mergeParameters,
    mapM_eq_of_forall₂ (hs.imp fun _ _ => parameterKey_eq),
    mapM_eq_of_forall₂ (ho.imp fun _ _ => parameterKey_eq)]
  refine .same_bind _ fun ownKeys => .same_bind _ fun sharedKeys => .done ?_
  exact List.rel_append
    (forall₂_filter_zip hs sharedKeys fun key => !ownKeys.any (sameKey key)) ho

end Parameters

section Reading
variable {declared : List String} {path : String} {url : PathTemplate}
  {shared shared' : List Members} (hs : AllParametersAlike shared shared')
include hs

theorem read_concur (method : Method) {v v' : Value} (h : MapAlike (under operationParts) v v') :
    Concur Operation.Resembles (read declared path url shared method v)
      (read declared path url shared' method v') := by
  rcases h.cases operationParts_same with ⟨members, members', rfl, rfl, alike⟩ | ⟨rfl, noMap⟩
  · have listed : ParametersAlike (Members.getD "parameters" members)
        (Members.getD "parameters" members') := alike.getD_rel "parameters" (.same _)
    simp only [read, expectOnly_eq alike, onlyTag_eq alike]
    refine .same_bind _ fun _ => .same_bind _ fun tag => ?_
    split
    · exact .fail _ _
    · refine (readParameters_concur _ listed).bind fun own own' ho => ?_
      refine (mergeParameters_concur hs ho).bind fun merged merged' hm => ?_
      exact .done ⟨rfl, rfl, rfl, rfl, alike, hm⟩
  · cases v' with
    | map _ => cases noMap
    | _ => exact .fail _ _

theorem readMembers_concur {members members' : Members}
    (h : MembersAlike (under itemParts) members members') :
    Concur (List.Forall₂ Operation.Resembles) (readMembers declared path url shared members)
      (readMembers declared path url shared' members') := by
  induction h with
  | nil => exact .done .nil
  | @cons member member' rest rest' own _ ih =>
    obtain ⟨key, v⟩ := member
    obtain ⟨_, v'⟩ := member'
    obtain ⟨rfl, related⟩ := own
    rw [readMembers, readMembers]
    cases found : Method.ofKey? key with
    | none => exact ih
    | some method =>
      cases Method.ofKey?_eq_some found
      have operation : MapAlike (under operationParts) v v' := by
        cases method <;> exact related
      refine (read_concur hs method operation).bind fun o o' ho => ih.bind fun later later' hl => ?_
      exact .done (.cons ho hl)

end Reading

theorem readPath_concur {declared : List String} (key : Scalar) {item item' : Value}
    (h : MapAlike (under itemParts) item item') :
    Concur (List.Forall₂ Operation.Resembles) (readPath declared key item)
      (readPath declared key item') := by
  rcases h.cases itemParts_same with ⟨members, members', rfl, rfl, alike⟩ | ⟨rfl, noMap⟩
  · cases key with
    | text path =>
      have listed : ParametersAlike (Members.getD "parameters" members)
          (Members.getD "parameters" members') := alike.getD_rel "parameters" (.same _)
      refine .same_bind _ fun url => ?_
      refine (readParameters_concur path listed).bind fun shared shared' hs => ?_
      exact readMembers_concur hs alike
    | _ => exact .fail _ _
  · cases item' with
    | map _ => cases noMap
    | _ => exact .fail _ _

theorem readPaths_concur {declared : List String} {paths paths' : Members}
    (h : MembersAlike (fun _ => MapAlike (under itemParts)) paths paths') :
    Concur (List.Forall₂ Operation.Resembles) (readPaths declared paths)
      (readPaths declared paths') := by
  induction h with
  | nil => exact .done .nil
  | @cons entry entry' rest rest' own _ ih =>
    obtain ⟨key, item⟩ := entry
    obtain ⟨_, item'⟩ := entry'
    obtain ⟨rfl, related⟩ := own
    rw [readPaths, readPaths]
    refine (readPath_concur key related).bind fun first first' hf => ?_
    refine ih.bind fun later later' hl => ?_
    exact .done (List.rel_append hf hl)

/-- **Documents that are alike have the same operations**, in the same groups and besides schemas
that say the same. -/
theorem grouped_concur {paths paths' : Members} (tags : List Value)
    (h : MembersAlike (fun _ => MapAlike (under itemParts)) paths paths') :
    Concur (List.Forall₂ TagGroup.Resembles) (grouped paths tags) (grouped paths' tags) := by
  refine .same_bind _ fun declarations => ?_
  refine (readPaths_concur h).bind fun operations operations' ho => .done ?_
  refine List.forall₂_map_left_iff.mpr (List.forall₂_map_right_iff.mpr ?_)
  refine forall₂_refl (fun declaration => ⟨rfl, rfl, ?_⟩) declarations
  exact List.rel_filter (fun operation operation' same => by simp [same.tag]) ho

end Operation

/-! ## Signatures -/

/-- Signatures that differ in the schemas of the operation only. -/
structure Signature.Resembles (signature signature' : Signature) : Prop where
  operation : signature.operation.Resembles signature'.operation
  methodName : signature.methodName = signature'.methodName
  body : signature.body = signature'.body
  parameters : signature.parameters = signature'.parameters
  response : signature.response = signature'.response

theorem Operation.Resembles.text?_eq {operation operation' : Operation}
    (h : operation.Resembles operation') (key : String)
    (plain : under operationParts (.text key) = Eq) :
    operation.text? key = operation'.text? key := by
  rw [Operation.text?, Operation.text?, h.members.getD_eq key plain]

theorem Operation.Resembles.label_eq {operation operation' : Operation}
    (h : operation.Resembles operation') : operation.label = operation'.label := by
  rw [Operation.label, Operation.label, h.method, h.path]

namespace Signature
variable {registry : Registry} {method : String} {operation operation' : Operation}

/-- The value that stands where content has its schema. -/
def jsonMember : Value → Value
  | .map contents =>
    match Members.getD "application/json" contents with
    | .map media => Members.getD "schema" media
    | _ => .null
  | _ => .null

theorem jsonSchema_eq (owner : String) (content : Value) :
    jsonSchema owner content =
      if (jsonMember content).isMap then .ok (jsonMember content)
      else .error (.operation (.missingJsonSchema owner)) := rfl

theorem jsonMember_restyled {content content' : Value}
    (h : MapAlike (fun _ => MediaAlike) content content') :
    Restyled .schema (jsonMember content) (jsonMember content') := by
  rcases h.cases (fun _ => .same) with ⟨contents, contents', rfl, rfl, alike⟩ | ⟨rfl, -⟩
  · have media : MediaAlike (Members.getD "application/json" contents)
        (Members.getD "application/json" contents') := alike.getD_rel "application/json" (.same _)
    rw [jsonMember, jsonMember]
    generalize Members.getD "application/json" contents = v,
      Members.getD "application/json" contents' = v' at media ⊢
    cases media with
    | same => exact .same _
    | map typed => exact typed.getD_rel "schema" (.same _)
  · exact .same _

theorem jsonSchema_concur (owner : String) {content content' : Value}
    (h : MapAlike (fun _ => MediaAlike) content content') :
    Concur (Restyled .schema) (jsonSchema owner content) (jsonSchema owner content') := by
  have schema := jsonMember_restyled h
  rw [jsonSchema_eq, jsonSchema_eq, schema.isMap_eq]
  split
  · exact .done schema
  · exact .fail _ _

theorem bodySpec_concur (place : Place) (owner : String) (description : Value)
    {content content' : Value} (h : MapAlike (fun _ => MediaAlike) content content') :
    Noted.Concur Eq (bodySpec registry place owner content description)
      (bodySpec registry place owner content' description) := by
  refine (Noted.Concur.ofExcept (jsonSchema_concur owner h)).bind fun schema schema' restyled => ?_
  exact (resolveSlot_concur restyled place true).eq_bind fun _ => .done rfl

theorem bodyParts_same : ∀ key v,
    under [("content", MapAlike fun _ => MediaAlike)] key v v :=
  under_same (by simp [MapAlike.same])

theorem requestBody_concur (h : operation.Resembles operation') :
    Noted.Concur Eq (requestBody registry method operation)
      (requestBody registry method operation') := by
  have body : BodyAlike (operation.members.getD "requestBody")
    (operation'.members.getD "requestBody") := h.members.getD_rel "requestBody" (.same _)
  unfold requestBody
  generalize operation.members.getD "requestBody" = v,
    operation'.members.getD "requestBody" = v' at body ⊢
  rcases body.cases bodyParts_same with ⟨members, members', rfl, rfl, alike⟩ | ⟨rfl, -⟩
  · simp only [alike.has_eq "$ref", alike.getD_eq "required" rfl, alike.getD_eq "description" rfl]
    split
    · exact .fail _ _
    · split
      · exact (bodySpec_concur _ _ _ (alike.getD_rel "content" (.same _))).eq_bind
          fun _ => .done rfl
      · exact .fail _ _
  · exact .same _ fun _ => rfl

/-- The responses by status, each like its counterpart. -/
theorem byStatus_alike {responses responses' : Members}
    (h : MembersAlike (fun _ => BodyAlike) responses responses') :
    MembersAlike (fun _ => BodyAlike) (byStatus responses) (byStatus responses') := by
  unfold byStatus
  refine List.rel_foldl ?_ .nil h
  intro seen seen' earlier member member' own
  obtain ⟨key, v⟩ := member
  obtain ⟨_, v'⟩ := member'
  obtain ⟨rfl, related⟩ := own
  have found : ∀ statuses : List (String × Value), (statuses.any fun s => s.1 == key.plain) =
      (statuses.map Prod.fst).any fun status => status == key.plain := by
    intro statuses
    rw [List.any_map]
    rfl
  simp only [found, earlier.map_fst]
  split
  · refine List.forall₂_map_left_iff.mpr (List.forall₂_map_right_iff.mpr (earlier.imp ?_))
    rintro ⟨status, w⟩ ⟨_, w'⟩ ⟨rfl, same⟩
    cases status == key.plain with
    | true => exact ⟨rfl, related⟩
    | false => exact ⟨rfl, same⟩
  · exact List.rel_append earlier (.cons ⟨rfl, related⟩ .nil)

theorem lookup_rel {R : Value → Value → Prop} {entries entries' : List (String × Value)}
    (h : MembersAlike (fun _ => R) entries entries') (name : String) :
    Option.Rel R (entries.lookup name) (entries'.lookup name) := by
  induction h with
  | nil => exact .none
  | @cons entry entry' _ _ own _ ih =>
    obtain ⟨key, v⟩ := entry
    obtain ⟨_, v'⟩ := entry'
    obtain ⟨rfl, related⟩ := own
    rw [List.lookup_cons, List.lookup_cons]
    cases name == key with
    | true => exact .some related
    | false => exact ih

theorem responseBody_concur (h : operation.Resembles operation') :
    Noted.Concur Eq (responseBody registry method operation)
      (responseBody registry method operation') := by
  have listed : MapAlike (fun _ => BodyAlike) (operation.members.getD "responses")
    (operation'.members.getD "responses") := h.members.getD_rel "responses" (.same _)
  unfold responseBody
  generalize operation.members.getD "responses" = v,
    operation'.members.getD "responses" = v' at listed ⊢
  rcases listed.cases (fun _ => .same) with ⟨responses, responses', rfl, rfl, alike⟩ | ⟨rfl, -⟩
  · have statuses := byStatus_alike alike
    have names : ((byStatus responses).map fun response => response.1) =
        (byStatus responses').map fun response => response.1 := statuses.map_fst
    have ok : BodyAlike (((byStatus responses).lookup "200").getD .null)
        (((byStatus responses').lookup "200").getD .null) := by
      have found := lookup_rel statuses "200"
      generalize (byStatus responses).lookup "200" = v, (byStatus responses').lookup "200" = v'
        at found ⊢
      cases found with
      | some related => exact related
      | none => exact .same _
    simp only [names]
    generalize ((byStatus responses).lookup "200").getD .null = v,
      ((byStatus responses').lookup "200").getD .null = v' at ok ⊢
    rcases ok.cases bodyParts_same with ⟨members, members', rfl, rfl, parts⟩ | ⟨rfl, -⟩
    · simp only [parts.has_eq "$ref", parts.getD_eq "description" rfl]
      split
      · exact .fail _ _
      · split
        · exact .fail _ _
        · have content : MapAlike (fun _ => MediaAlike) (Members.getD "content" members)
            (Members.getD "content" members') := parts.getD_rel "content" (.same _)
          generalize Members.getD "content" members = v, Members.getD "content" members' = v'
            at content ⊢
          cases content with
          | same => exact .same _ fun _ => rfl
          | map related =>
            exact (bodySpec_concur _ _ _ (.map related)).eq_bind fun _ => .done rfl
    · exact .same _ fun _ => rfl
  · exact .same _ fun _ => rfl

theorem refuseArray_concur {schema schema' : Value} (restyled : Restyled .schema schema schema')
    (place : Place) : Concur Eq (refuseArray place schema) (refuseArray place schema') := by
  refine (classify_concur place restyled).bind fun shape shape' alike => ?_
  cases alike with
  | same => exact .same _ fun _ => rfl
  | array => exact .fail _ _
  | _ => exact .done rfl

/-- Reading the value of a parameter is tried before, which notes nothing. -/
theorem probed_concur {schema schema' : Value} (restyled : Restyled .schema schema schema')
    (place : Place) (required : Bool) (name : String) (location : ParameterLocation)
    (description : Option String) :
    Noted.Concur Eq
      (do
        Noted.silent (readable registry place schema required name)
        let slot ← resolveSlot registry place schema required
        return ⟨name, location, slot, description, place⟩ : Emission ParameterSpec)
      (do
        Noted.silent (readable registry place schema' required name)
        let slot ← resolveSlot registry place schema' required
        return ⟨name, location, slot, description, place⟩) := by
  have slot : Noted.Concur Eq (resolveSlot registry place schema required)
      (resolveSlot registry place schema' required) := resolveSlot_concur restyled place required
  have probed : Noted.Concur Eq (readable registry place schema required name)
      (readable registry place schema' required name) :=
    slot.eq_bind fun _ => .same _ fun _ => rfl
  exact probed.silent.eq_bind fun _ => slot.eq_bind fun _ => .done rfl

theorem parameterSpec_concur {parameter parameter' : Members}
    (h : MembersAlike (under parameterParts) parameter parameter') :
    Noted.Concur Eq (parameterSpec registry method parameter)
      (parameterSpec registry method parameter') := by
  have name : parameterName method parameter = parameterName method parameter' := by
    rw [parameterName, parameterName, h.getD_eq "name" rfl]
  have location : ∀ name, parameterLocation method name parameter =
      parameterLocation method name parameter' := by
    intro name
    rw [parameterLocation, parameterLocation, h.getD_eq "in" rfl]
  have schema : Restyled .schema (parameter.getD "schema") (parameter'.getD "schema") :=
    h.getD_rel "schema" (.same _)
  unfold parameterSpec
  simp only [name, location, h.getD_eq "required" rfl, h.getD_eq "description" rfl, schema.isMap_eq]
  refine .same_bind _ fun name => .same_bind _ fun location => ?_
  -- the first split is on whether a value has to be given
  split
  all_goals
    split
    · exact .fail _ _
    · split
      · exact .fail _ _
      · split
        · exact (Noted.Concur.ofExcept (refuseArray_concur schema _)).eq_bind
            fun _ => probed_concur schema _ _ _ _ _
        · exact probed_concur schema _ _ _ _ _

theorem parameterSpecs_concur {parameters parameters' : List Members}
    (h : Operation.AllParametersAlike parameters parameters') :
    Noted.Concur Eq (parameterSpecs registry method parameters)
      (parameterSpecs registry method parameters') := by
  induction h with
  | nil => exact .done rfl
  | cons own _ ih =>
    rw [parameterSpecs, parameterSpecs]
    exact (parameterSpec_concur own).eq_bind fun _ => ih.eq_bind fun _ => .done rfl

theorem matchingParameters_concur (h : operation.Resembles operation') :
    Noted.Concur Eq (matchingParameters registry method operation)
      (matchingParameters registry method operation') := by
  unfold matchingParameters
  rw [h.url, h.path]
  exact (parameterSpecs_concur h.parameters).eq_bind fun _ => .same _ fun _ => rfl

theorem ofOperation_concur (h : operation.Resembles operation') :
    Noted.Concur Signature.Resembles (ofOperation registry method operation)
      (ofOperation registry method operation') :=
  (requestBody_concur h).eq_bind fun _ => (matchingParameters_concur h).eq_bind fun _ =>
    (responseBody_concur h).eq_bind fun _ => .done ⟨h, rfl, rfl, rfl, rfl⟩

theorem methodNameOf_eq (tag : Identifier) (h : operation.Resembles operation') :
    Concur Eq (methodNameOf tag operation) (methodNameOf tag operation') := by
  rw [methodNameOf, methodNameOf, h.text?_eq "operationId" rfl, h.label_eq]
  exact .same _ fun _ => rfl

theorem ofOperations_concur (tag : Identifier) (tagName : String) (seen : List (String × String))
    {operations operations' : List Operation}
    (h : List.Forall₂ Operation.Resembles operations operations') :
    Noted.Concur (List.Forall₂ Signature.Resembles)
      (ofOperations registry tag tagName seen operations)
      (ofOperations registry tag tagName seen operations') := by
  induction h generalizing seen with
  | nil => exact .done .nil
  | cons own _ ih =>
    rw [ofOperations, ofOperations, own.label_eq]
    refine (Noted.Concur.ofExcept (methodNameOf_eq tag own)).eq_bind fun name => ?_
    split
    · exact .fail _ _
    · refine (ofOperation_concur own).bind fun signature signature' hs => ?_
      exact (ih _).bind fun later later' hl => .done (.cons hs hl)

/-- **Operations that say the same have the same signatures.** -/
theorem ofGroup_concur {group group' : TagGroup} (h : group.Resembles group') :
    Noted.Concur (List.Forall₂ Signature.Resembles) (ofGroup registry group)
      (ofGroup registry group') := by
  rw [ofGroup, ofGroup, h.name]
  exact .same_bind _ fun tag => ofOperations_concur tag group'.name [] h.operations

end Signature
end TypedApi
