import Mathlib.Data.List.Nodup
import Mathlib.Data.List.Perm.Basic
import TypedApi.Operation.Operation
import TypedApi.Proofs.Noted

/-! # Every operation in one group

A path item has operations among its members: those whose key is a method of HTTP in lower case
(`MethodMember.ofPaths` lists them in document order).  A successful reading has one operation for
each of them, with the data of its member (`Operation.readPaths_forall₂`), and the groups of the
declared tags share them out: each group has those that list its tag, in document order, and
together the groups have every operation once (`Operation.grouping_of_grouped`).
-/
namespace TypedApi

namespace Method

theorem ofKey?_eq_some {key : Scalar} {method : Method} (h : ofKey? key = some method) :
    key = .text method.key := by
  cases key with
  | text key =>
    have found : all.find? (fun m => m.key == key) = some method := h
    have same := List.find?_some found
    rw [beq_iff_eq.mp same]
  | _ => cases h

theorem ofKey?_eq_none {key : String} (h : ofKey? (.text key) = none) :
    key ∉ all.map Method.key := by
  intro listed
  obtain ⟨method, member, rfl⟩ := List.mem_map.mp listed
  exact absurd (List.find?_eq_none.mp h method member) (by simp)

theorem mem_all (method : Method) : method ∈ all := by
  cases method <;> decide

/-- The name of a method is its key in capitals. -/
theorem name_eq (method : Method) : method.name = method.key.toUpper := by
  cases method <;> decide +kernel

end Method

/-! ## The operations that a document has -/

/-- A member of a path item whose key is a method of HTTP in lower case. -/
structure MethodMember where
  path : Scalar
  /-- The members of the path item. -/
  item : Members
  key : String
  value : Value

namespace MethodMember

/-- The method member that a member of a path item is. -/
def of? (path : Scalar) (item : Members) : Scalar × Value → Option MethodMember
  | (.text key, value) =>
    if key ∈ Method.all.map Method.key then some ⟨path, item, key, value⟩ else none
  | _ => none

theorem of?_eq_none {path key : Scalar} (h : Method.ofKey? key = none) (item : Members)
    (value : Value) : of? path item (key, value) = none := by
  cases key with
  | text key => exact if_neg (Method.ofKey?_eq_none h)
  | _ => rfl

theorem of?_eq_some {path key : Scalar} {method : Method} (h : Method.ofKey? key = some method)
    (item : Members) (value : Value) :
    of? path item (key, value) = some ⟨path, item, method.key, value⟩ := by
  cases Method.ofKey?_eq_some h
  exact if_pos (List.mem_map_of_mem method.mem_all)

/-- The method members of a path item; a value that is no mapping has none. -/
def ofItem (path : Scalar) : Value → List MethodMember
  | .map item => item.filterMap (of? path item)
  | _ => []

/-- The method members of a paths object, in document order. -/
def ofPaths (paths : Members) : List MethodMember :=
  paths.flatMap fun entry => ofItem entry.1 entry.2

/-- The tag that a method member lists, if it lists one tag only. -/
def onlyTag? (member : MethodMember) : Option String :=
  match member.value with
  | .map members =>
    match Members.getD "tags" members with
    | .list [tag] => tag.text?
    | _ => none
  | _ => none

end MethodMember

/-! ## What is read from a member -/

/-- A value lists parameter objects; the absent value lists none. -/
def ListsParameters (value : Value) (parameters : List Members) : Prop :=
  (value = .null ∧ parameters = []) ∨ value = .list (parameters.map .map)

/-- Whether two parameter objects have the same name and location. -/
def samePlace (a b : Members) : Bool :=
  match a.getD "name", b.getD "name", a.getD "in", b.getD "in" with
  | .scalar aName, .scalar bName, .scalar aIn, .scalar bIn => aName.same bName && aIn.same bIn
  | _, _, _, _ => false

/-- Parameters are those of a path without those that the operation redefines, and then those of
the operation. -/
def MergedFrom (shared own parameters : List Members) : Prop :=
  parameters = (shared.filter fun parameter => !own.any (samePlace parameter)) ++ own

/-- An operation is what a method member says. -/
structure ReadFrom (member : MethodMember) (operation : Operation) : Prop where
  path : member.path = .text operation.path
  method : operation.method.name = member.key.toUpper
  url : PathTemplate.parse operation.path = .ok operation.url
  object : member.value = .map operation.members
  tag : member.onlyTag? = some operation.tag
  parameters : ∃ shared own, ListsParameters (member.item.getD "parameters") shared ∧
    ListsParameters (operation.members.getD "parameters") own ∧
    MergedFrom shared own operation.parameters

namespace Operation

/-! ## Parameters -/

theorem readParameter_eq_ok {owner : String} {value : Value} {parameter : Members}
    (h : readParameter owner value = .ok parameter) : value = .map parameter := by
  cases value with
  | map members =>
    rw [readParameter] at h
    split at h
    · cases h
    · cases h
      rfl
  | _ => cases h

theorem listsParameters_of_readParameters {owner : String} {value : Value}
    {parameters : List Members} (h : readParameters owner value = .ok parameters) :
    ListsParameters value parameters := by
  unfold readParameters at h
  split at h
  · cases h
    exact .inl ⟨rfl, rfl⟩
  · next items =>
    have same : List.Forall₂ Eq items (parameters.map .map) :=
      List.forall₂_map_right_iff.mpr
        ((Except.forall₂_of_mapM h).imp fun _ _ => readParameter_eq_ok)
    rw [List.forall₂_eq_eq_eq] at same
    exact .inr (congrArg Value.list same)
  · cases h

theorem parameterKey_eq_ok {parameter : Members} {key : Scalar × Scalar}
    (h : parameterKey parameter = .ok key) :
    parameter.getD "name" = .scalar key.1 ∧ parameter.getD "in" = .scalar key.2 := by
  unfold parameterKey at h
  split at h
  · next name location hn hl =>
    cases h
    exact ⟨hn, hl⟩
  · cases h

theorem sameKey_eq {a b : Members} {aKey bKey : Scalar × Scalar} (ha : parameterKey a = .ok aKey)
    (hb : parameterKey b = .ok bKey) : sameKey aKey bKey = samePlace a b := by
  obtain ⟨aName, aIn⟩ := parameterKey_eq_ok ha
  obtain ⟨bName, bIn⟩ := parameterKey_eq_ok hb
  simp only [samePlace, aName, aIn, bName, bIn, sameKey]

theorem any_sameKey {own : List Members} {ownKeys : List (Scalar × Scalar)}
    (keyed : List.Forall₂ (fun parameter key => parameterKey parameter = .ok key) own ownKeys)
    {parameter : Members} {key : Scalar × Scalar} (h : parameterKey parameter = .ok key) :
    ownKeys.any (sameKey key) = own.any (samePlace parameter) := by
  induction keyed with
  | nil => rfl
  | cons first _ ih => rw [List.any_cons, List.any_cons, sameKey_eq h first, ih]

theorem filter_zip {own shared : List Members} {ownKeys sharedKeys : List (Scalar × Scalar)}
    (ownKeyed : List.Forall₂ (fun parameter key => parameterKey parameter = .ok key) own ownKeys)
    (keyed : List.Forall₂ (fun parameter key => parameterKey parameter = .ok key)
      shared sharedKeys) :
    (((shared.zip sharedKeys).filter fun p => !ownKeys.any (sameKey p.2)).map Prod.fst) =
      shared.filter fun parameter => !own.any (samePlace parameter) := by
  induction keyed with
  | nil => rfl
  | @cons parameter key shared sharedKeys first _ ih =>
    rw [List.zip_cons_cons, List.filter_cons, List.filter_cons, any_sameKey ownKeyed first]
    split
    · rw [List.map_cons, ih]
    · exact ih

theorem mergedFrom_of_mergeParameters {shared own parameters : List Members}
    (h : mergeParameters shared own = .ok parameters) : MergedFrom shared own parameters := by
  obtain ⟨ownKeys, ownKeyed, h⟩ := Except.bind_eq_ok.mp h
  obtain ⟨sharedKeys, keyed, h⟩ := Except.bind_eq_ok.mp h
  cases h
  rw [MergedFrom, ← filter_zip (Except.forall₂_of_mapM ownKeyed) (Except.forall₂_of_mapM keyed)]

/-! ## Reading -/

section Reading
variable {declared : List String} {path : String} {url : PathTemplate} {shared : List Members}

theorem onlyTag_eq_ok {label name : String} {members : Members}
    (h : onlyTag label members = .ok name) :
    ∃ tag : Value, members.getD "tags" = .list [tag] ∧ tag.text? = some name := by
  unfold onlyTag at h
  simp only at h
  split at h
  · next tag listed =>
    split at h
    · next text =>
      cases h
      exact ⟨tag, listed, text⟩
    · cases h
  · cases h

/-- Reading a method member gives what it says, and its tag is declared. -/
theorem read_eq_ok {method : Method} {item : Members} {value : Value} {operation : Operation}
    (parsed : PathTemplate.parse path = .ok url)
    (listed : ListsParameters (item.getD "parameters") shared)
    (h : read declared path url shared method value = .ok operation) :
    ReadFrom ⟨.text path, item, method.key, value⟩ operation ∧ operation.tag ∈ declared := by
  cases value with
  | map members =>
    obtain ⟨_, -, h⟩ := Except.bind_eq_ok.mp h
    obtain ⟨tag, htag, h⟩ := Except.bind_eq_ok.mp h
    obtain ⟨list, only, text⟩ := onlyTag_eq_ok htag
    split at h
    · cases h
    next known =>
    obtain ⟨own, ho, h⟩ := Except.bind_eq_ok.mp h
    obtain ⟨parameters, hm, h⟩ := Except.bind_eq_ok.mp h
    cases h
    refine ⟨⟨rfl, method.name_eq, parsed, rfl, ?_, ?_⟩, by simpa using known⟩
    · simp only [MethodMember.onlyTag?, only, text]
    · exact ⟨shared, own, listed, listsParameters_of_readParameters ho,
        mergedFrom_of_mergeParameters hm⟩
  | _ => cases h

/-- One operation is read for each method member of a path item, in order. -/
theorem readMembers_forall₂ {item members : Members} {operations : List Operation}
    (parsed : PathTemplate.parse path = .ok url)
    (listed : ListsParameters (item.getD "parameters") shared)
    (h : readMembers declared path url shared members = .ok operations) :
    List.Forall₂ (fun member operation => ReadFrom member operation ∧ operation.tag ∈ declared)
      (members.filterMap (MethodMember.of? (.text path) item)) operations := by
  fun_induction readMembers declared path url shared members generalizing operations with
  | case1 =>
    cases h
    exact .nil
  | case2 key value rest no ih =>
    rw [List.filterMap_cons_none (MethodMember.of?_eq_none no item value)]
    exact ih h
  | case3 key value rest method yes ih =>
    obtain ⟨operation, ho, h⟩ := Except.bind_eq_ok.mp h
    obtain ⟨later, hl, h⟩ := Except.bind_eq_ok.mp h
    cases h
    rw [List.filterMap_cons_some (MethodMember.of?_eq_some yes item value)]
    exact .cons (read_eq_ok parsed listed ho) (ih hl)

theorem readPath_forall₂ {key : Scalar} {item : Value} {operations : List Operation}
    (h : readPath declared key item = .ok operations) :
    List.Forall₂ (fun member operation => ReadFrom member operation ∧ operation.tag ∈ declared)
      (MethodMember.ofItem key item) operations := by
  unfold readPath at h
  split at h
  · obtain ⟨url, parsed, h⟩ := Except.bind_eq_ok.mp h
    obtain ⟨shared, hs, h⟩ := Except.bind_eq_ok.mp h
    exact readMembers_forall₂ parsed (listsParameters_of_readParameters hs) h
  · cases h
  · cases h

/-- One operation is read for each method member of a document, in order. -/
theorem readPaths_forall₂ {paths : Members} {operations : List Operation}
    (h : readPaths declared paths = .ok operations) :
    List.Forall₂ (fun member operation => ReadFrom member operation ∧ operation.tag ∈ declared)
      (MethodMember.ofPaths paths) operations := by
  fun_induction readPaths declared paths generalizing operations with
  | case1 =>
    cases h
    exact .nil
  | case2 key item rest ih =>
    obtain ⟨first, hf, h⟩ := Except.bind_eq_ok.mp h
    obtain ⟨later, hl, h⟩ := Except.bind_eq_ok.mp h
    cases h
    exact List.rel_append (readPath_forall₂ hf) (ih hl)

end Reading

/-! ## Declarations -/

/-- The name that the declaration of a tag gives. -/
def declaredName? : Value → Option String
  | .map members => (Members.getD "name" members).text?
  | _ => none

theorem readTag_name {tag : Value} {declaration : TagDeclaration}
    (h : readTag tag = .ok declaration) : declaredName? tag = some declaration.name := by
  cases tag with
  | map members =>
    simp only [readTag] at h
    split at h
    · next name text =>
      split at h
      · cases h
      · obtain ⟨_, -, h⟩ := Except.bind_eq_ok.mp h
        cases h
        exact text
    · cases h
  | _ => cases h

/-- The declared names are those of the tags in order, are distinct, and are new. -/
theorem readTags_names {seen : List String} {tags : List Value}
    {declarations : List TagDeclaration} (h : readTags seen tags = .ok declarations) :
    tags.map declaredName? = declarations.map (some ·.name) ∧
      (declarations.map (·.name)).Nodup ∧
      ∀ declaration ∈ declarations, declaration.name ∉ seen := by
  fun_induction readTags seen tags generalizing declarations with
  | case1 =>
    cases h
    exact ⟨rfl, List.nodup_nil, by simp⟩
  | case2 seen tag rest ih =>
    obtain ⟨first, hf, h⟩ := Except.bind_eq_ok.mp h
    split at h
    · cases h
    next new =>
    obtain ⟨later, hl, h⟩ := Except.bind_eq_ok.mp h
    cases h
    obtain ⟨names, distinct, unseen⟩ := ih first hl
    refine ⟨?_, ?_, ?_⟩
    · rw [List.map_cons, List.map_cons, readTag_name hf, names]
    · refine List.nodup_cons.mpr ⟨fun again => ?_, distinct⟩
      obtain ⟨declaration, member, same⟩ := List.mem_map.mp again
      exact unseen declaration member (same ▸ List.mem_cons_self)
    · intro declaration member
      rcases List.mem_cons.mp member with rfl | member
      · simpa using new
      · exact fun h => unseen declaration member (List.mem_cons_of_mem _ h)

/-! ## Groups -/

/-- Items are shared out among distinct names: each has one place under its name. -/
theorem flatMap_filter_perm {α : Type} (name : α → String) {names : List String} {items : List α}
    (distinct : names.Nodup) (known : ∀ item ∈ items, name item ∈ names) :
    (names.flatMap fun n => items.filter fun item => name item == n).Perm items := by
  induction names generalizing items with
  | nil =>
    cases items with
    | nil => exact .nil
    | cons item rest => exact absurd (known item List.mem_cons_self) List.not_mem_nil
  | cons first rest ih =>
    obtain ⟨new, distinct⟩ := List.nodup_cons.mp distinct
    -- those under later names are among the items that are not under the first
    have later : (rest.flatMap fun n => items.filter fun item => name item == n) =
        rest.flatMap fun n =>
          (items.filter fun item => !(name item == first)).filter fun item => name item == n := by
      refine List.flatMap_congr fun n member => ?_
      rw [List.filter_filter]
      refine List.filter_congr fun item _ => ?_
      by_cases under : name item = n
      · have other : n ≠ first := fun same => new (same ▸ member)
        simp [under, other]
      · simp [under]
    rw [List.flatMap_cons, later]
    refine .trans (.append_left _ (ih distinct fun item member => ?_)) (List.filter_append_perm _ _)
    obtain ⟨member, other⟩ := List.mem_filter.mp member
    exact (List.mem_cons.mp (known item member)).resolve_left (by simpa using other)

/-- The groups are those of the declared tags, and share out the operations of the document. -/
structure Grouping (paths : Members) (tags : List Value) (groups : List TagGroup) : Prop where
  /-- There is one group for each declared tag, in the order of the declarations. -/
  names : tags.map declaredName? = groups.map (some ·.name)
  distinct : (groups.map (·.name)).Nodup
  /-- A group has the operations that list its tag only, in document order. -/
  filed : ∀ group ∈ groups,
    List.Forall₂ ReadFrom
      ((MethodMember.ofPaths paths).filter fun member => member.onlyTag? == some group.name)
      group.operations
  /-- Every method member has one group. -/
  home : ∀ member ∈ MethodMember.ofPaths paths,
    ∃! group, group ∈ groups ∧ member.onlyTag? = some group.name
  /-- The groups together have one operation for each method member. -/
  complete : ∃ operations, List.Forall₂ ReadFrom (MethodMember.ofPaths paths) operations ∧
    (groups.flatMap (·.operations)).Perm operations

/-- The groups have the declared names in order, and these are distinct. -/
theorem grouped_names {paths : Members} {tags : List Value} {groups : List TagGroup}
    (h : grouped paths tags = .ok groups) :
    tags.map declaredName? = groups.map (some ·.name) ∧ (groups.map (·.name)).Nodup := by
  obtain ⟨declarations, ht, h⟩ := Except.bind_eq_ok.mp h
  obtain ⟨operations, -, h⟩ := Except.bind_eq_ok.mp h
  cases h
  obtain ⟨names, distinct, -⟩ := readTags_names ht
  simp only [List.map_map]
  exact ⟨names, distinct⟩

/-- A successful grouping has every operation of the document in one group, once. -/
theorem grouping_of_grouped {paths : Members} {tags : List Value} {groups : List TagGroup}
    (h : grouped paths tags = .ok groups) : Grouping paths tags groups := by
  obtain ⟨names, apart⟩ := grouped_names h
  obtain ⟨declarations, ht, h⟩ := Except.bind_eq_ok.mp h
  obtain ⟨operations, ho, h⟩ := Except.bind_eq_ok.mp h
  cases h
  have distinct := (readTags_names ht).2.1
  have read := readPaths_forall₂ ho
  refine ⟨names, apart, ?filed, ?home, operations, read.imp fun _ _ h => h.1, ?complete⟩
  case filed =>
    intro group member
    obtain ⟨declaration, -, rfl⟩ := List.mem_map.mp member
    refine List.rel_filter (fun m operation same => ?_) (read.imp fun _ _ h => h.1)
    simp [same.tag]
  case home =>
    intro member listed
    obtain ⟨operation, -, same, known⟩ := exists_of_mem_left read listed
    obtain ⟨declaration, declared, named⟩ := List.mem_map.mp known
    refine ⟨_, ⟨List.mem_map_of_mem declared, same.tag.trans (congrArg some named.symm)⟩, ?_⟩
    rintro group ⟨grouped, tag⟩
    obtain ⟨other, also, rfl⟩ := List.mem_map.mp grouped
    have one : other.name = declaration.name :=
      (Option.some.inj (tag.symm.trans same.tag)).trans named.symm
    rw [List.inj_on_of_nodup_map distinct also declared one]
  case complete =>
    rw [List.flatMap_map]
    have shared := flatMap_filter_perm Operation.tag distinct fun operation member =>
      (exists_of_mem_right read member).elim fun _ h => h.2.2
    rwa [List.flatMap_map] at shared

/-- Two paths of which the second has a parameter, a method that redefines it, and members that
are no operations. -/
def widgetPaths : Members :=
  let identifier (type : String) : Value :=
    .map [(.text "name", .text "id"), (.text "in", .text "path"),
      (.text "schema", .map [(.text "type", .text type)])]
  let tagged (tag : String) : Value := .list [.text tag]
  [(.text "/users", .map [(.text "get", .map [(.text "tags", tagged "users")])]),
    (.text "/widgets/\x7bid\x7d", .map
      [(.text "summary", .text "A widget."),
        (.text "parameters", .list [identifier "string"]),
        (.text "get", .map [(.text "tags", tagged "widgets")]),
        (.text "put", .map
          [(.text "tags", tagged "users"), (.text "parameters", .list [identifier "integer"])]),
        (.text "x-internal", .map [])])]

/-- Tags of which the last has no operations. -/
def widgetTags : List Value :=
  ["widgets", "users", "idle"].map fun name => .map [(.text "name", .text name)]

theorem grouping_widgets :
    ∃ groups, grouped widgetPaths widgetTags = .ok groups ∧
      groups.map (fun group => (group.name, group.operations.map Operation.label)) =
        [("widgets", ["GET /widgets/\x7bid\x7d"]),
          ("users", ["GET /users", "PUT /widgets/\x7bid\x7d"]), ("idle", [])] ∧
      Grouping widgetPaths widgetTags groups := by
  have filed : (grouped widgetPaths widgetTags).toOption.map
      (·.map fun group => (group.name, group.operations.map Operation.label)) =
        some [("widgets", ["GET /widgets/\x7bid\x7d"]),
          ("users", ["GET /users", "PUT /widgets/\x7bid\x7d"]), ("idle", [])] := by
    decide +kernel
  obtain ⟨groups, found, labels⟩ := Option.map_eq_some_iff.mp filed
  have read := Except.eq_ok_of_toOption found
  exact ⟨groups, read, labels, grouping_of_grouped read⟩

end Operation
end TypedApi
