import Mathlib.Data.List.Nodup
import Mathlib.Data.List.Perm.Basic
import TypedApi.Generation
import TypedApi.Proofs.Operation.Grouping

/-! # The order of the declared tags

Tags may be declared in any order (`Generation.generate_reordered`).  Reading succeeds for one order
exactly if it does for another, because what it asks for is that the names differ
(`Operation.readTags_eq_ok`); operations only ask whether their tag is declared
(`Operation.readPaths_congr`).  The groups then come in the order of the declarations, and sorting
removes that, since the groups have different names (`Text.sortedBy_eq_of_perm`).
-/
namespace TypedApi

/-- The order by keys does not depend on that in which the elements were given, if the keys differ. -/
theorem Text.sortedBy_eq_of_perm {α : Type} (key : α → String) {as bs : List α}
    (distinct : (as.map key).Nodup) (h : as.Perm bs) : sortedBy key as = sortedBy key bs := by
  refine List.Perm.eq_of_pairwise (fun a b ha hb ab ba => ?_) (pairwise_sortedBy key as)
    (pairwise_sortedBy key bs) (((perm_sortedBy key as).trans h).trans (perm_sortedBy key bs).symm)
  have listed := (perm_sortedBy key as).mem_iff.mp ha
  have listed' := h.mem_iff.mpr ((perm_sortedBy key bs).mem_iff.mp hb)
  exact List.inj_on_of_nodup_map distinct listed listed'
    (String.toList_inj.mp (precedes_antisymm ab ba))

/-- A traversal of the items in another order has the outcomes in another order. -/
theorem Except.mapM_of_perm {ε α β : Type} {f : α → Except ε β} {as as' : List α} {bs : List β}
    (h : as.mapM f = .ok bs) (reordered : as.Perm as') :
    ∃ bs', as'.mapM f = .ok bs' ∧ bs.Perm bs' := by
  obtain ⟨bs', outcomes, perm⟩ := List.perm_comp_forall₂ reordered.symm (Except.forall₂_of_mapM h)
  exact ⟨bs', Except.mapM_of_forall₂ outcomes, perm.symm⟩

theorem Scalar.same_text {key : Scalar} {name : String} :
    key.same (.text name) = true ↔ key = .text name := by
  cases key with
  | float x => cases h : x.toInt? <;> simp [same, number?, h]
  | _ => simp [same, number?]

/-- A member that is set is found by its name, and every other member is found as before. -/
theorem Members.get?_insert (key name : String) (value : Value) (members : Members) :
    get? key (insert (.text name) value members) =
      if name = key then some value else get? key members := by
  induction members with
  | nil => simp [insert, get?]
  | cons member rest ih =>
    obtain ⟨k, v⟩ := member
    rw [insert]
    by_cases there : k.same (.text name) = true
    · rw [if_pos there, get?, get?]
      cases Scalar.same_text.mp there
      by_cases same : name = key <;> simp [same]
    · rw [if_neg there, get?, get?, ih]
      by_cases found : k = .text key
      · have other : ¬ name = key := by
          rintro rfl
          exact there (Scalar.same_text.mpr found)
        rw [if_pos found, if_pos found, if_neg other]
      · rw [if_neg found, if_neg found]

namespace Operation

/-! ## Declarations in another order -/

theorem mapM_of_readTags {seen : List String} {tags : List Value}
    {declarations : List TagDeclaration} (h : readTags seen tags = .ok declarations) :
    tags.mapM readTag = .ok declarations := by
  fun_induction readTags seen tags generalizing declarations with
  | case1 =>
    cases h
    rfl
  | case2 seen tag rest ih =>
    obtain ⟨first, hf, h⟩ := Except.bind_eq_ok.mp h
    split at h
    · cases h
    obtain ⟨later, hl, h⟩ := Except.bind_eq_ok.mp h
    cases h
    rw [List.mapM_cons, hf, ih first hl]
    rfl

/-- Tags are read if each of them can be, their names differ and all are new. -/
theorem readTags_eq_ok {seen : List String} {tags : List Value}
    {declarations : List TagDeclaration} :
    readTags seen tags = .ok declarations ↔
      tags.mapM readTag = .ok declarations ∧ (declarations.map (·.name)).Nodup ∧
        ∀ declaration ∈ declarations, declaration.name ∉ seen := by
  refine ⟨fun h => ⟨mapM_of_readTags h, (readTags_names h).2⟩, ?_⟩
  rintro ⟨read, distinct, unseen⟩
  induction tags generalizing seen declarations with
  | nil =>
    cases read
    rfl
  | cons tag rest ih =>
    rw [List.mapM_cons] at read
    obtain ⟨first, hf, read⟩ := Except.bind_eq_ok.mp read
    obtain ⟨later, hl, read⟩ := Except.bind_eq_ok.mp read
    cases read
    obtain ⟨new, distinct⟩ := List.nodup_cons.mp distinct
    obtain ⟨unseenFirst, unseen⟩ := List.forall_mem_cons.mp unseen
    have unseenLater : ∀ declaration ∈ later, declaration.name ∉ first.name :: seen := by
      intro declaration member seen
      rcases List.mem_cons.mp seen with same | seen
      · exact new (List.mem_map.mpr ⟨declaration, member, same⟩)
      · exact unseen declaration member seen
    have fresh : ¬ seen.contains first.name = true := by simpa using unseenFirst
    rw [readTags, hf, Except.ok_bind, if_neg fresh]
    simp only [ih hl distinct unseenLater, Except.ok_bind, pure, Except.pure]

/-- Reading tags in another order gives their declarations in another order. -/
theorem readTags_of_perm {tags tags' : List Value} {declarations : List TagDeclaration}
    (h : readTags [] tags = .ok declarations) (reordered : tags.Perm tags') :
    ∃ declarations', readTags [] tags' = .ok declarations' ∧
      declarations.Perm declarations' := by
  obtain ⟨read, distinct, -⟩ := readTags_eq_ok.mp h
  obtain ⟨declarations', read', perm⟩ := Except.mapM_of_perm read reordered
  have distinct' := (perm.map (·.name)).nodup_iff.mp distinct
  exact ⟨declarations', readTags_eq_ok.mpr ⟨read', distinct', by simp⟩, perm⟩

/-! ## Operations under declarations in another order -/

section Declared
variable {declared declared' : List String} (same : ∀ name, name ∈ declared ↔ name ∈ declared')
include same

theorem read_congr (path : String) (url : PathTemplate) (shared : List Members) (method : Method)
    (value : Value) :
    read declared path url shared method value = read declared' path url shared method value := by
  have known : ∀ name, declared.contains name = declared'.contains name := by
    intro name
    rw [Bool.eq_iff_iff, List.contains_iff_mem, List.contains_iff_mem, same name]
  cases value with
  | map members => simp only [read, known]
  | _ => rfl

theorem readMembers_congr (path : String) (url : PathTemplate) (shared : List Members)
    (members : Members) :
    readMembers declared path url shared members =
      readMembers declared' path url shared members := by
  fun_induction readMembers declared path url shared members with
  | case1 => rfl
  | case2 key value rest no ih => rw [readMembers, no, ih]
  | case3 key value rest method yes ih =>
    rw [readMembers, yes, ih, read_congr same path url shared method value]

/-- Operations are read alike if the same tags are declared. -/
theorem readPaths_congr (paths : Members) :
    readPaths declared paths = readPaths declared' paths := by
  induction paths with
  | nil => rfl
  | cons entry rest ih =>
    obtain ⟨key, item⟩ := entry
    have first : readPath declared key item = readPath declared' key item := by
      unfold readPath
      simp only [readMembers_congr same]
    rw [readPaths, readPaths, first, ih]

end Declared

/-- The groups of tags that are declared in another order are the same groups in another order. -/
theorem grouped_of_perm {paths : Members} {tags tags' : List Value} {groups : List TagGroup}
    (h : grouped paths tags = .ok groups) (reordered : tags.Perm tags') :
    ∃ groups', grouped paths tags' = .ok groups' ∧ groups.Perm groups' := by
  obtain ⟨declarations, ht, h⟩ := Except.bind_eq_ok.mp h
  obtain ⟨operations, ho, h⟩ := Except.bind_eq_ok.mp h
  cases h
  obtain ⟨declarations', ht', perm⟩ := readTags_of_perm ht reordered
  have same : ∀ name, name ∈ declarations.map (·.name) ↔ name ∈ declarations'.map (·.name) :=
    fun name => (perm.map (·.name)).mem_iff
  rw [readPaths_congr same] at ho
  refine ⟨_, ?_, perm.map _⟩
  rw [grouped, ht', Except.ok_bind, ho]
  rfl

end Operation

/-! ## Documents that declare their tags in another order -/

/-- The document in which the given tags are declared instead. -/
def Members.withTags (tags : List Value) (document : Members) : Members :=
  Members.insert (.text "tags") (.list tags) document

namespace DocumentParts

/-- Declaring other tags changes nothing but the tags. -/
theorem ofMembers_withTags {document : Members} {parts : DocumentParts} (tags : List Value)
    (h : ofMembers document = .ok parts) :
    ofMembers (Members.withTags tags document) = .ok { parts with tags := tags } := by
  have kept : ∀ key, "tags" ≠ key →
      Members.getD key (Members.withTags tags document) = Members.getD key document := by
    intro key other
    rw [Members.getD, Members.withTags, Members.get?_insert, if_neg other, Members.getD]
  have set : Members.get? "tags" (Members.withTags tags document) = some (.list tags) := by
    rw [Members.withTags, Members.get?_insert, if_pos rfl]
  unfold ofMembers at h
  split at h
  · next components hc =>
    split at h
    · next schemas hs =>
      split at h
      · next paths hp =>
        have found : ofMembers (Members.withTags tags document) = .ok ⟨schemas, paths, tags⟩ := by
          simp only [ofMembers, kept "components" (by decide), kept "paths" (by decide), set, hc,
            hs, hp]
        split at h
        · cases h
          exact found
        · cases h
          exact found
        · cases h
      · cases h
    · cases h
  · cases h

theorem ofMembers_tags {document : Members} {parts : DocumentParts} {tags : List Value}
    (h : ofMembers document = .ok parts) (declared : document.get? "tags" = some (.list tags)) :
    parts.tags = tags := by
  unfold ofMembers at h
  rw [declared] at h
  split at h
  · split at h
    · split at h
      · cases h
        rfl
      · cases h
    · cases h
  · cases h

end DocumentParts

namespace Generation

theorem sortedGroups_of_perm {groups groups' : List TagGroup}
    (distinct : (groups.map (·.name)).Nodup) (h : groups.Perm groups') :
    sortedGroups groups = sortedGroups groups' :=
  Text.sortedBy_eq_of_perm _ distinct h

/-- A generation reads the groups of the tags in sorted order only. -/
theorem ofParts_reordered {parts : DocumentParts} {groups : List TagGroup} {tags : List Value}
    (mode : Mode) (grouped : Operation.grouped parts.paths parts.tags = .ok groups)
    (reordered : parts.tags.Perm tags) :
    ofParts mode { parts with tags := tags } = ofParts mode parts := by
  obtain ⟨groups', grouped', perm⟩ := Operation.grouped_of_perm grouped reordered
  have sorted := sortedGroups_of_perm (Operation.grouped_names grouped).2 perm
  rw [ofParts, ofParts, grouped, grouped']
  simp only [Noted.ofExcept_ok_bind, sorted]

/-- **The order of the declared tags is irrelevant.**  If a document is accepted in a mode and its
tags are declared in any other order, then it is accepted too, with the same files in the same order,
the same warnings and the same progress. -/
theorem generate_reordered {mode : Value} {document : Members} {tree : OutputTree}
    {tags tags' : List Value} (accepted : (generate mode (.map document)).result = .ok tree)
    (declared : document.get? "tags" = some (.list tags)) (reordered : tags.Perm tags') :
    (generate mode (.map (document.withTags tags'))).result = .ok tree ∧
      (generate mode (.map (document.withTags tags'))).notes =
        (generate mode (.map document)).notes := by
  obtain ⟨found, hm, h⟩ := Noted.bind_eq_ok.mp accepted
  obtain ⟨parts, hp, h⟩ := Noted.bind_eq_ok.mp h
  obtain ⟨_, -, h⟩ := Noted.bind_eq_ok.mp h
  obtain ⟨groups, hg, -⟩ := Noted.bind_eq_ok.mp h
  rw [Noted.ofExcept_result] at hm hp hg
  cases DocumentParts.ofMembers_tags hp declared
  have parts' : DocumentParts.ofDocument (.map (document.withTags tags')) =
      .ok { parts with tags := tags' } := DocumentParts.ofMembers_withTags tags' hp
  have same : generate mode (.map (document.withTags tags')) = generate mode (.map document) := by
    rw [generate, generate, hm, Noted.ofExcept_ok_bind, Noted.ofExcept_ok_bind, ofDocument,
      ofDocument, parts', hp, Noted.ofExcept_ok_bind, Noted.ofExcept_ok_bind,
      ofParts_reordered found hg reordered]
  exact ⟨same ▸ accepted, congrArg Noted.notes same⟩

/-- A document with an operation of each of two tags and a tag without operations. -/
def idleTagDocument : Members :=
  let response : Value := .map [(.text "200", .map [(.text "description", .text "Done.")])]
  let operation (tag : String) : Value :=
    .map [(.text "delete", .map [(.text "operationId", .text "removeAll"),
      (.text "summary", .text "Deletes all."), (.text "tags", .list [.text tag]),
      (.text "responses", response)])]
  [(.text "tags", .list Operation.widgetTags),
    (.text "components", .map [(.text "schemas", .map [])]),
    (.text "paths", .map [(.text "/users", operation "users"),
      (.text "/widgets", operation "widgets")])]

theorem generate_reordered_idleTag :
    ∃ tree, (generate (.text "client") (.map idleTagDocument)).result = .ok tree ∧
      tree.warnings = ["Tag 'idle' has no operations; no client file was generated"] ∧
      (generate (.text "client") (.map (idleTagDocument.withTags Operation.widgetTags.reverse))).result
        = .ok tree := by
  have warned : (generate (.text "client") (.map idleTagDocument)).result.toOption.map (·.warnings) =
      some ["Tag 'idle' has no operations; no client file was generated"] := by
    decide +kernel
  obtain ⟨tree, found, warnings⟩ := Option.map_eq_some_iff.mp warned
  have accepted := Except.eq_ok_of_toOption found
  have reordered : Operation.widgetTags.Perm Operation.widgetTags.reverse :=
    (List.reverse_perm _).symm
  exact ⟨tree, accepted, warnings, (generate_reordered accepted rfl reordered).1⟩

end Generation
end TypedApi
