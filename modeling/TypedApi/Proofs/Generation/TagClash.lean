import Mathlib.Data.List.Nodup
import TypedApi.Proofs.Generation.Drafts
import TypedApi.Proofs.Naming.Casing
import TypedApi.Proofs.Operation.Grouping

/-! # Tags that take the same name

The file and the class of a tag take a name each, and one record has the names of both.  Emission
stops exactly if a name is taken twice (`Generation.tagOutput_cases`).  A file name is hardly ever a
class name, and where it is, the two classes have one name anyway; so the tags that are refused are
those with the same file name or the same class name (`Generation.clashing_iff`).
-/
namespace TypedApi
namespace Generation

/-! ## The names that a tag takes -/

theorem mem_takenNames {tag : Identifier} {name : String} :
    name ∈ takenNames tag ↔ name = tag.kebab ∨ name = tag.upperCamel := by
  simp [takenNames]

theorem nodup_takenNames (tag : Identifier) : (takenNames tag).Nodup :=
  Code.nodup_eraseDups _

/-- Two tags share no name of a file and no name of a class. -/
def NamedApart (tag other : Identifier) : Prop :=
  tag.kebab ≠ other.kebab ∧ tag.upperCamel ≠ other.upperCamel

/-- Tags that share neither name take no common name: a file name that is a class name would be
shared. -/
theorem disjoint_takenNames_iff {raw raw' : String} {tag other : Identifier}
    (h : Identifier.ofSpaced raw = .ok tag) (h' : Identifier.ofSpaced raw' = .ok other) :
    List.Disjoint (takenNames tag) (takenNames other) ↔ NamedApart tag other := by
  constructor
  · intro disjoint
    exact ⟨fun same => disjoint (mem_takenNames.mpr (.inl rfl)) (mem_takenNames.mpr (.inl same)),
      fun same => disjoint (mem_takenNames.mpr (.inr rfl)) (mem_takenNames.mpr (.inr same))⟩
  · rintro ⟨files, classes⟩ name hn ho
    rcases mem_takenNames.mp hn with rfl | rfl <;> rcases mem_takenNames.mp ho with same | same
    · exact files same
    · exact classes (Identifier.upperCamel_eq_of_kebab_eq_upperCamel h h' same)
    · exact classes (Identifier.upperCamel_eq_of_kebab_eq_upperCamel h' h same.symm).symm
    · exact classes same

/-! ## Recording names -/

theorem lookup_eq_none_iff {taken : List (String × String)} {name : String} :
    taken.lookup name = none ↔ name ∉ taken.map Prod.fst := by
  rw [List.lookup_eq_none_iff]
  constructor
  · intro other claimed
    obtain ⟨entry, member, rfl⟩ := List.mem_map.mp claimed
    simpa using other entry member
  · intro free entry member
    rw [bne_iff_ne]
    rintro rfl
    exact free (List.mem_map_of_mem member)

/-- Distinct names are recorded if they are new; otherwise one of them is refused. -/
theorem take_cases {names : List String} (distinct : names.Nodup) (taken : List (String × String))
    (tagName : String) :
    ((∀ name ∈ names, name ∉ taken.map Prod.fst) ∧
      ∃ after, take taken tagName names = .ok after ∧
        after.map Prod.fst = names.reverse ++ taken.map Prod.fst) ∨
    ((∃ name ∈ names, name ∈ taken.map Prod.fst) ∧
      ∃ first name, take taken tagName names = .error (.naming (.tagClash first tagName name))) := by
  induction names generalizing taken with
  | nil => exact .inl ⟨by simp, taken, rfl, rfl⟩
  | cons name rest ih =>
    obtain ⟨other, distinct⟩ := List.nodup_cons.mp distinct
    rw [take]
    cases found : taken.lookup name with
    | some first =>
      have claimed : name ∈ taken.map Prod.fst := by
        by_contra free
        rw [lookup_eq_none_iff.mpr free] at found
        cases found
      exact .inr ⟨⟨name, List.mem_cons_self, claimed⟩, first, name, rfl⟩
    | none =>
      have free := lookup_eq_none_iff.mp found
      -- the names that follow differ from the one that was recorded just now
      have later : ∀ n ∈ rest, n ∈ (name :: taken.map Prod.fst) → n ∈ taken.map Prod.fst :=
        fun n member claimed => (List.mem_cons.mp claimed).resolve_left fun same =>
          other (same ▸ member)
      rcases ih distinct ((name, tagName) :: taken) with ⟨new, after, recorded, keys⟩ |
        ⟨clash, refused⟩
      · refine .inl ⟨List.forall_mem_cons.mpr ⟨free, fun n member claimed => ?_⟩, after, recorded, ?_⟩
        · exact new n member (List.mem_cons_of_mem _ claimed)
        · simp [keys]
      · obtain ⟨n, member, claimed⟩ := clash
        exact .inr ⟨⟨n, List.mem_cons_of_mem _ member, later n member claimed⟩, refused⟩

/-- Tags take distinct names, and none of the names `taken`. -/
def Fresh (taken : List String) (tags : List Identifier) : Prop :=
  (tags.flatMap takenNames).Nodup ∧ ∀ name ∈ tags.flatMap takenNames, name ∉ taken

theorem fresh_cons {taken : List String} {tag : Identifier} {rest : List Identifier} :
    Fresh taken (tag :: rest) ↔
      (∀ name ∈ takenNames tag, name ∉ taken) ∧ Fresh ((takenNames tag).reverse ++ taken) rest := by
  simp only [Fresh, List.flatMap_cons, List.nodup_append', List.mem_append, List.mem_reverse,
    nodup_takenNames, true_and, not_or]
  constructor
  · rintro ⟨⟨later, disjoint⟩, new⟩
    exact ⟨fun name member => new name (.inl member), later, fun name member =>
      ⟨fun again => disjoint again member, new name (.inr member)⟩⟩
  · rintro ⟨new, later, apart⟩
    refine ⟨⟨later, fun name member again => (apart name again).1 member⟩, ?_⟩
    rintro name (member | member)
    · exact new name member
    · exact (apart name member).2

/-! ## The tags of a document -/

section Tags
variable {mode : Mode} {registry : Registry} {groups : List TagGroup}
  {tags : List (Identifier × TagGroup)}

theorem mem_usedTags (h : usedTags groups = .ok tags) {tag : Identifier} {group : TagGroup}
    (member : (tag, group) ∈ tags) :
    group ∈ groups ∧ group.isUsed = true ∧ Identifier.ofSpaced group.name = .ok tag := by
  obtain ⟨_, listed, rfl, spelled⟩ := exists_of_mem_right (forall₂_usedTags h) member
  exact ⟨(List.mem_filter.mp listed).1, (List.mem_filter.mp listed).2, spelled⟩

theorem mem_usedTags_of_used (h : usedTags groups = .ok tags) {tag : Identifier} {group : TagGroup}
    (member : group ∈ groups) (used : group.isUsed = true)
    (spelled : Identifier.ofSpaced group.name = .ok tag) : (tag, group) ∈ tags := by
  obtain ⟨⟨name, _⟩, listed, rfl, named⟩ :=
    exists_of_mem_left (forall₂_usedTags h) (List.mem_filter.mpr ⟨member, used⟩)
  cases named.symm.trans spelled
  exact listed

theorem map_snd_usedTags (h : usedTags groups = .ok tags) :
    tags.map Prod.snd = groups.filter TagGroup.isUsed := by
  have same : List.Forall₂ Eq (tags.map Prod.snd) (groups.filter TagGroup.isUsed) :=
    List.forall₂_map_left_iff.mpr ((forall₂_usedTags h).flip.imp fun _ _ related => related.1)
  rwa [List.forall₂_eq_eq_eq] at same

/-- A tag whose file can be written has a name. -/
theorem ofSpaced_of_tagFile {group : TagGroup} {file : Code.SourceFile}
    (h : tagFile mode registry group = .ok file) :
    ∃ tag, Identifier.ofSpaced group.name = .ok tag := by
  cases mode with
  | api | client =>
    obtain ⟨tag, named, -⟩ := Except.bind_eq_ok.mp h
    exact ⟨tag, named⟩

theorem usedTags_of_emitted
    (emitted : ∀ group ∈ groups, group.isUsed = true → ∃ file, tagFile mode registry group = .ok file) :
    ∃ tags, usedTags groups = .ok tags := by
  induction groups with
  | nil => exact ⟨[], rfl⟩
  | cons group rest ih =>
    obtain ⟨later, hl⟩ := ih fun g member => emitted g (List.mem_cons_of_mem _ member)
    by_cases unused : group.operations.isEmpty = true
    · exact ⟨later, by rw [usedTags_cons_of_unused unused, hl]⟩
    · obtain ⟨file, hf⟩ := emitted group List.mem_cons_self (by simp [TagGroup.isUsed, unused])
      obtain ⟨tag, named⟩ := ofSpaced_of_tagFile hf
      exact ⟨_, by rw [usedTags_cons_of_used unused, named, hl]; rfl⟩

/-- **Emission stops at names that are taken twice, and only there.**  If every tag can be written
on its own, then so can all of them, unless two names coincide. -/
theorem tagOutput_cases
    (emitted : ∀ group ∈ groups, group.isUsed = true → ∃ file, tagFile mode registry group = .ok file)
    (named : usedTags groups = .ok tags) (taken : List (String × String)) :
    (Fresh (taken.map Prod.fst) (tags.map Prod.fst) ∧
      ∃ output, tagOutput mode registry taken groups = .ok output) ∨
    (¬ Fresh (taken.map Prod.fst) (tags.map Prod.fst) ∧
      ∃ first second name, tagOutput mode registry taken groups =
        .error (.naming (.tagClash first second name))) := by
  induction groups generalizing taken tags with
  | nil =>
    cases named
    exact .inl ⟨⟨List.nodup_nil, by simp⟩, _, rfl⟩
  | cons group rest ih =>
    have emittedLater := fun g member => emitted g (List.mem_cons_of_mem group member)
    unfold tagOutput
    by_cases unused : group.operations.isEmpty = true
    · rw [usedTags_cons_of_unused unused] at named
      rw [if_pos unused]
      rcases ih emittedLater named taken with ⟨fresh, output, ho⟩ | ⟨clash, _, _, _, refused⟩
      · exact .inl ⟨fresh, _, by rw [ho]; rfl⟩
      · exact .inr ⟨clash, _, _, _, by rw [refused]; rfl⟩
    · rw [usedTags_cons_of_used unused] at named
      obtain ⟨tag, spelled, named⟩ := Except.bind_eq_ok.mp named
      obtain ⟨later, hl, named⟩ := Except.bind_eq_ok.mp named
      cases named
      obtain ⟨file, hf⟩ := emitted group List.mem_cons_self (by simp [TagGroup.isUsed, unused])
      rw [if_neg unused, spelled, List.map_cons, fresh_cons]
      rcases take_cases (nodup_takenNames tag) taken group.name with
        ⟨new, after, recorded, keys⟩ | ⟨⟨name, member, claimed⟩, first, name, refused⟩
      · rw [← keys]
        rcases ih emittedLater hl after with ⟨fresh, output, ho⟩ | ⟨clash, first, second, name, refused⟩
        · refine .inl ⟨⟨new, fresh⟩, ⟨file :: output.files, tag :: output.tags, output.warnings⟩, ?_⟩
          simp only [Except.ok_bind, recorded, hf, ho]
          rfl
        · refine .inr ⟨fun fresh => clash fresh.2, first, second, name, ?_⟩
          simp only [Except.ok_bind, Except.error_bind, recorded, hf, refused]
      · refine .inr ⟨fun fresh => fresh.1 _ member claimed, first, group.name, name, ?_⟩
        simp only [Except.ok_bind, Except.error_bind, refused]

/-! ## Clashing tags -/

/-- Two tags with operations have the same file name or the same class name. -/
def Clashing (groups : List TagGroup) : Prop :=
  ∃ first ∈ groups, ∃ second ∈ groups, first.isUsed = true ∧ second.isUsed = true ∧
    first.name ≠ second.name ∧ ∃ tag other, Identifier.ofSpaced first.name = .ok tag ∧
      Identifier.ofSpaced second.name = .ok other ∧
      (tag.kebab = other.kebab ∨ tag.upperCamel = other.upperCamel)

/-- Used tags take distinct names if no two share a file name or a class name. -/
theorem fresh_iff_pairwise (named : usedTags groups = .ok tags) :
    Fresh [] (tags.map Prod.fst) ↔ tags.Pairwise fun tag other => NamedApart tag.1 other.1 := by
  rw [Fresh, List.nodup_flatMap, List.pairwise_map]
  simp only [nodup_takenNames, List.not_mem_nil, not_false_eq_true, implies_true, true_and,
    and_true]
  exact List.Pairwise.iff_of_mem fun ha hb =>
    disjoint_takenNames_iff (mem_usedTags named ha).2.2 (mem_usedTags named hb).2.2

/-- **The tags that are refused.**  A name is taken twice exactly if two tags share a file name or a
class name. -/
theorem clashing_iff (distinct : (groups.map (·.name)).Nodup) (named : usedTags groups = .ok tags) :
    Clashing groups ↔ ¬ Fresh [] (tags.map Prod.fst) := by
  rw [fresh_iff_pairwise named]
  constructor
  · rintro ⟨first, hf, second, hs, usedFirst, usedSecond, differ, tag, other, ht, ho, same⟩ apart
    have symmetric : Std.Symm fun tag other : Identifier × TagGroup => NamedApart tag.1 other.1 :=
      ⟨fun _ _ h => ⟨h.1.symm, h.2.symm⟩⟩
    have namedApart := apart.forall (mem_usedTags_of_used named hf usedFirst ht)
      (mem_usedTags_of_used named hs usedSecond ho) fun same => differ (by cases same; rfl)
    exact same.elim namedApart.1 namedApart.2
  · intro clash
    by_contra free
    have names : tags.Pairwise fun tag other => tag.2.name ≠ other.2.name := by
      have sub : ((tags.map Prod.snd).map (·.name)).Nodup := by
        rw [map_snd_usedTags named]
        exact distinct.sublist (List.filter_sublist.map _)
      rwa [List.map_map, List.nodup_iff_pairwise_ne, List.pairwise_map] at sub
    refine clash (names.imp_of_mem fun {tag other} ht ho differ => ?_)
    obtain ⟨hf, usedFirst, spelled⟩ := mem_usedTags named ht
    obtain ⟨hs, usedSecond, spelled'⟩ := mem_usedTags named ho
    have shared := fun same => free ⟨tag.2, hf, other.2, hs, usedFirst, usedSecond, differ,
      tag.1, other.1, spelled, spelled', same⟩
    exact ⟨fun same => shared (.inl same), fun same => shared (.inr same)⟩

end Tags

end Generation
end TypedApi
