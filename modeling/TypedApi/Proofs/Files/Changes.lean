import TypedApi.Proofs.Files.Paths

/-! # What changes leave alone

Making directories only adds directories, on the way that a path takes (`FileSystem.Grows`).  What
happens below a location spares everything else, but for the directories that were missing on the
way to it (`FileSystem.Spares`).  Both relations follow a sequence of changes step by step.
-/
namespace TypedApi

namespace Path
variable {p : Path} {current l : Location} {below : String}

/-- On the way to something below the end of a path there is the way to its end, and what is below. -/
theorem comesBy_of_child (plain : up ∉ names below.toList) (h : (p.child below).ComesBy current l) :
    p.ComesBy current l ∨
      ∃ n, l = p.namesFrom current ++ (names below.toList).take n := by
  obtain ⟨n, rfl⟩ := h
  rw [namesFrom_upTo]
  rcases Nat.le_total n p.parts.length with before | behind
  · left
    refine ⟨n, ?_⟩
    rw [namesFrom_upTo, child, List.take_append_of_le_length before]
    rfl
  · right
    refine ⟨n - p.parts.length, ?_⟩
    rw [child, List.take_append, List.take_of_length_le behind, lead_append]
    exact lead_of_plain (fun h => plain (List.mem_of_mem_take h)) _

end Path

namespace FileSystem

variable {fs fs' fs'' : FileSystem} {p : Path} {l m root : Location} {way wider : Location → Prop}

/-! ## Added directories -/

/-- Directories were added at some of the locations of `way`, and nothing else was changed. -/
structure Grows (way : Location → Prop) (fs fs' : FileSystem) : Prop where
  current : fs'.current = fs.current
  entries : ∀ l, fs'.entryAt l = fs.entryAt l ∨
    (way l ∧ fs.entryAt l = none ∧ fs'.entryAt l = some .directory)

theorem Grows.refl (way : Location → Prop) (fs : FileSystem) : fs.Grows way fs :=
  ⟨rfl, fun _ => .inl rfl⟩

theorem Grows.mono (h : fs.Grows way fs') (sub : ∀ l, way l → wider l) : fs.Grows wider fs' :=
  ⟨h.current, fun l => (h.entries l).imp_right fun ⟨on, free, made⟩ => ⟨sub l on, free, made⟩⟩

theorem Grows.trans (h : fs.Grows way fs') (h' : fs'.Grows way fs'') : fs.Grows way fs'' := by
  refine ⟨h'.current.trans h.current, fun l => ?_⟩
  rcases h.entries l with same | ⟨on, free, made⟩
  · rw [← same]
    exact h'.entries l
  · rcases h'.entries l with same | ⟨-, free', -⟩
    · exact .inr ⟨on, free, same.trans made⟩
    · cases made.symm.trans free'

/-- Whatever stands somewhere still does when directories were added. -/
theorem Grows.entryAt_ne_none (h : fs.Grows way fs') (given : fs.entryAt l ≠ none) :
    fs'.entryAt l ≠ none := by
  rcases h.entries l with same | ⟨-, free, -⟩
  · rwa [same]
  · exact absurd free given

theorem makeDirectory_grows {made : FileSystem} (h : fs.makeDirectory p = .ok made) :
    fs.Grows (p.ComesBy fs.current) made := by
  obtain ⟨-, free, rfl⟩ := makeDirectory_eq_ok h
  refine ⟨rfl, fun l => ?_⟩
  by_cases inside : fs.tree.Holds (p.namesFrom fs.current)
  · have put := @FileTree.entryAt_put fs.tree (.directory []) _ inside l
    by_cases below : p.namesFrom fs.current <+: l
    · have nothing := FileTree.entryAt_eq_none_of_prefix free below
      obtain ⟨rest, rfl⟩ := below
      rw [if_pos (List.prefix_append _ _), List.drop_left] at put
      cases rest with
      | nil =>
        rw [List.append_nil] at put nothing ⊢
        exact .inr ⟨p.comesBy_self _, nothing, put⟩
      | cons name rest => exact .inl (put.trans nothing.symm)
    · rw [if_neg below] at put
      exact .inl put
  · exact .inl (FileTree.entryAt_put_of_not_holds inside l)

/-- **Creating a directory adds directories on its path**, also if it fails. -/
theorem createDirectory_grows (fs : FileSystem) (p : Path) (existing : Bool) :
    fs.Grows (p.ComesBy fs.current) (fs.createDirectory p existing).1 := by
  fun_induction createDirectory fs p existing with
  | case1 p existing made h => exact makeDirectory_grows h
  | case2 => exact .refl _ _
  | case3 p existing h nonempty around e created ih =>
    rw [created] at ih
    exact ih.mono fun _ => Path.comesBy_of_parent
  | case4 p existing h nonempty around created made hm ih =>
    rw [created] at ih
    have later := makeDirectory_grows hm
    rw [ih.current] at later
    exact (ih.mono fun _ => Path.comesBy_of_parent).trans later
  | case5 p existing h nonempty around created e he ih =>
    rw [created] at ih
    exact ih.mono fun _ => Path.comesBy_of_parent
  | case6 => exact .refl _ _

/-- A directory that must be new is made last, when those on the way are there. -/
theorem createDirectory_eq_ok {made : FileSystem} (h : fs.createDirectory p false = (made, .ok ())) :
    ∃ around, fs.Grows (p.ComesBy fs.current) around ∧ around.makeDirectory p = .ok made := by
  rw [createDirectory] at h
  split at h
  · next found =>
    cases h
    exact ⟨fs, .refl _ _, found⟩
  · split at h
    · cases h
    · next nonempty =>
      have grows := fs.createDirectory_grows p.parent true
      split at h
      · cases h
      · next around created =>
        rw [created] at grows
        split at h
        · next found =>
          cases h
          exact ⟨around, grows.mono fun _ => Path.comesBy_of_parent, found⟩
        · simp at h
  · simp at h

/-! ## Changes below a location -/

/-- Everything outside `root` was left alone, except that directories were added at some of the
locations of `way`. -/
structure Spares (root : Location) (way : Location → Prop) (fs fs' : FileSystem) : Prop where
  current : fs'.current = fs.current
  entries : ∀ l, ¬ root <+: l → fs'.entryAt l = fs.entryAt l ∨
    (way l ∧ fs.entryAt l = none ∧ fs'.entryAt l = some .directory)

theorem Spares.refl (root : Location) (way : Location → Prop) (fs : FileSystem) :
    fs.Spares root way fs :=
  ⟨rfl, fun _ _ => .inl rfl⟩

theorem Spares.trans (h : fs.Spares root way fs') (h' : fs'.Spares root way fs'') :
    fs.Spares root way fs'' := by
  refine ⟨h'.current.trans h.current, fun l outside => ?_⟩
  rcases h.entries l outside with same | ⟨on, free, made⟩
  · rw [← same]
    exact h'.entries l outside
  · rcases h'.entries l outside with same | ⟨-, free', -⟩
    · exact .inr ⟨on, free, same.trans made⟩
    · cases made.symm.trans free'

theorem Grows.spares (h : fs.Grows way fs') (sub : ∀ l, way l → ¬ root <+: l → wider l) :
    fs.Spares root wider fs' :=
  ⟨h.current, fun l outside =>
    (h.entries l).imp_right fun ⟨on, free, made⟩ => ⟨sub l on outside, free, made⟩⟩

/-- What is put or erased below a location spares the rest. -/
theorem put_spares (way : Location → Prop) (below : root <+: l) (t : FileTree) :
    fs.Spares root way (fs.put l t) :=
  ⟨rfl, fun _ outside =>
    .inl (FileTree.entryAt_put_of_not_prefix fun deeper => outside (below.trans deeper))⟩

theorem erase_spares (way : Location → Prop) (nonempty : l ≠ []) (below : root <+: l) :
    fs.Spares root way { fs with tree := fs.tree.erase l } :=
  ⟨rfl, fun m outside => .inl ((FileTree.entryAt_erase nonempty m).trans
    (if_neg fun deeper => outside (below.trans deeper)))⟩

/-! ## Files -/

/-- A file is written when the directories on the way are there. -/
theorem createFile_cases (fs : FileSystem) (p : Path) (data : ByteArray) :
    ∃ around, fs.Grows (p.ComesBy fs.current) around ∧
      ((∃ e, fs.createFile p data = (around, .error e)) ∨
        ∃ written, around.writeData p data = .ok written ∧
          fs.createFile p data = (written, .ok ())) := by
  have grows := fs.createDirectory_grows p.parent true
  unfold createFile
  split
  · next around e created =>
    rw [created] at grows
    exact ⟨around, grows.mono fun _ => Path.comesBy_of_parent, .inl ⟨e, rfl⟩⟩
  · next around created =>
    rw [created] at grows
    refine ⟨around, grows.mono fun _ => Path.comesBy_of_parent, ?_⟩
    split
    · next written done => exact .inr ⟨written, done, rfl⟩
    · next e failed => exact .inl ⟨_, rfl⟩

theorem createFile_current (fs : FileSystem) (p : Path) (data : ByteArray) :
    (fs.createFile p data).1.current = fs.current := by
  obtain ⟨around, grows, made⟩ := fs.createFile_cases p data
  rcases made with ⟨e, failed⟩ | ⟨written, done, created⟩
  · rw [failed]
    exact grows.current
  · rw [created]
    obtain ⟨-, executable, rfl, -⟩ := writeData_eq_ok done
    exact grows.current

/-- Writing a file changes nothing elsewhere, but directories may be added. -/
theorem createFile_elsewhere (data : ByteArray) (apart : ¬ p.namesFrom fs.current <+: l) :
    (fs.createFile p data).1.entryAt l = fs.entryAt l ∨
      fs.entryAt l = none ∧ (fs.createFile p data).1.entryAt l = some .directory := by
  obtain ⟨around, grows, made⟩ := fs.createFile_cases p data
  have first := (grows.entries l).imp_right And.right
  rcases made with ⟨e, failed⟩ | ⟨written, done, created⟩
  · rw [failed]
    exact first
  · obtain ⟨-, executable, rfl, -⟩ := writeData_eq_ok done
    rw [← grows.current] at apart
    have kept : (around.put (p.namesFrom around.current) (.file data executable)).entryAt l =
        around.entryAt l := FileTree.entryAt_put_of_not_prefix apart
    rw [created]
    exact first.imp kept.trans fun ⟨free, there⟩ => ⟨free, kept.trans there⟩

/-- Writing a file removes nothing. -/
theorem createFile_entryAt_ne_none (p : Path) (data : ByteArray) (given : fs.entryAt l ≠ none) :
    (fs.createFile p data).1.entryAt l ≠ none := by
  obtain ⟨around, grows, made⟩ := fs.createFile_cases p data
  have kept := grows.entryAt_ne_none given
  rcases made with ⟨e, failed⟩ | ⟨written, done, created⟩
  · rwa [failed]
  · rw [created]
    obtain ⟨-, executable, rfl, stood⟩ := writeData_eq_ok done
    by_cases inside : around.tree.Holds (p.namesFrom around.current)
    · rw [entryAt_put inside]
      split
      · next below =>
        obtain ⟨rest, rfl⟩ := below
        rw [List.drop_left]
        cases rest with
        | nil => simp
        | cons name rest =>
          -- what is below the place is in a directory, and no directory stood there
          obtain ⟨e, there⟩ := Option.ne_none_iff_exists'.mp kept
          have directory := FileTree.directory_of_entryAt_append there (List.cons_ne_nil _ _)
          rcases stood with ⟨free, -⟩ | ⟨old, file⟩
          · cases free.symm.trans directory
          · cases file.symm.trans directory
      · exact kept
    · exact (FileTree.entryAt_put_of_not_holds inside l).trans_ne kept

/-! ## Removal -/

theorem removeDirectory_eq_ok {removed : FileSystem} (h : fs.removeDirectory p = .ok removed) :
    p.namesFrom fs.current ≠ [] ∧
      removed = { fs with tree := fs.tree.erase (p.namesFrom fs.current) } := by
  unfold removeDirectory at h
  split at h
  · cases h
  · cases h
  · next l name located last =>
    obtain ⟨rfl, -⟩ := locate_eq_ok located
    split at h
    · cases h
    · next plain =>
      cases h
      refine ⟨?_, rfl⟩
      obtain ⟨before, split⟩ := List.getLast?_eq_some_iff.mp last
      rw [Path.namesFrom_of_concat split (by simpa using plain)]
      simp

/-- Removing a tree spares everything outside it, also if it fails. -/
theorem removeTree_spares (fs : FileSystem) (p : Path) (way : Location → Prop) :
    fs.Spares (p.namesFrom fs.current) way (fs.removeTree p).1 := by
  unfold removeTree
  split
  · exact .refl _ _ _
  · next l located =>
    obtain ⟨rfl, -⟩ := locate_eq_ok located
    have cleared := fs.put_spares way (List.prefix_refl (p.namesFrom fs.current)) (.directory [])
    simp only
    split
    · next removed done =>
      obtain ⟨nonempty, rfl⟩ := removeDirectory_eq_ok done
      exact cleared.trans (erase_spares way nonempty (List.prefix_refl _))
    · exact cleared

/-- Nothing is left in a tree that is removed, also if the tree itself cannot go. -/
theorem entryAt_removeTree (located : fs.locate p = .ok l) (inside : fs.tree.Holds l)
    (below : m ≠ []) : (fs.removeTree p).1.entryAt (l ++ m) = none := by
  obtain ⟨rfl, -⟩ := locate_eq_ok located
  have cleared : (fs.put (p.namesFrom fs.current) (.directory [])).entryAt
      (p.namesFrom fs.current ++ m) = none := by
    rw [entryAt_put inside, if_pos (List.prefix_append _ _), List.drop_left]
    obtain ⟨name, rest, rfl⟩ := List.exists_cons_of_ne_nil below
    rfl
  unfold removeTree
  rw [located]
  simp only
  split
  · next removed done =>
    obtain ⟨nonempty, rfl⟩ := removeDirectory_eq_ok done
    exact (FileTree.entryAt_erase nonempty _).trans (if_pos (List.prefix_append _ _))
  · exact cleared

/-- Where a tree was removed, nothing is left. -/
theorem removeTree_eq_ok {removed : FileSystem} (h : fs.removeTree p = (removed, .ok ())) :
    removed.current = fs.current ∧ removed.entryAt (p.namesFrom fs.current) = none := by
  unfold removeTree at h
  split at h
  · cases h
  · simp only at h
    split at h
    · next done =>
      cases h
      obtain ⟨nonempty, rfl⟩ := removeDirectory_eq_ok done
      exact ⟨rfl, (FileTree.entryAt_erase nonempty _).trans (if_pos (List.prefix_refl _))⟩
    · cases h

end FileSystem
end TypedApi
