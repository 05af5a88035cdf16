import Mathlib.Data.List.Infix
import TypedApi.Files.FileSystem

/-! # What stands where

The entry at a location tells a file with its data from a directory, without what is in it.  Entries
are the view in which a change has an effect at and below one location only: `entryAt_put` and
`entryAt_erase` say what the two changes of a tree do to every location.  A tree is put in its place
where the directory around exists (`FileTree.Holds`), and nowhere else.
-/
namespace TypedApi

/-- What stands at a location, without what is in it. -/
inductive Entry where
  | file (data : ByteArray) (executable : Bool)
  | directory

/-! ## Directories -/

theorem lookup_filter_ne (name other : String) (entries : List (String × FileTree)) :
    (entries.filter fun e => e.1 != name).lookup other =
      if other = name then none else entries.lookup other := by
  induction entries with
  | nil => simp
  | cons e rest ih =>
    obtain ⟨key, t⟩ := e
    by_cases removed : key = name
    · rw [List.filter_cons_of_neg (by simp [removed]), ih, List.lookup_cons]
      by_cases same : other = name
      · rw [if_pos same, if_pos same]
      · rw [if_neg same, if_neg same, beq_false_of_ne fun h => same (h.trans removed)]
    · rw [List.filter_cons_of_pos (by simpa using removed), List.lookup_cons, List.lookup_cons, ih]
      cases found : other == key with
      | true =>
        have distinct : other ≠ name := fun same => removed ((beq_iff_eq.mp found).symm.trans same)
        simp [distinct]
      | false => rfl

namespace FileTree

variable {t new : FileTree} {l m : Location}

theorem lookup_setEntry (name other : String) (t : FileTree) (entries : List (String × FileTree)) :
    (setEntry name t entries).lookup other =
      if other = name then some t else entries.lookup other := by
  rw [setEntry, List.lookup_cons, lookup_filter_ne]
  by_cases same : other = name
  · simp [same]
  · rw [if_neg same, if_neg same, beq_false_of_ne same]

theorem at?_cons (name : String) (rest : Location) (entries : List (String × FileTree)) :
    (directory entries).at? (name :: rest) =
      (entries.lookup name).bind fun child => child.at? rest := by
  rw [at?]
  cases entries.lookup name <;> rfl

theorem at?_append (t : FileTree) (l m : Location) :
    t.at? (l ++ m) = (t.at? l).bind fun inner => inner.at? m := by
  induction l generalizing t with
  | nil => rw [List.nil_append, at?_nil, Option.bind_some]
  | cons name rest ih =>
    cases t with
    | file data executable => rfl
    | directory entries =>
      rw [List.cons_append, at?_cons, at?_cons, Option.bind_assoc]
      simp only [ih]

/-! ## Entries -/

/-- The entry that a tree is. -/
def entry : FileTree → Entry
  | .file data executable => .file data executable
  | .directory _ => .directory

/-- The entry at a location. -/
def entryAt (t : FileTree) (l : Location) : Option Entry := (t.at? l).map entry

@[simp] theorem entryAt_nil (t : FileTree) : t.entryAt [] = some t.entry := by
  rw [entryAt, at?_nil, Option.map_some]

theorem entryAt_cons (name : String) (rest : Location) (entries : List (String × FileTree)) :
    (directory entries).entryAt (name :: rest) =
      (entries.lookup name).bind fun child => child.entryAt rest := by
  rw [entryAt, at?_cons]
  cases entries.lookup name <;> rfl

theorem entryAt_append (t : FileTree) (l m : Location) :
    t.entryAt (l ++ m) = (t.at? l).bind fun inner => inner.entryAt m := by
  rw [entryAt, at?_append]
  cases t.at? l <;> rfl

/-- Whatever is in something is in a directory. -/
theorem directory_of_entryAt_append {e : Entry} (h : t.entryAt (l ++ m) = some e) (inside : m ≠ []) :
    t.entryAt l = some .directory := by
  rw [entryAt_append] at h
  obtain ⟨inner, found, h⟩ := Option.bind_eq_some_iff.mp h
  rw [entryAt, found, Option.map_some]
  cases inner with
  | directory entries => rfl
  | file data executable =>
    obtain ⟨name, rest, rfl⟩ := List.exists_cons_of_ne_nil inside
    cases h

/-- Nothing is below a location where nothing is. -/
theorem entryAt_eq_none_of_prefix (h : t.entryAt l = none) (below : l <+: m) : t.entryAt m = none := by
  obtain ⟨rest, rfl⟩ := below
  rw [entryAt_append, Option.map_eq_none_iff.mp h, Option.bind_none]

/-- The directory around a location exists; the root needs none. -/
def Holds (t : FileTree) (l : Location) : Prop := l = [] ∨ t.entryAt l.dropLast = some .directory

/-- Whatever stands somewhere stands in a directory. -/
theorem holds_of_entryAt {e : Entry} (h : t.entryAt l = some e) : t.Holds l := by
  by_cases root : l = []
  · exact .inl root
  · right
    rw [← List.dropLast_append_getLast root] at h
    exact directory_of_entryAt_append h (List.cons_ne_nil _ _)

theorem holds_file_cons {data : ByteArray} {executable : Bool} {name : String} {rest : Location} :
    ¬ (file data executable).Holds (name :: rest) := by
  rintro (empty | inside)
  · cases empty
  · cases rest <;> cases inside

theorem holds_cons {entries : List (String × FileTree)} {name : String} {rest : Location} :
    (directory entries).Holds (name :: rest) ↔
      rest = [] ∨ ∃ child, entries.lookup name = some child ∧ child.Holds rest := by
  cases rest with
  | nil => exact ⟨fun _ => .inl rfl, fun _ => .inr rfl⟩
  | cons next rest =>
    rw [Holds, List.dropLast_cons_cons, entryAt_cons]
    constructor
    · rintro (empty | inside)
      · cases empty
      · obtain ⟨child, found, inside⟩ := Option.bind_eq_some_iff.mp inside
        exact .inr ⟨child, found, .inr inside⟩
    · rintro (empty | ⟨child, found, empty | inside⟩)
      · cases empty
      · cases empty
      · exact .inr (Option.bind_eq_some_iff.mpr ⟨child, found, inside⟩)

/-! ## Changes -/

theorem put_nil (new t : FileTree) : put new t [] = new := by
  cases t <;> rfl

theorem put_singleton (new : FileTree) (name : String) (entries : List (String × FileTree)) :
    put new (directory entries) [name] = .directory (setEntry name new entries) := by
  rw [put]
  cases entries.lookup name with
  | none => rfl
  | some child => simp only [put_nil]

theorem put_cons {name : String} {entries : List (String × FileTree)} {child : FileTree}
    (found : entries.lookup name = some child) (new : FileTree) (rest : Location) :
    put new (directory entries) (name :: rest) =
      .directory (setEntry name (put new child rest) entries) := by
  rw [put, found]

theorem put_cons_of_free {name next : String} {entries : List (String × FileTree)}
    (free : entries.lookup name = none) (new : FileTree) (rest : Location) :
    put new (directory entries) (name :: next :: rest) = directory entries := by
  rw [put, free]
  rfl

/-- A directory with one entry set differs below the name of the entry. -/
theorem entryAt_setEntry (name other : String) (child : FileTree)
    (entries : List (String × FileTree)) (m : Location) :
    (directory (setEntry name child entries)).entryAt (other :: m) =
      if other = name then child.entryAt m else (directory entries).entryAt (other :: m) := by
  rw [entryAt_cons, entryAt_cons, lookup_setEntry]
  split <;> rfl

theorem cons_not_prefix_nil {name : String} {rest : Location} : ¬ (name :: rest) <+: [] := by
  rw [List.prefix_nil]
  exact List.cons_ne_nil name rest

/-- **What putting a tree changes.**  At and below a location whose directory exists the new tree
stands; everywhere else the entries stay. -/
theorem entryAt_put (h : t.Holds l) (m : Location) :
    (put new t l).entryAt m = if l <+: m then new.entryAt (m.drop l.length) else t.entryAt m := by
  induction l generalizing t m with
  | nil => rw [put_nil, if_pos List.nil_prefix, List.length_nil, List.drop_zero]
  | cons name rest ih =>
    cases t with
    | file data executable => exact absurd h holds_file_cons
    | directory entries =>
      cases m with
      | nil =>
        rw [if_neg cons_not_prefix_nil]
        rcases holds_cons.mp h with rfl | ⟨child, found, inside⟩
        · rw [put_singleton]
          rfl
        · rw [put_cons found]
          rfl
      | cons other m =>
        simp only [List.cons_prefix_cons]
        rcases holds_cons.mp h with rfl | ⟨child, found, inside⟩
        · rw [put_singleton, entryAt_setEntry]
          by_cases same : other = name
          · simp [same]
          · rw [if_neg same, if_neg fun h => same h.1.symm]
        · rw [put_cons found, entryAt_setEntry, ih inside]
          by_cases same : other = name
          · subst same
            rw [if_pos rfl, entryAt_cons, found, Option.bind_some]
            simp
          · rw [if_neg same, if_neg fun h => same h.1.symm]

/-- Nothing is put where there is no directory. -/
theorem entryAt_put_of_not_holds (h : ¬ t.Holds l) (m : Location) :
    (put new t l).entryAt m = t.entryAt m := by
  induction l generalizing t m with
  | nil => exact absurd (.inl rfl) h
  | cons name rest ih =>
    cases t with
    | file data executable => rfl
    | directory entries =>
      rw [holds_cons, not_or] at h
      obtain ⟨nonempty, outside⟩ := h
      cases found : entries.lookup name with
      | none =>
        obtain ⟨next, rest, rfl⟩ := List.exists_cons_of_ne_nil nonempty
        rw [put_cons_of_free found]
      | some child =>
        rw [put_cons found]
        cases m with
        | nil => rfl
        | cons other m =>
          rw [entryAt_setEntry, ih fun inside => outside ⟨child, found, inside⟩]
          by_cases same : other = name
          · rw [if_pos same, same, entryAt_cons, found, Option.bind_some]
          · rw [if_neg same]

/-- Putting a tree changes nothing but what is at and below its location. -/
theorem entryAt_put_of_not_prefix (h : ¬ l <+: m) : (put new t l).entryAt m = t.entryAt m := by
  by_cases inside : t.Holds l
  · rw [entryAt_put inside, if_neg h]
  · exact entryAt_put_of_not_holds inside m

/-- **What erasing changes.**  Nothing is left at and below the location; everywhere else the entries
stay. -/
theorem entryAt_erase (nonempty : l ≠ []) (m : Location) :
    (erase t l).entryAt m = if l <+: m then none else t.entryAt m := by
  induction l generalizing t m with
  | nil => exact absurd rfl nonempty
  | cons name rest ih =>
    cases m with
    | nil =>
      rw [if_neg cons_not_prefix_nil, entryAt_nil, entryAt_nil]
      cases t with
      | file data executable => rfl
      | directory entries =>
        rw [erase]
        repeat' split
        all_goals rfl
    | cons other m =>
      simp only [List.cons_prefix_cons]
      cases t with
      | file data executable =>
        have nothing : (file data executable).entryAt (other :: m) = none := rfl
        rw [erase, nothing, ite_self]
      | directory entries =>
        cases rest with
        | nil =>
          rw [erase, if_pos List.isEmpty_nil, entryAt_cons, lookup_filter_ne, entryAt_cons]
          by_cases same : other = name
          · simp [same]
          · rw [if_neg same, if_neg fun h => same h.1.symm]
        | cons next rest =>
          rw [erase, if_neg (by simp)]
          cases found : entries.lookup name with
          | none =>
            simp only
            by_cases same : other = name
            · simp [entryAt_cons, same, found]
            · rw [if_neg fun h => same h.1.symm]
          | some child =>
            simp only
            rw [entryAt_setEntry, ih (List.cons_ne_nil next rest)]
            by_cases same : other = name
            · subst same
              rw [if_pos rfl, entryAt_cons, found, Option.bind_some]
              simp
            · rw [if_neg same, if_neg fun h => same h.1.symm]

end FileTree

/-! ## File systems -/

namespace FileSystem

variable {fs : FileSystem} {l m : Location}

/-- The entry at a location. -/
def entryAt (fs : FileSystem) (l : Location) : Option Entry := fs.tree.entryAt l

theorem entryAt_eq (fs : FileSystem) (l : Location) :
    fs.entryAt l = (fs.at? l).map FileTree.entry := rfl

theorem at?_eq_none : fs.at? l = none ↔ fs.entryAt l = none :=
  Option.map_eq_none_iff.symm

theorem entryAt_put (h : fs.tree.Holds l) (t : FileTree) (m : Location) :
    (fs.put l t).entryAt m = if l <+: m then t.entryAt (m.drop l.length) else fs.entryAt m :=
  FileTree.entryAt_put h m

@[simp] theorem put_current (fs : FileSystem) (l : Location) (t : FileTree) :
    (fs.put l t).current = fs.current := rfl

end FileSystem
end TypedApi
