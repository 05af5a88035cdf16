import Mathlib.Data.List.Nodup
import Mathlib.Data.List.Pairwise
import Mathlib.Data.List.Perm.Subperm
import TypedApi.Code.Import

/-! # What import statements bind and where they lead

A module loader reads the name of a relative module segment by segment, starting at the folder of
the importing file.  Read that way, the name that is written for a generated file leads to that
file, whatever the two folders are (`resolveModule_specifier`).  The names that the statements bind
are different exactly if no name is imported from two modules (`ImportSet.names_nodup_iff`).
-/
namespace TypedApi.Code

/-- The place that some segments lead to from the place `start`. -/
def walk (start : List (List Char)) : List (List Char) → Option (List (List Char))
  | [] => some start
  | segment :: rest =>
    if segment = ['.'] then walk start rest
    else if segment = ['.', '.'] then
      if start.isEmpty then none else walk start.dropLast rest
    else walk (start ++ [segment]) rest

/-- The file that the name of a relative module stands for in a file in `folder`. -/
def resolveModule (folder : Option Folder) (specifier : String) : Option String :=
  (walk (folder.toList.map fun f => f.name.toList) (specifier.toList.splitOn '/')).map
    fun place => String.ofList (['/'].intercalate place) ++ ".ts"

/-- Whether the name of a module starts at the folder of the importing file. -/
def isRelative (specifier : String) : Bool :=
  (specifier.toList.splitOn '/').head? == some ['.']
    || (specifier.toList.splitOn '/').head? == some ['.', '.']

/-- The path of a generated file. -/
def modulePath : Option Folder → String → String
  | none, file => file ++ ".ts"
  | some folder, file => folder.name ++ "/" ++ file ++ ".ts"

/-- A file name that is one segment of a path. -/
structure IsSegment (file : String) : Prop where
  noSlash : '/' ∉ file.toList
  notHere : file.toList ≠ ['.']
  notAbove : file.toList ≠ ['.', '.']

variable {file : String}

theorem splitOn_specifier (h : IsSegment file) (base target : Option Folder) :
    ((Source.generated target file).specifier base).toList.splitOn '/' =
      (relativePrefix base target).toList.splitOn '/' ++ [file.toList] := by
  rw [Source.specifier, String.toList_append, String.toList_append, List.append_assoc]
  show (_ ++ '/' :: file.toList).splitOn '/' = _
  rw [List.splitOn_append_cons_self, List.splitOn_eq_singleton h.noSlash]

/-- The way from the folder `base` to the folder `target`, segment by segment. -/
def wayTo (base target : Option Folder) : List (List Char) :=
  if target = base then [['.']]
  else match target, base with
    | none, _ => [['.', '.']]
    | some folder, none => [['.'], folder.name.toList]
    | some folder, some _ => [['.', '.'], folder.name.toList]

theorem splitOn_relativePrefix (base target : Option Folder) :
    (relativePrefix base target).toList.splitOn '/' = wayTo base target := by
  rcases base with _ | _ | _ | _ <;> rcases target with _ | _ | _ | _ <;> decide +kernel

/-- The way leads from one folder to the other. -/
theorem walk_wayTo (h : IsSegment file) (base target : Option Folder) :
    walk (base.toList.map fun f => f.name.toList) (wayTo base target ++ [file.toList]) =
      some (target.toList.map (fun f => f.name.toList) ++ [file.toList]) := by
  rcases base with _ | _ | _ | _ <;> rcases target with _ | _ | _ | _ <;>
    simp [wayTo, walk, h.notHere, h.notAbove, Folder.name]

theorem ofList_intercalate_segments (file : String) (target : Option Folder) :
    String.ofList (['/'].intercalate (target.toList.map (fun f => f.name.toList)
      ++ [file.toList])) ++ ".ts" = modulePath target file := by
  rcases target with _ | folder
  · simp [modulePath]
  · simp [modulePath, List.intercalate_cons_cons, String.ofList_append, String.append_assoc]

/-- **Imports lead to the file they name**, from any folder to any other. -/
theorem resolveModule_specifier (h : IsSegment file) (base target : Option Folder) :
    isRelative ((Source.generated target file).specifier base) = true ∧
      resolveModule base ((Source.generated target file).specifier base) =
        some (modulePath target file) := by
  rw [isRelative, resolveModule, splitOn_specifier h, splitOn_relativePrefix, walk_wayTo h,
    Option.map_some, ofList_intercalate_segments]
  refine ⟨?_, rfl⟩
  unfold wayTo
  split
  · rfl
  · split <;> rfl

/-! ## The names that a file imports -/

theorem nodup_eraseDups (texts : List String) : texts.eraseDups.Nodup := by
  induction h : texts.length using Nat.strongRecOn generalizing texts with
  | _ n ih =>
    cases texts with
    | nil => simp
    | cons text rest =>
      have shorter : (rest.filter fun t => !t == text).length < n := by
        have := List.length_filter_le (fun t => !t == text) rest
        simp only [List.length_cons] at h
        omega
      rw [List.eraseDups_cons, List.nodup_cons]
      refine ⟨fun hm => ?_, ih _ shorter _ rfl⟩
      simpa using List.mem_eraseDups.mp hm

/-- A list has no repetitions exactly if taking them out leaves it as long as it is. -/
theorem length_eraseDups_eq_iff {texts : List String} :
    texts.eraseDups.length = texts.length ↔ texts.Nodup := by
  constructor
  · intro same
    have inside : texts.eraseDups.Subperm texts :=
      List.subperm_of_subset (nodup_eraseDups texts) fun _ h => List.mem_eraseDups.mp h
    exact (inside.perm_of_length_le (Nat.le_of_eq same.symm)).nodup_iff.mp (nodup_eraseDups texts)
  · intro nodup
    exact ((List.perm_ext_iff_of_nodup (nodup_eraseDups texts) nodup).mpr
      fun _ => List.mem_eraseDups).length_eq

theorem nodup_sortedSet (texts : List String) : (Text.sortedSet texts).Nodup :=
  (Text.perm_sortedBy id _).nodup_iff.mpr (nodup_eraseDups texts)

theorem mem_sortedSet {text : String} {texts : List String} :
    text ∈ Text.sortedSet texts ↔ text ∈ texts := by
  rw [Text.sortedSet, Text.mem_sorted, List.mem_eraseDups]

namespace ImportSet

/-- The modules of the import statements, in order. -/
def modules (imports : ImportSet) : List String :=
  Text.sortedSet (imports.bindings.map (·.module))

/-- The names that the import statement of a module binds. -/
def namesFrom (imports : ImportSet) (module : String) : List String :=
  (imports.alias? module).toList ++ Text.sortedSet (imports.bindings.filterMap fun b =>
    if b.module == module && !b.isAlias then some b.name else none)

/-- The names that the import statements bind, in order. -/
def names (imports : ImportSet) : List String :=
  imports.modules.flatMap imports.namesFrom

variable {base : Option Folder} {notes : List Import}

theorem alias?_addAll (module : String) : ((empty base).addAll notes).alias? module = none := by
  rw [alias?, List.find?_eq_none.mpr]
  · rfl
  · intro b hb
    obtain ⟨i, -, rfl⟩ := List.mem_map.mp hb
    simp

/-- The statements are those of the modules, and each lists the names that it binds. -/
theorem render_addAll :
    ((empty base).addAll notes).render =
      "\n".intercalate (((empty base).addAll notes).modules.map fun module =>
        "import \x7b " ++ Text.commaList (((empty base).addAll notes).namesFrom module)
          ++ " \x7d from " ++ Text.literal module ++ ";") := by
  rw [render]
  congr 1
  refine List.map_congr_left fun module _ => ?_
  rw [statement, namesFrom, alias?_addAll]
  rfl

theorem mem_modules_addAll {module : String} :
    module ∈ ((empty base).addAll notes).modules ↔
      ∃ i ∈ notes, i.source.specifier base = module := by
  simp [modules, mem_sortedSet, addAll, empty]

theorem mem_namesFrom_addAll {module name : String} :
    name ∈ ((empty base).addAll notes).namesFrom module ↔
      ∃ i ∈ notes, i.source.specifier base = module ∧ i.name = name := by
  rw [namesFrom, alias?_addAll, Option.toList_none, List.nil_append, mem_sortedSet]
  simp [addAll, empty]

theorem mem_names_addAll {name : String} :
    name ∈ ((empty base).addAll notes).names ↔ ∃ i ∈ notes, i.name = name := by
  rw [names, List.mem_flatMap]
  constructor
  · rintro ⟨module, -, hn⟩
    obtain ⟨i, hi, -, rfl⟩ := mem_namesFrom_addAll.mp hn
    exact ⟨i, hi, rfl⟩
  · rintro ⟨i, hi, rfl⟩
    exact ⟨_, mem_modules_addAll.mpr ⟨i, hi, rfl⟩, mem_namesFrom_addAll.mpr ⟨i, hi, rfl, rfl⟩⟩

/-- **Names are bound once** exactly if no name comes from two modules. -/
theorem names_nodup_iff :
    ((empty base).addAll notes).names.Nodup ↔
      ∀ i ∈ notes, ∀ j ∈ notes, i.name = j.name →
        i.source.specifier base = j.source.specifier base := by
  rw [names, List.nodup_flatMap]
  constructor
  · rintro ⟨-, apart⟩ i hi j hj same
    -- two modules would list the name
    by_contra differ
    have symm : Std.Symm (Function.onFun List.Disjoint ((empty base).addAll notes).namesFrom) :=
      ⟨fun _ _ h _ hb ha => h ha hb⟩
    have disjoint := apart.forall (mem_modules_addAll.mpr ⟨i, hi, rfl⟩)
      (mem_modules_addAll.mpr ⟨j, hj, rfl⟩) differ
    exact disjoint (mem_namesFrom_addAll.mpr ⟨i, hi, rfl, rfl⟩)
      (mem_namesFrom_addAll.mpr ⟨j, hj, rfl, same.symm⟩)
  · intro single
    refine ⟨fun module _ => ?_, ?_⟩
    · rw [namesFrom, alias?_addAll, Option.toList_none, List.nil_append]
      exact nodup_sortedSet _
    · refine (nodup_sortedSet _).imp_of_mem fun {m n} _ _ differ name hm hn => ?_
      obtain ⟨i, hi, rfl, named⟩ := mem_namesFrom_addAll.mp hm
      obtain ⟨j, hj, rfl, named'⟩ := mem_namesFrom_addAll.mp hn
      exact differ (single i hi j hj (named.trans named'.symm))

end ImportSet
end TypedApi.Code
