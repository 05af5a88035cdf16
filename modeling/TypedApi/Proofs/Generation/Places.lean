import TypedApi.Proofs.Generation.DistinctFiles

/-! # Where generated files go

The path of a generated file has one name for its folder, if it lies in one, and one for the file.
These names stay below the output directory, differ from those of every other file of the output and
from that of the hash file (`Generation.separate_of_generate`).
-/
namespace TypedApi

theorem Text.separated_eq_splitOn (mark : Char) (cs : List Char) :
    Text.separated mark cs = cs.splitOn mark := by
  induction cs with
  | nil => exact (List.splitOn_nil mark).symm
  | cons c rest ih =>
    have step : (c :: rest).splitOn mark =
        if c == mark then [] :: rest.splitOn mark
        else (rest.splitOn mark).modifyHead (List.cons c) :=
      List.splitOnP_cons_eq_if_modifyHead c rest
    rw [step, ← ih, Text.separated]
    split
    · next part parts found =>
      rw [found]
      rfl
    · next found => exact absurd found (Text.separated_ne_nil mark rest)

namespace FilePlace

variable {place other : FilePlace}

/-- The names of a generated file below the output directory. -/
def names (place : FilePlace) : List String :=
  (place.folder.toList.map fun folder => folder.name) ++ [place.file ++ ".ts"]

theorem append_extension_ne (file name : String) (other : ¬ ".ts".toList <:+ name.toList) :
    file ++ ".ts" ≠ name := by
  rintro rfl
  exact other ⟨file.toList, by simp⟩

/-- The names that a path with the text of a place has. -/
theorem names_path (proper : place.Proper) : Path.names place.path.toList = place.names := by
  have folders : ∀ name ∈ place.folder.toList.map fun folder => folder.name,
      (name != "" && name != ".") = true := by
    intro name hn
    obtain ⟨folder, -, rfl⟩ := List.mem_map.mp hn
    cases folder <;> decide
  have empty := append_extension_ne place.file "" (by decide)
  have dot := append_extension_ne place.file "." (by decide)
  rw [Path.names, Text.separated_eq_splitOn, splitOn_path proper, List.map_append, above,
    List.map_map]
  have same : (place.folder.toList.map (String.ofList ∘ fun folder => folder.name.toList)) =
      place.folder.toList.map fun folder => folder.name :=
    List.map_congr_left fun folder _ => String.ofList_toList
  have file : [place.file.toList ++ ".ts".toList].map String.ofList = [place.file ++ ".ts"] := by
    rw [List.map_singleton, ← String.toList_append, String.ofList_toList]
  rw [same, file]
  refine List.filter_eq_self.mpr (List.forall_mem_append.mpr ⟨folders, ?_⟩)
  simp [empty, dot]

theorem up_notMem_names (place : FilePlace) : Path.up ∉ place.names := by
  intro h
  rcases List.mem_append.mp h with h | h
  · obtain ⟨folder, -, same⟩ := List.mem_map.mp h
    cases folder <;> exact absurd same (by decide)
  · exact append_extension_ne place.file Path.up (by decide) (List.mem_singleton.mp h).symm

theorem names_ne_hashFile (place : FilePlace) :
    place.names ≠ [OutputDirectory.hashFileName] := by
  intro same
  have last := congrArg List.getLast? same
  rw [names, List.getLast?_concat] at last
  exact append_extension_ne place.file _ (by decide) (Option.some.inj last)

/-- The names of a file tell its place. -/
theorem names_injective (same : place.names = other.names) : place = other := by
  obtain ⟨folders, files⟩ := List.append_inj' same rfl
  have folder : place.folder = other.folder := by
    refine folder_of_above ?_
    have texts := congrArg (List.map String.toList) folders
    simpa [above, Function.comp_def] using texts
  have file : place.file = other.file := by
    have texts := congrArg String.toList (List.singleton_inj.mp files)
    rw [String.toList_append, String.toList_append] at texts
    exact String.toList_injective (List.append_cancel_right texts)
  cases place
  cases other
  cases folder
  cases file
  rfl

end FilePlace

/-- The names of a generated file below the output directory. -/
def Code.SourceFile.names (file : Code.SourceFile) : List String := Path.names file.path.toList

/-- Files that are written below a directory, each to a place of its own and none to that of the hash
file. -/
structure Separate (files : List Code.SourceFile) : Prop where
  below : ∀ file ∈ files, Path.up ∉ file.names
  named : ∀ file ∈ files, file.names ≠ []
  unhashed : ∀ file ∈ files, file.names ≠ [OutputDirectory.hashFileName]
  distinct : (files.map (·.names)).Nodup

namespace Generation

variable {mode : Mode} {registry : Registry}

/-- If the tags of a document are written, so is each of them. -/
theorem emitted_of_tagOutput {groups : List TagGroup} {taken : List (String × String)}
    {output : TagOutput} (h : tagOutput mode registry taken groups = .ok output) :
    ∀ group ∈ groups, group.isUsed = true → ∃ file, tagFile mode registry group = .ok file := by
  induction groups generalizing taken output with
  | nil => exact List.forall_mem_nil _
  | cons group rest ih =>
    unfold tagOutput at h
    by_cases unused : group.operations.isEmpty = true
    · rw [if_pos unused] at h
      obtain ⟨later, hl, -⟩ := Except.bind_eq_ok.mp h
      refine List.forall_mem_cons.mpr ⟨fun used => ?_, ih hl⟩
      rw [TagGroup.isUsed, unused] at used
      cases used
    · rw [if_neg unused] at h
      obtain ⟨tag, -, h⟩ := Except.bind_eq_ok.mp h
      obtain ⟨taken, -, h⟩ := Except.bind_eq_ok.mp h
      obtain ⟨file, hf, h⟩ := Except.bind_eq_ok.mp h
      obtain ⟨later, hl, -⟩ := Except.bind_eq_ok.mp h
      exact List.forall_mem_cons.mpr ⟨fun _ => ⟨file, hf⟩, ih hl⟩

/-- Tags that are written together share no names. -/
theorem apart_of_tagOutput {groups : List TagGroup} {tags : List (Identifier × TagGroup)}
    {output : TagOutput} (named : usedTags groups = .ok tags)
    (h : tagOutput mode registry [] groups = .ok output) :
    tags.Pairwise fun tag other => NamedApart tag.1 other.1 := by
  refine (fresh_iff_pairwise named).mp ?_
  rcases tagOutput_cases (emitted_of_tagOutput h) named [] with ⟨fresh, -⟩ | ⟨-, _, _, _, refused⟩
  · exact fresh
  · cases h.symm.trans refused

/-- The tags of an output share no names. -/
theorem Layout.namedApart {document : Value} {tree : OutputTree} {parts : DocumentParts}
    {registry : Registry} {models : List Draft} {tags : List (Identifier × TagGroup)}
    {files : List Code.SourceFile}
    (layout : Layout mode document tree parts registry models tags files)
    (h : (ofDocument mode document).result = .ok tree) :
    tags.Pairwise fun tag other => NamedApart tag.1 other.1 := by
  obtain ⟨parts', hp, h⟩ := Noted.bind_eq_ok.mp h
  cases layout.found.symm.trans hp
  obtain ⟨registry', hr, h⟩ := Noted.bind_eq_ok.mp h
  cases layout.registered.symm.trans hr
  obtain ⟨groups, hg, h⟩ := Noted.bind_eq_ok.mp h
  obtain ⟨_, -, h⟩ := Noted.bind_eq_ok.mp h
  obtain ⟨_, -, h⟩ := Noted.bind_eq_ok.mp h
  obtain ⟨output, ho, -⟩ := Noted.bind_eq_ok.mp h
  obtain ⟨groups', hg', used⟩ := layout.tagged
  cases hg'.symm.trans hg
  exact apart_of_tagOutput used ho

theorem exists_places {document : Value} {tree : OutputTree}
    (h : (ofDocument mode document).result = .ok tree) :
    ∃ places : List FilePlace, tree.files.map (·.path) = places.map FilePlace.path ∧
      places.Nodup ∧ ∀ place ∈ places, place.Proper := by
  obtain ⟨parts, registry, models, tags, files, layout⟩ := layout_of_ofDocument h
  exact ⟨_, layout.map_path, layout.nodup_places (layout.namedApart h), layout.proper_places⟩

/-- **Generated files go apart.**  Every file of an output has names that lead to a place of its own
below the output directory. -/
theorem separate_of_generate {mode document : Value} {tree : OutputTree}
    (h : (generate mode document).result = .ok tree) : Separate tree.files := by
  obtain ⟨found, -, h⟩ := Noted.bind_eq_ok.mp h
  obtain ⟨places, paths, distinct, proper⟩ := exists_places h
  have named : tree.files.map (·.names) = places.map FilePlace.names := by
    have texts := congrArg (List.map fun path => Path.names path.toList) paths
    rw [List.map_map, List.map_map] at texts
    exact texts.trans (List.map_congr_left fun place hp => FilePlace.names_path (proper place hp))
  have placed : ∀ file ∈ tree.files, ∃ place : FilePlace, file.names = place.names := by
    intro file hf
    have listed : file.names ∈ places.map FilePlace.names := named ▸ List.mem_map_of_mem hf
    obtain ⟨place, -, same⟩ := List.mem_map.mp listed
    exact ⟨place, same.symm⟩
  refine ⟨fun file hf => ?below, fun file hf => ?named, fun file hf => ?unhashed, ?distinct⟩
  case below =>
    obtain ⟨place, same⟩ := placed file hf
    exact same ▸ place.up_notMem_names
  case named =>
    obtain ⟨place, same⟩ := placed file hf
    rw [same, FilePlace.names]
    simp
  case unhashed =>
    obtain ⟨place, same⟩ := placed file hf
    exact same ▸ place.names_ne_hashFile
  case distinct =>
    rw [named]
    exact distinct.map fun _ _ => FilePlace.names_injective

end Generation
end TypedApi
