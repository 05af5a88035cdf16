import TypedApi.Proofs.Generation.ModeAgreement
import TypedApi.Proofs.Generation.TagClash
import TypedApi.Proofs.Schema.Registry
import TypedApi.Proofs.Support.Declarations
import TypedApi.Run.OutputDirectory

/-! # Every file has a place of its own

A generated file lies in a folder or at the root of the output.  File names are in lower case and
have no slash, so that a path tells the folder and the name (`FilePlace.path_injective`), and paths
differ even where case does not count.  Models are told apart by the registry, and tags by the
record of their names; neither looks at everything that is written, as type names stand in for the
file names of models and class names for the members of the index, but the casings of a name
determine each other (`Generation.generate_apart`).
-/
namespace TypedApi

/-! ## Paths -/

/-- Where a generated file is: its folder, if it is in one, and its name without extension. -/
structure FilePlace where
  folder : Option Code.Folder
  file : String
deriving DecidableEq, Repr

namespace FilePlace

/-- The path of a generated file. -/
def path (place : FilePlace) : String := Code.modulePath place.folder place.file

/-- The name of a file is one segment of a path, in lower case. -/
structure Proper (place : FilePlace) : Prop where
  small : Identifier.Small place.file.toList
  noSlash : '/' ∉ place.file.toList

variable {place other : FilePlace}

/-- The names of the folders on the way to a file. -/
def above (place : FilePlace) : List (List Char) :=
  place.folder.toList.map fun folder => folder.name.toList

/-- A path goes apart into the folder and the name with its extension. -/
theorem splitOn_path (proper : place.Proper) :
    place.path.toList.splitOn '/' = place.above ++ [place.file.toList ++ ".ts".toList] := by
  obtain ⟨folder, file⟩ := place
  have last : '/' ∉ file.toList ++ ".ts".toList := by
    simpa using proper.noSlash
  cases folder with
  | none =>
    rw [path, Code.modulePath, String.toList_append, List.splitOn_eq_singleton last]
    rfl
  | some folder =>
    have first : '/' ∉ folder.name.toList := by cases folder <;> decide +kernel
    have text : (path ⟨some folder, file⟩).toList =
        folder.name.toList ++ '/' :: (file.toList ++ ".ts".toList) := by
      simp [path, Code.modulePath]
    rw [text, List.splitOn_append_cons_self, List.splitOn_eq_singleton first,
      List.splitOn_eq_singleton last]
    rfl

theorem folder_of_above (same : place.above = other.above) : place.folder = other.folder := by
  have told : ∀ folder folder' : Option Code.Folder,
      folder.toList.map (fun f => f.name.toList) = folder'.toList.map (fun f => f.name.toList) →
        folder = folder' := by
    rintro (_ | _ | _ | _) (_ | _ | _ | _) <;> decide +kernel
  exact told _ _ same

/-- The path of a file tells its folder and its name. -/
theorem path_injective (proper : place.Proper) (proper' : other.Proper)
    (same : place.path = other.path) : place = other := by
  have segments := splitOn_path proper
  rw [same, splitOn_path proper'] at segments
  obtain ⟨folders, files⟩ := List.append_inj' segments rfl
  have folder := folder_of_above folders
  have file : other.file = place.file := String.toList_injective (by simpa using files)
  cases place
  cases other
  cases folder
  cases file
  rfl

theorem small_of_all {cs : List Char} (h : (cs.all fun c => !c.isUpper) = true) :
    Identifier.Small cs := by
  simpa [Identifier.Small] using h

theorem small_path (proper : place.Proper) : Identifier.Small place.path.toList := by
  obtain ⟨folder, file⟩ := place
  have extension : Identifier.Small ".ts".toList := small_of_all (by decide +kernel)
  have way : Identifier.Small ((folder.map fun f => f.name ++ "/").getD "").toList := by
    rcases folder with _ | _ | _ | _ <;> exact small_of_all (by decide +kernel)
  have text : (path ⟨folder, file⟩).toList =
      ((folder.map fun f => f.name ++ "/").getD "").toList ++ (file.toList ++ ".ts".toList) := by
    cases folder <;> simp [path, Code.modulePath]
  rw [text]
  exact List.forall_mem_append.mpr ⟨way, List.forall_mem_append.mpr ⟨proper.small, extension⟩⟩

/-- Paths are in lower case. -/
theorem lower_path (proper : place.Proper) : Text.lower place.path = place.path := by
  refine String.toList_injective ?_
  rw [Text.lower, String.toList_ofList]
  refine (List.map_congr_left fun c hc => ?_).trans (List.map_id _)
  exact Char.toLower_eq_of_not_isUpper (by simp [small_path proper c hc])

theorem point_notMem_above {name : List Char} (h : name ∈ place.above) : '.' ∉ name := by
  obtain ⟨folder, -, rfl⟩ := List.mem_map.mp h
  cases folder <;> decide +kernel

/-- No file is a folder on the way to another file: no folder has an extension. -/
theorem not_prefix_path (proper : place.Proper) (proper' : other.Proper) :
    ¬ (place.path ++ "/").toList <+: other.path.toList := by
  rintro ⟨rest, split⟩
  have text : (place.path ++ "/").toList ++ rest = place.path.toList ++ '/' :: rest := by simp
  have segments := congrArg (List.splitOn '/') split
  rw [text, List.splitOn_append_cons_self, splitOn_path proper, splitOn_path proper'] at segments
  -- the name of the file stands before the last segment
  have above := congrArg List.dropLast segments
  rw [List.dropLast_append_of_ne_nil (List.splitOn_ne_nil _ _), List.dropLast_concat] at above
  have member : place.file.toList ++ ".ts".toList ∈ other.above := by
    rw [← above]
    simp
  exact point_notMem_above member (by simp)

/-- A path ends in the extension of source files. -/
theorem extension_suffix_path (place : FilePlace) : ".ts".toList <:+ place.path.toList := by
  obtain ⟨folder, file⟩ := place
  cases folder with
  | none => exact ⟨file.toList, by simp [path, Code.modulePath]⟩
  | some folder => exact ⟨(folder.name ++ "/" ++ file).toList, by simp [path, Code.modulePath]⟩

end FilePlace

/-- Files that can lie side by side in an output directory, whatever its file system makes of
capitals. -/
structure SideBySide (paths : List String) : Prop where
  distinct : (paths.map Text.lower).Nodup
  /-- No file is a directory on the way to another. -/
  flat : ∀ path ∈ paths, ∀ other ∈ paths, ¬ (path ++ "/").toList <+: other.toList
  /-- No file is in the place of the hash file. -/
  unhashed : OutputDirectory.hashFileName ∉ paths

/-- Distinct places are side by side. -/
theorem sideBySide_of_nodup {places : List FilePlace} (distinct : places.Nodup)
    (proper : ∀ place ∈ places, place.Proper) : SideBySide (places.map FilePlace.path) := by
  refine ⟨?distinct, ?flat, ?unhashed⟩
  case distinct =>
    have lower : (places.map FilePlace.path).map Text.lower = places.map FilePlace.path := by
      rw [List.map_map]
      exact List.map_congr_left fun place member => FilePlace.lower_path (proper place member)
    rw [lower]
    exact List.Nodup.map_on (fun place hp other ho same =>
      FilePlace.path_injective (proper place hp) (proper other ho) same) distinct
  case flat =>
    intro path hp other ho
    obtain ⟨place, member, rfl⟩ := List.mem_map.mp hp
    obtain ⟨place', member', rfl⟩ := List.mem_map.mp ho
    exact FilePlace.not_prefix_path (proper place member) (proper place' member')
  case unhashed =>
    intro hm
    obtain ⟨place, -, same⟩ := List.mem_map.mp hm
    have extension := place.extension_suffix_path
    rw [same] at extension
    exact absurd extension (by decide +kernel)

/-! ## The places of a tree -/

/-- The place of the file of a draft. -/
def Draft.place (draft : Draft) : FilePlace := ⟨draft.folder, draft.name⟩

/-- The places of the support files. -/
def Support.places (mode : Mode) : List FilePlace := [⟨none, baseFile mode⟩, ⟨none, "validate"⟩]

theorem Support.map_path_files (mode : Mode) :
    (files mode).map (·.path) = (places mode).map FilePlace.path := by
  cases mode <;> decide +kernel

namespace Generation

section Related
variable {α β : Type} {S : α → β → Prop} {R : α → α → Prop} {T : β → β → Prop}

/-- What holds of any two items holds of what they are related to. -/
theorem pairwise_of_forall₂ {as : List α} {bs : List β} (h : List.Forall₂ S as bs)
    (apart : as.Pairwise R) (carry : ∀ {a a' b b'}, S a b → S a' b' → R a a' → T b b') :
    bs.Pairwise T := by
  induction h with
  | nil => exact .nil
  | cons first _ ih =>
    obtain ⟨others, apart⟩ := List.pairwise_cons.mp apart
    refine .cons (fun b hb => ?_) (ih apart)
    obtain ⟨a, ha, related⟩ := exists_of_mem_right ‹_› hb
    exact carry first related (others a ha)

end Related

theorem map_path_of_writtenAs {drafts : List Draft} {files : List Code.SourceFile}
    (h : WrittenAs drafts files) :
    files.map (·.path) = (drafts.map Draft.place).map FilePlace.path := by
  induction h with
  | nil => rfl
  | cons written _ ih =>
    obtain ⟨lines, -, imports, rfl⟩ := holds_of_file written
    rw [List.map_cons, List.map_cons, List.map_cons, ih]
    rfl

section Layout
variable {mode : Mode} {document : Value} {tree : OutputTree} {parts : DocumentParts}
  {registry : Registry} {models : List Draft} {tags : List (Identifier × TagGroup)}
  {files : List Code.SourceFile}

/-- The places of the files that are generated from a document. -/
def placesOf (mode : Mode) (registry : Registry) (models : List Draft)
    (tags : List (Identifier × TagGroup)) : List FilePlace :=
  models.map Draft.place ++ ((tags.map (tagDraft mode registry)).map Draft.place ++
    ((indexDraft mode (tags.map Prod.fst)).place :: Support.places mode))

theorem Layout.map_path (layout : Layout mode document tree parts registry models tags files) :
    tree.files.map (·.path) = (placesOf mode registry models tags).map FilePlace.path := by
  rw [layout.tree, List.map_append, map_path_of_writtenAs layout.written, Support.map_path_files]
  simp [placesOf]

/-- The folder of the files of tags. -/
def tagFolder : Mode → Code.Folder
  | .api => .api
  | .client => .client

theorem tagDraft_place (mode : Mode) (registry : Registry) (tag : Identifier × TagGroup) :
    (tagDraft mode registry tag).place = ⟨some (tagFolder mode), tag.1.kebab⟩ := by
  cases mode <;> rfl

/-- Models have places of their own, since they have type names of their own. -/
theorem Layout.nodup_models
    (layout : Layout mode document tree parts registry models tags files) :
    (models.map Draft.place).Nodup := by
  rw [List.nodup_iff_pairwise_ne, List.pairwise_map]
  refine pairwise_of_forall₂ (Except.forall₂_of_mapM layout.modelled)
    (Registry.pairwise_of_ofSchemas layout.registered) fun hd hd' apart => ?_
  obtain ⟨raw, name, key, spelled, rfl⟩ := modelDraft_eq_ok hd
  obtain ⟨raw', name', key', spelled', rfl⟩ := modelDraft_eq_ok hd'
  intro same
  exact apart name name' ⟨raw, key, spelled⟩ ⟨raw', key', spelled'⟩
    (Identifier.upperCamel_eq_of_kebab_eq spelled spelled' (congrArg FilePlace.file same))

theorem nodup_tags (apart : tags.Pairwise fun tag other => NamedApart tag.1 other.1) :
    ((tags.map (tagDraft mode registry)).map Draft.place).Nodup := by
  rw [List.map_map, List.nodup_iff_pairwise_ne, List.pairwise_map]
  refine apart.imp fun {tag other} named same => named.1 ?_
  simp only [Function.comp_apply, tagDraft_place] at same
  exact congrArg FilePlace.file same

/-- The files at the root of the output have places of their own. -/
theorem nodup_roots (mode : Mode) (tags : List Identifier) :
    ((indexDraft mode tags).place :: Support.places mode).Nodup := by
  cases mode <;> simp [indexDraft, Draft.place, Support.places, Support.baseFile]

theorem proper_roots (mode : Mode) (tags : List Identifier) :
    ∀ place ∈ (indexDraft mode tags).place :: Support.places mode,
      place.folder = none ∧ place.Proper := by
  have proper : ∀ file ∈ ["register-apis", "clients", "base-api", "base-client", "validate"],
      (file.toList.all fun c => !c.isUpper && c != '/') = true := by decide +kernel
  have root : ∀ file ∈ ["register-apis", "clients", "base-api", "base-client", "validate"],
      (⟨none, file⟩ : FilePlace).Proper := fun file member => by
    have plain := proper file member
    simp only [List.all_eq_true, Bool.and_eq_true, Bool.not_eq_true', bne_iff_ne] at plain
    exact ⟨fun c hc => (plain c hc).1, fun hc => (plain _ hc).2 rfl⟩
  cases mode with
  | api | client =>
    intro place member
    simp only [indexDraft, Draft.place, Support.places, Support.baseFile, List.mem_cons,
      List.not_mem_nil, or_false] at member
    rcases member with rfl | rfl | rfl <;> exact ⟨rfl, root _ (by simp)⟩

/-- The files in the three folders and at the root do not meet. -/
theorem Layout.nodup_places
    (layout : Layout mode document tree parts registry models tags files)
    (apart : tags.Pairwise fun tag other => NamedApart tag.1 other.1) :
    (placesOf mode registry models tags).Nodup := by
  have modelFolder : ∀ place ∈ models.map Draft.place, place.folder = some .model := by
    intro place member
    obtain ⟨draft, hd, rfl⟩ := List.mem_map.mp member
    obtain ⟨_, _, name, -, -, rfl⟩ := layout.exists_schema hd
    rfl
  have tagFolders : ∀ place ∈ (tags.map (tagDraft mode registry)).map Draft.place,
      place.folder = some (tagFolder mode) := by
    intro place member
    rw [List.map_map] at member
    obtain ⟨tag, -, rfl⟩ := List.mem_map.mp member
    rw [Function.comp_apply, tagDraft_place]
  have rootFolder := fun place member =>
    (proper_roots mode (tags.map Prod.fst) place member).1
  have foldersDiffer : some Code.Folder.model ≠ some (tagFolder mode) := by cases mode <;> decide
  refine List.nodup_append'.mpr ⟨layout.nodup_models,
    List.nodup_append'.mpr ⟨nodup_tags apart, nodup_roots _ _, ?tagsRoots⟩, ?modelsRest⟩
  case tagsRoots =>
    intro place tagged rooted
    cases (tagFolders place tagged).symm.trans (rootFolder place rooted)
  case modelsRest =>
    intro place modelled rest
    rcases List.mem_append.mp rest with tagged | rooted
    · exact foldersDiffer ((modelFolder place modelled).symm.trans (tagFolders place tagged))
    · cases (modelFolder place modelled).symm.trans (rootFolder place rooted)

theorem proper_of_accepted {words : List (List Char)} (accepted : Identifier.Accepted words)
    (folder : Option Code.Folder) : (FilePlace.mk folder (Identifier.spell words).kebab).Proper :=
  ⟨Identifier.small_kebab, Identifier.slash_notMem_kebab accepted⟩

theorem Layout.proper_places
    (layout : Layout mode document tree parts registry models tags files) :
    ∀ place ∈ placesOf mode registry models tags, place.Proper := by
  intro place member
  rcases List.mem_append.mp member with modelled | member
  · obtain ⟨draft, hd, rfl⟩ := List.mem_map.mp modelled
    obtain ⟨raw, _, name, -, spelled, rfl⟩ := layout.exists_schema hd
    obtain ⟨words, -, rfl, accepted⟩ := Identifier.ofHumped_eq_ok spelled
    exact proper_of_accepted accepted _
  · rcases List.mem_append.mp member with tagged | rooted
    · rw [List.map_map] at tagged
      obtain ⟨tag, ht, rfl⟩ := List.mem_map.mp tagged
      obtain ⟨named, accepted⟩ := Identifier.ofSpaced_eq_ok (layout.named ht)
      rw [Function.comp_apply, tagDraft_place, named]
      exact proper_of_accepted accepted _
    · exact (proper_roots _ _ place rooted).2

end Layout

/-! ## The names in the index -/

/-- The index gives each tag a member and a class of its own; a member is called like the class of a
tag only if both names start at an underscore. -/
structure IndexedApart (mode : Mode) (tags : List Identifier) : Prop where
  members : (tags.map (·.lowerCamel)).Nodup
  classes : (tags.map fun tag => (Index.classImport mode tag).name).Nodup
  kinds : ∀ tag ∈ tags, ∀ other ∈ tags, tag.lowerCamel = (Index.classImport mode other).name →
    ∃ rest, tag.lowerCamel.toList = '_' :: rest

/-- What the class of a tag has behind the name of the tag. -/
def classEnding : Mode → String
  | .api => "Api"
  | .client => "Client"

theorem name_classImport (mode : Mode) (tag : Identifier) :
    (Index.classImport mode tag).name = tag.upperCamel ++ classEnding mode := by
  cases mode <;> rfl

/-- Tags with distinct class names have distinct members too. -/
theorem indexedApart_of_pairwise {tags : List Identifier} (mode : Mode)
    (spelled : ∀ tag ∈ tags, ∃ raw, Identifier.ofSpaced raw = .ok tag)
    (apart : tags.Pairwise NamedApart) : IndexedApart mode tags := by
  have accepted : ∀ tag ∈ tags, ∃ words, tag = Identifier.spell words ∧
      Identifier.Accepted words := fun tag member =>
    (spelled tag member).elim fun raw h => ⟨_, Identifier.ofSpaced_eq_ok h⟩
  refine ⟨?members, ?classes, ?kinds⟩
  case members =>
    rw [List.nodup_iff_pairwise_ne, List.pairwise_map]
    refine apart.imp_of_mem fun {tag other} ht ho named same => named.2 (String.toList_injective ?_)
    obtain ⟨words, rfl, accepted'⟩ := accepted tag ht
    obtain ⟨words', rfl, accepted''⟩ := accepted other ho
    rw [Identifier.upperCamel_eq_raised accepted', Identifier.upperCamel_eq_raised accepted'', same]
  case classes =>
    rw [List.nodup_iff_pairwise_ne, List.pairwise_map]
    refine apart.imp fun {tag other} named same => named.2 ?_
    rw [name_classImport, name_classImport] at same
    exact String.toList_injective (by simpa using congrArg String.toList same)
  case kinds =>
    intro tag ht other ho same
    obtain ⟨words, rfl, accepted'⟩ := accepted tag ht
    obtain ⟨words', rfl, accepted''⟩ := accepted other ho
    obtain ⟨c, rest, member, small⟩ := Identifier.lowerCamel_start accepted'
    obtain ⟨d, rest', type, start⟩ := Identifier.upperCamel_start accepted''
    have first := congrArg String.toList same
    rw [name_classImport, String.toList_append, type, member, List.cons_append,
      List.cons.injEq] at first
    obtain ⟨rfl, -⟩ := first
    rw [start.resolve_left (by simp [small])] at member
    exact ⟨rest, member⟩

/-! ## The outcome of a generation -/

/-- The parts of a document and its components are accepted, and each model and each tag with
operations can be written on its own. -/
structure EmitsAlone (mode : Mode) (document : Value) (parts : DocumentParts)
    (registry : Registry) (groups : List TagGroup) : Prop where
  found : DocumentParts.ofDocument document = .ok parts
  registered : Registry.ofSchemas parts.schemas = .ok registry
  grouped : Operation.grouped parts.paths parts.tags = .ok groups
  models : ∀ member ∈ parts.schemas, ∃ raw file,
    member.1 = .text raw ∧ Model.file registry raw member.2 = .ok file
  tags : ∀ group ∈ groups, group.isUsed = true → ∃ file, tagFile mode registry group = .ok file

/-- The tree has distinct paths, and its index has distinct names for the tags. -/
structure NamesApart (mode : Mode) (groups : List TagGroup) (tree : OutputTree) : Prop where
  files : SideBySide (tree.files.map (·.path))
  index : ∃ tags file, usedTags (sortedGroups groups) = .ok tags ∧
    Index.file mode (tags.map Prod.fst) = .ok file ∧ file ∈ tree.files ∧
    IndexedApart mode (tags.map Prod.fst)

section Outcome
variable {mode : Mode} {document : Value} {parts : DocumentParts} {registry : Registry}
  {groups : List TagGroup}

theorem modelFiles_of_emitted {schemas : Members}
    (emitted : ∀ member ∈ schemas, ∃ raw file,
      member.1 = .text raw ∧ Model.file registry raw member.2 = .ok file) :
    ∃ files, modelFiles registry schemas = .ok files := by
  induction schemas with
  | nil => exact ⟨[], rfl⟩
  | cons member rest ih =>
    obtain ⟨key, schema⟩ := member
    obtain ⟨raw, file, rfl, hf⟩ := emitted _ List.mem_cons_self
    obtain ⟨later, hl⟩ := ih fun m hm => emitted m (List.mem_cons_of_mem _ hm)
    exact ⟨file :: later, by rw [modelFiles, hf, hl]; rfl⟩

/-- If the models can be written, the outcome is that of the tags and the index. -/
theorem EmitsAlone.result (emits : EmitsAlone mode document parts registry groups) :
    ∃ models, (generate (.text mode.name) document).result = do
      let output ← tagOutput mode registry [] (sortedGroups groups)
      let index ← Index.file mode output.tags
      return ⟨models ++ output.files ++ [index] ++ Support.files mode, output.warnings⟩ := by
  obtain ⟨models, written⟩ := modelFiles_of_emitted emits.models
  refine ⟨models, ?_⟩
  simp only [generate, ofDocument, ofParts, Noted.result_bind, Noted.ofExcept_result,
    Noted.note_result, Noted.pure_result, Except.ok_bind, mode?_name, emits.found,
    emits.registered, emits.grouped, written]
  rfl

theorem mem_sortedGroups {group : TagGroup} : group ∈ sortedGroups groups ↔ group ∈ groups :=
  (Text.perm_sortedBy _ groups).mem_iff

theorem clashing_sortedGroups : Clashing (sortedGroups groups) ↔ Clashing groups := by
  simp only [Clashing, mem_sortedGroups]

theorem namesApart_of_pairwise {tree : OutputTree} {tags : List (Identifier × TagGroup)}
    (emits : EmitsAlone mode document parts registry groups)
    (named : usedTags (sortedGroups groups) = .ok tags)
    (apart : tags.Pairwise fun tag other => NamedApart tag.1 other.1)
    (h : (generate (.text mode.name) document).result = .ok tree) : NamesApart mode groups tree := by
  obtain ⟨found, hm, h⟩ := Noted.bind_eq_ok.mp h
  cases (mode?_name mode).symm.trans hm
  obtain ⟨parts', registry', models, tags', files, layout⟩ := layout_of_ofDocument h
  obtain ⟨groups', hg, used⟩ := layout.tagged
  cases emits.found.symm.trans layout.found
  cases emits.grouped.symm.trans hg
  cases named.symm.trans used
  refine ⟨?files, ?index⟩
  case files =>
    rw [layout.map_path]
    exact sideBySide_of_nodup (layout.nodup_places apart) layout.proper_places
  case index =>
    obtain ⟨file, hf, written⟩ := layout.file_of_mem
      (List.mem_append_right _ (List.mem_singleton_self _))
    obtain ⟨index, hi⟩ := index_of_tags mode (tags.map Prod.fst)
    cases written.symm.trans (indexDraft_file hi)
    refine ⟨tags, file, named, hi, hf, indexedApart_of_pairwise mode (fun tag ht => ?_) ?_⟩
    · obtain ⟨used, hu, rfl⟩ := List.mem_map.mp ht
      exact ⟨_, layout.named hu⟩
    · exact List.pairwise_map.mpr apart

/-- **Clashes are found exactly, and no file is written over another.**  If everything can be written
on its own, a generation is refused for the names of two tags exactly if two tags with operations
share a file name or a class name; otherwise it succeeds.  The files of an output have distinct
paths, even where case does not count, and the index has distinct names for its members and for the
classes. -/
theorem generate_apart (emits : EmitsAlone mode document parts registry groups) :
    ((∃ first second name, (generate (.text mode.name) document).result =
        .error (.naming (.tagClash first second name))) ↔ Clashing groups) ∧
      (¬ Clashing groups → ∃ tree, (generate (.text mode.name) document).result = .ok tree) ∧
      ∀ tree, (generate (.text mode.name) document).result = .ok tree →
        NamesApart mode groups tree := by
  have emitted : ∀ group ∈ sortedGroups groups, group.isUsed = true →
      ∃ file, tagFile mode registry group = .ok file :=
    fun group member => emits.tags group (mem_sortedGroups.mp member)
  have distinct : ((sortedGroups groups).map (·.name)).Nodup :=
    ((Text.perm_sortedBy _ groups).map _).nodup_iff.mpr (Operation.grouped_names emits.grouped).2
  obtain ⟨tags, named⟩ := usedTags_of_emitted emitted
  obtain ⟨models, result⟩ := emits.result
  have clashing := clashing_sortedGroups.symm.trans (clashing_iff distinct named)
  rcases tagOutput_cases emitted named [] with ⟨fresh, output, ho⟩ | ⟨clash, first, second, name, refused⟩
  · obtain ⟨index, hi⟩ := index_of_tags mode output.tags
    have free : ¬ Clashing groups := fun h => clashing.mp h fresh
    have accepted : (generate (.text mode.name) document).result = .ok
        ⟨models ++ output.files ++ [index] ++ Support.files mode, output.warnings⟩ := by
      rw [result, ho, Except.ok_bind, hi]
      rfl
    refine ⟨⟨?_, fun h => absurd h free⟩, fun _ => ⟨_, accepted⟩, fun tree =>
      namesApart_of_pairwise emits named ((fresh_iff_pairwise named).mp fresh)⟩
    rintro ⟨first, second, name, refused⟩
    cases accepted.symm.trans refused
  · have stopped : (generate (.text mode.name) document).result =
        .error (.naming (.tagClash first second name)) := by
      rw [result, refused]
      rfl
    refine ⟨⟨fun _ => clashing.mpr clash, fun _ => ⟨first, second, name, stopped⟩⟩,
      fun free => absurd (clashing.mpr clash) free, fun tree h => ?_⟩
    cases stopped.symm.trans h

/-- Whether the parts of a document are accepted, and each model and each tag with operations can
be written on its own. -/
def emitsAlone (mode : Mode) (document : Value) : Except Failure Bool := do
  let parts ← DocumentParts.ofDocument document
  let registry ← Registry.ofSchemas parts.schemas
  let groups ← Operation.grouped parts.paths parts.tags
  let models := parts.schemas.all fun member =>
    match member.1 with
    | .text raw => (Model.file registry raw member.2).isOk
    | _ => false
  let tags := groups.all fun group => !group.isUsed || (tagFile mode registry group).isOk
  return models && tags

theorem emitsAlone_eq_true (h : emitsAlone mode document = .ok true) :
    ∃ parts registry groups, EmitsAlone mode document parts registry groups := by
  obtain ⟨parts, hp, h⟩ := Except.bind_eq_ok.mp h
  obtain ⟨registry, hr, h⟩ := Except.bind_eq_ok.mp h
  obtain ⟨groups, hg, h⟩ := Except.bind_eq_ok.mp h
  have both := Except.ok.inj h
  rw [Bool.and_eq_true, List.all_eq_true, List.all_eq_true] at both
  refine ⟨parts, registry, groups, hp, hr, hg, fun member hm => ?_, fun group hg used => ?_⟩
  · have written := both.1 member hm
    split at written
    · next raw key =>
      obtain ⟨file, hf⟩ := Except.exists_of_isOk written
      exact ⟨raw, file, key, hf⟩
    · cases written
  · have written := both.2 group hg
    rw [used] at written
    exact Except.exists_of_isOk written

/-- A document with two paths, each with an operation of its own tag. -/
def taggedDocument (first second : String) : Value :=
  let response : Value := .map [(.text "200", .map [(.text "description", .text "Done.")])]
  let path (tag operationId : String) : Value :=
    .map [(.text "delete", .map [(.text "operationId", .text operationId),
      (.text "summary", .text "Deletes."), (.text "tags", .list [.text tag]),
      (.text "responses", response)])]
  let declaration (tag : String) : Value := .map [(.text "name", .text tag)]
  .map [(.text "components", .map [(.text "schemas", .map [])]),
    (.text "paths", .map [(.text "/a", path first "deleteA"), (.text "/b", path second "deleteB")]),
    (.text "tags", .list [declaration first, declaration second])]

/-- In the first document the file name of one tag is the class name of the other, and it is
refused; the tags of the second differ by a blank, which is enough. -/
theorem generate_apart_tagged :
    (∃ parts registry groups, EmitsAlone .api (taggedDocument "_x" "_X") parts registry groups ∧
      Clashing groups ∧ ∃ first second name,
        (generate (.text "api") (taggedDocument "_x" "_X")).result =
          .error (.naming (.tagClash first second name))) ∧
    ∃ parts registry groups tree,
      EmitsAlone .client (taggedDocument "user admin" "Useradmin") parts registry groups ∧
      (generate (.text "client") (taggedDocument "user admin" "Useradmin")).result = .ok tree ∧
      NamesApart .client groups tree := by
  constructor
  · have alone : emitsAlone .api (taggedDocument "_x" "_X") = .ok true :=
      Except.eq_ok_of_toOption (by decide +kernel)
    obtain ⟨parts, registry, groups, emits⟩ := emitsAlone_eq_true alone
    have refused : ¬ (generate (.text "api") (taggedDocument "_x" "_X")).result.isOk = true := by
      decide +kernel
    have clash : Clashing groups := by
      by_contra free
      obtain ⟨tree, accepted⟩ := (generate_apart emits).2.1 free
      exact refused (by rw [show Value.text "api" = .text Mode.api.name from rfl, accepted]; rfl)
    exact ⟨parts, registry, groups, emits, clash, (generate_apart emits).1.mpr clash⟩
  · have alone : emitsAlone .client (taggedDocument "user admin" "Useradmin") = .ok true :=
      Except.eq_ok_of_toOption (by decide +kernel)
    obtain ⟨parts, registry, groups, emits⟩ := emitsAlone_eq_true alone
    obtain ⟨tree, accepted⟩ := Except.exists_of_isOk
      (show (generate (.text "client") (taggedDocument "user admin" "Useradmin")).result.isOk = true
        by decide +kernel)
    exact ⟨parts, registry, groups, tree, emits, accepted, (generate_apart emits).2.2 tree accepted⟩

end Outcome

end Generation
end TypedApi
