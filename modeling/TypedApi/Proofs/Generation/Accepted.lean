import TypedApi.Proofs.Generation.Places

/-! # Accepted documents

An accepted document comes apart into its parts, the registry of its components and the groups of
its tags (`Generation.accepted_of_generate`).  The file of every component and of every tag with
operations is found at its path, since no file of an output hides another one
(`Generation.at?_of_mem`).
-/
namespace TypedApi

/-- The file at a path. -/
def OutputTree.at? (tree : OutputTree) (path : String) : Option Code.SourceFile :=
  tree.files.find? fun file => file.path == path

namespace Generation

/-- No file of an output hides another one. -/
theorem at?_of_mem {mode document : Value} {tree : OutputTree}
    (h : (generate mode document).result = .ok tree) {file : Code.SourceFile}
    (hf : file ∈ tree.files) : tree.at? file.path = some file := by
  unfold OutputTree.at?
  cases found : tree.files.find? fun other => other.path == file.path with
  | none => exact absurd (List.find?_eq_none.mp found file hf) (by simp)
  | some other =>
    have listed := List.mem_of_find?_eq_some found
    have path : other.path = file.path := by simpa using List.find?_some found
    have names : other.names = file.names := by
      rw [Code.SourceFile.names, Code.SourceFile.names, path]
    rw [List.inj_on_of_nodup_map (separate_of_generate h).distinct listed hf names]

/-- A document that is accepted in a mode, with what it is taken apart into and its output. -/
structure Accepted (mode : Mode) (document : Value) (parts : DocumentParts) (registry : Registry)
    (groups : List TagGroup) (tree : OutputTree) : Prop where
  found : DocumentParts.ofDocument document = .ok parts
  registered : Registry.ofSchemas parts.schemas = .ok registry
  grouped : Operation.grouped parts.paths parts.tags = .ok groups
  result : (generate (.text mode.name) document).result = .ok tree

section Accepted
variable {mode : Mode} {document : Value} {parts : DocumentParts} {registry : Registry}
  {groups : List TagGroup} {tree : OutputTree}

theorem ofDocument_of_generate (h : (generate (.text mode.name) document).result = .ok tree) :
    (ofDocument mode document).result = .ok tree := by
  obtain ⟨found, hm, rest⟩ := Noted.bind_eq_ok.mp h
  cases (mode?_name mode).symm.trans hm
  exact rest

/-- Whatever is accepted comes apart. -/
theorem accepted_of_generate (h : (generate (.text mode.name) document).result = .ok tree) :
    ∃ parts registry groups, Accepted mode document parts registry groups tree := by
  obtain ⟨parts, registry, models, tags, files, layout⟩ :=
    layout_of_ofDocument (ofDocument_of_generate h)
  obtain ⟨groups, hg, -⟩ := layout.tagged
  exact ⟨parts, registry, groups, layout.found, layout.registered, hg, h⟩

theorem Accepted.layout (accepted : Accepted mode document parts registry groups tree) :
    ∃ models tags files, Layout mode document tree parts registry models tags files ∧
      usedTags (sortedGroups groups) = .ok tags := by
  obtain ⟨parts', registry', models, tags, files, layout⟩ :=
    layout_of_ofDocument (ofDocument_of_generate accepted.result)
  cases accepted.found.symm.trans layout.found
  cases accepted.registered.symm.trans layout.registered
  obtain ⟨groups', hg, used⟩ := layout.tagged
  cases accepted.grouped.symm.trans hg
  exact ⟨models, tags, files, layout, used⟩

theorem path_of_file {draft : Draft} {file : Code.SourceFile} (h : draft.file = .ok file) :
    file.path = draft.path := by
  obtain ⟨lines, -, h⟩ := Except.bind_eq_ok.mp h
  cases h
  rfl

/-- Every draft of an accepted document is written to its path. -/
theorem Accepted.draft_at (accepted : Accepted mode document parts registry groups tree)
    {models : List Draft} {tags : List (Identifier × TagGroup)} {files : List Code.SourceFile}
    (layout : Layout mode document tree parts registry models tags files) {draft : Draft}
    (hd : draft ∈ models ++ tags.map (tagDraft mode registry)
      ++ [indexDraft mode (tags.map Prod.fst)]) :
    ∃ file, draft.file = .ok file ∧ tree.at? draft.path = some file := by
  obtain ⟨file, hf, written⟩ := layout.file_of_mem hd
  have place := at?_of_mem accepted.result hf
  rw [path_of_file written] at place
  exact ⟨file, written, place⟩

/-- The file of a component is at its place. -/
theorem Accepted.model_at (accepted : Accepted mode document parts registry groups tree)
    {raw : String} {schema : Value} (hm : (.text raw, schema) ∈ parts.schemas) :
    ∃ name file, Identifier.ofHumped raw = .ok name ∧
      Draft.file ⟨some .model, name.kebab, Model.lines registry name schema⟩ = .ok file ∧
      tree.at? ("model/" ++ name.kebab ++ ".ts") = some file := by
  obtain ⟨models, tags, files, layout, -⟩ := accepted.layout
  obtain ⟨draft, hd, drafted⟩ :=
    exists_of_mem_left (Except.forall₂_of_mapM layout.modelled) hm
  obtain ⟨_, name, same, named, rfl⟩ := modelDraft_eq_ok drafted
  cases same
  obtain ⟨file, written, place⟩ := accepted.draft_at layout
    (List.mem_append_left _ (List.mem_append_left _ hd))
  exact ⟨name, file, named, written, place⟩

/-- The file of a tag with operations is at its place. -/
theorem Accepted.tag_at (accepted : Accepted mode document parts registry groups tree)
    {group : TagGroup} (hg : group ∈ groups) (used : group.isUsed = true) :
    ∃ tag file, Identifier.ofSpaced group.name = .ok tag ∧
      (tagDraft mode registry (tag, group)).file = .ok file ∧
      tree.at? (tagDraft mode registry (tag, group)).path = some file := by
  obtain ⟨models, tags, files, layout, named⟩ := accepted.layout
  obtain ⟨⟨tag, _⟩, ht, rfl, spelled⟩ := exists_of_mem_left (forall₂_usedTags named)
    (List.mem_filter.mpr ⟨mem_sortedGroups.mpr hg, used⟩)
  obtain ⟨file, written, place⟩ := accepted.draft_at layout
    (List.mem_append_left _ (List.mem_append_right _ (List.mem_map_of_mem ht)))
  exact ⟨tag, file, spelled, written, place⟩

/-- The tags that are used share no names. -/
theorem Accepted.indexedApart (accepted : Accepted mode document parts registry groups tree)
    {tags : List (Identifier × TagGroup)} (named : usedTags (sortedGroups groups) = .ok tags) :
    IndexedApart mode (tags.map Prod.fst) := by
  obtain ⟨models, tags', files, layout, named'⟩ := accepted.layout
  cases named.symm.trans named'
  have apart := layout.namedApart (ofDocument_of_generate accepted.result)
  refine indexedApart_of_pairwise mode (fun tag ht => ?_) (List.pairwise_map.mpr apart)
  obtain ⟨used, hu, rfl⟩ := List.mem_map.mp ht
  exact ⟨_, layout.named hu⟩

end Accepted
end Generation
end TypedApi
