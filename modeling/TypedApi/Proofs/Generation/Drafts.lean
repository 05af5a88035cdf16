import TypedApi.Generation
import TypedApi.Proofs.Code.Import
import TypedApi.Proofs.Naming.Casing
import TypedApi.Proofs.Output.TagFiles

/-! # The drafts of generated files

A draft is a generated file before it is written down: its place and its lines, with the imports
that they need.  The output for a document is that of its drafts in order, with the support files
behind them (`Generation.layout_of_ofDocument`).
-/
namespace TypedApi

/-- A generated file with the imports of its lines. -/
structure Draft where
  folder : Option Code.Folder
  name : String
  lines : Emission (List String)

namespace Draft

/-- The path below the output directory. -/
def path (draft : Draft) : String := Code.modulePath draft.folder draft.name

/-- The imports that the lines of a draft register. -/
def imports (draft : Draft) : Code.ImportSet :=
  (Code.ImportSet.empty draft.folder).addAll draft.lines.notes

/-- The file that a draft is written to. -/
def file (draft : Draft) : Except Failure Code.SourceFile :=
  draft.lines.toFile draft.folder draft.path

end Draft

namespace Generation

/-- The draft of the model of a component schema. -/
def modelDraft (registry : Registry) (member : Scalar × Value) : Except Failure Draft :=
  match member with
  | (.text raw, schema) => do
    let name ← Identifier.ofHumped raw
    return ⟨some .model, name.kebab, Model.lines registry name schema⟩
  | _ => .error (.defect .nameNotText)

/-- The draft of the file of a tag. -/
def tagDraft (mode : Mode) (registry : Registry) (tag : Identifier × TagGroup) : Draft :=
  match mode with
  | .api => ⟨some .api, tag.1.kebab, Controller.lines registry tag.1 tag.2⟩
  | .client => ⟨some .client, tag.1.kebab, Client.lines registry tag.1 tag.2⟩

/-- The draft of the index of a mode. -/
def indexDraft (mode : Mode) (tags : List Identifier) : Draft :=
  match mode with
  | .api => ⟨none, "register-apis", Index.registerLines tags⟩
  | .client => ⟨none, "clients", Index.clientsLines tags⟩

/-- The tags of the groups that have operations. -/
def usedTags (groups : List TagGroup) : Except Failure (List (Identifier × TagGroup)) :=
  (groups.filter TagGroup.isUsed).mapM fun group =>
    return (← Identifier.ofSpaced group.name, group)

/-- The drafts of a document in a mode: the models, the used tags and the index. -/
def drafts (mode : Mode) (document : Value) : Except Failure (List Draft) := do
  let parts ← DocumentParts.ofDocument document
  let registry ← Registry.ofSchemas parts.schemas
  let groups ← Operation.grouped parts.paths parts.tags
  let models ← parts.schemas.mapM (modelDraft registry)
  let tags ← usedTags (sortedGroups groups)
  return models ++ tags.map (tagDraft mode registry) ++ [indexDraft mode (tags.map Prod.fst)]

/-- The files that some drafts are written to. -/
def WrittenAs (drafts : List Draft) (files : List Code.SourceFile) : Prop :=
  List.Forall₂ (fun draft file => draft.file = .ok file) drafts files

/-! ## Drafts and files -/

/-- What a draft was written to holds its lines. -/
theorem holds_of_file {draft : Draft} {file : Code.SourceFile} (h : draft.file = .ok file) :
    ∃ lines, draft.lines.result = .ok lines ∧ file.Holds draft.path lines := by
  obtain ⟨lines, hl, h⟩ := Except.bind_eq_ok.mp h
  cases h
  exact ⟨lines, hl, _, rfl⟩

theorem modelDraft_eq_ok {registry : Registry} {member : Scalar × Value} {draft : Draft}
    (h : modelDraft registry member = .ok draft) :
    ∃ raw name, member.1 = .text raw ∧ Identifier.ofHumped raw = .ok name ∧
      draft = ⟨some .model, name.kebab, Model.lines registry name member.2⟩ := by
  obtain ⟨key, schema⟩ := member
  cases key with
  | text raw =>
    obtain ⟨name, named, h⟩ := Except.bind_eq_ok.mp h
    cases h
    exact ⟨raw, name, rfl, named, rfl⟩
  | _ => cases h

theorem modelDraft_file {registry : Registry} {raw : String} {schema : Value}
    {file : Code.SourceFile} (h : Model.file registry raw schema = .ok file) :
    ∃ draft, modelDraft registry (.text raw, schema) = .ok draft ∧ draft.file = .ok file := by
  obtain ⟨name, hn, hf⟩ := Except.bind_eq_ok.mp h
  refine ⟨⟨some .model, name.kebab, Model.lines registry name schema⟩, ?_, hf⟩
  rw [modelDraft, hn]
  rfl

theorem modelFiles_drafts {registry : Registry} {schemas : Members} {files : List Code.SourceFile}
    (h : modelFiles registry schemas = .ok files) :
    ∃ drafts, schemas.mapM (modelDraft registry) = .ok drafts ∧ WrittenAs drafts files := by
  induction schemas generalizing files with
  | nil =>
    cases h
    exact ⟨[], rfl, .nil⟩
  | cons member rest ih =>
    obtain ⟨key, schema⟩ := member
    cases key with
    | text raw =>
      rw [modelFiles] at h
      obtain ⟨file, hf, h⟩ := Except.bind_eq_ok.mp h
      obtain ⟨later, hl, h⟩ := Except.bind_eq_ok.mp h
      cases h
      obtain ⟨draft, hd, written⟩ := modelDraft_file hf
      obtain ⟨drafts, hds, allWritten⟩ := ih hl
      refine ⟨draft :: drafts, ?_, .cons written allWritten⟩
      rw [List.mapM_cons, hd, hds]
      rfl
    | _ => cases h

theorem tagDraft_file {mode : Mode} {registry : Registry} {group : TagGroup} {tag : Identifier}
    {file : Code.SourceFile} (ht : Identifier.ofSpaced group.name = .ok tag)
    (h : tagFile mode registry group = .ok file) :
    (tagDraft mode registry (tag, group)).file = .ok file := by
  cases mode with
  | api | client =>
    obtain ⟨other, ho, hf⟩ := Except.bind_eq_ok.mp h
    cases ht.symm.trans ho
    exact hf

/-! ## The file of a tag -/

section Tag
variable {mode : Mode} {registry : Registry} {tag : Identifier} {group : TagGroup}
  {lines : List String} (h : (tagDraft mode registry (tag, group)).lines.result = .ok lines)
include h

theorem signatures_of_tagDraft :
    ∃ signatures, (Signature.ofGroup registry group).result = .ok signatures := by
  cases mode with
  | api => exact Controller.signatures_of_lines h
  | client => exact Client.signatures_of_lines h

/-- The file of a tag declares its class. -/
theorem declares_tagDraft (named : Identifier.ofSpaced group.name = .ok tag) :
    Code.Declares lines (Index.classImport mode tag).name := by
  have plain := (Identifier.plain_of_ofSpaced named).nameParts
  obtain ⟨signatures, hs⟩ := signatures_of_tagDraft h
  cases mode with
  | api =>
    obtain ⟨_, same, opening, -⟩ := Controller.lines_delivers tag hs
    cases h.symm.trans same
    exact Controller.declares_of_written opening plain
  | client =>
    obtain ⟨_, same, opening, -⟩ := Client.lines_delivers tag hs
    cases h.symm.trans same
    exact Client.declares_of_written opening plain

end Tag

/-! ## Used tags -/

section UsedTags
variable {groups : List TagGroup} {tags : List (Identifier × TagGroup)}

theorem usedTags_cons_of_unused {group : TagGroup} {rest : List TagGroup}
    (unused : group.operations.isEmpty = true) : usedTags (group :: rest) = usedTags rest := by
  rw [usedTags, List.filter_cons_of_neg (by simp [TagGroup.isUsed, unused])]
  rfl

theorem usedTags_cons_of_used {group : TagGroup} {rest : List TagGroup}
    (used : ¬ group.operations.isEmpty = true) :
    usedTags (group :: rest) = do
      let tag ← Identifier.ofSpaced group.name
      let later ← usedTags rest
      return (tag, group) :: later := by
  rw [usedTags, List.filter_cons_of_pos (by simp [TagGroup.isUsed, used]), List.mapM_cons]
  cases Identifier.ofSpaced group.name <;> rfl

/-- The used tags are the groups with operations in order, each with its name. -/
theorem forall₂_usedTags (h : usedTags groups = .ok tags) :
    List.Forall₂ (fun group tag => tag.2 = group ∧ Identifier.ofSpaced group.name = .ok tag.1)
      (groups.filter TagGroup.isUsed) tags := by
  refine (Except.forall₂_of_mapM h).imp fun group tag named => ?_
  obtain ⟨name, spelled, named⟩ := Except.bind_eq_ok.mp named
  cases named
  exact ⟨rfl, spelled⟩

end UsedTags

theorem tagOutput_drafts {mode : Mode} {registry : Registry} {taken : List (String × String)}
    {groups : List TagGroup} {output : TagOutput}
    (h : tagOutput mode registry taken groups = .ok output) :
    ∃ tags, usedTags groups = .ok tags ∧ output.tags = tags.map Prod.fst ∧
      WrittenAs (tags.map (tagDraft mode registry)) output.files := by
  induction groups generalizing taken output with
  | nil =>
    cases h
    exact ⟨[], rfl, rfl, .nil⟩
  | cons group rest ih =>
    unfold tagOutput at h
    by_cases unused : group.operations.isEmpty = true
    · rw [if_pos unused] at h
      obtain ⟨later, hl, h⟩ := Except.bind_eq_ok.mp h
      cases h
      obtain ⟨tags, ht, names, written⟩ := ih hl
      exact ⟨tags, (usedTags_cons_of_unused unused).trans ht, names, written⟩
    · rw [if_neg unused] at h
      obtain ⟨tag, hn, h⟩ := Except.bind_eq_ok.mp h
      obtain ⟨taken, -, h⟩ := Except.bind_eq_ok.mp h
      obtain ⟨file, hf, h⟩ := Except.bind_eq_ok.mp h
      obtain ⟨later, hl, h⟩ := Except.bind_eq_ok.mp h
      cases h
      obtain ⟨tags, ht, names, written⟩ := ih hl
      refine ⟨(tag, group) :: tags, ?_, congrArg (tag :: ·) names,
        .cons (tagDraft_file hn hf) written⟩
      rw [usedTags_cons_of_used unused, hn, ht]
      rfl

theorem indexDraft_file {mode : Mode} {tags : List Identifier} {file : Code.SourceFile}
    (h : Index.file mode tags = .ok file) : (indexDraft mode tags).file = .ok file := by
  cases mode with
  | api | client => exact h

/-- How the output of a mode comes about: the parts of the document, the drafts of its models and
its used tags, and the files they are written to. -/
structure Layout (mode : Mode) (document : Value) (tree : OutputTree) (parts : DocumentParts)
    (registry : Registry) (models : List Draft) (tags : List (Identifier × TagGroup))
    (files : List Code.SourceFile) : Prop where
  found : DocumentParts.ofDocument document = .ok parts
  registered : Registry.ofSchemas parts.schemas = .ok registry
  modelled : parts.schemas.mapM (modelDraft registry) = .ok models
  tagged : ∃ groups, Operation.grouped parts.paths parts.tags = .ok groups ∧
    usedTags (sortedGroups groups) = .ok tags
  written : WrittenAs
    (models ++ tags.map (tagDraft mode registry) ++ [indexDraft mode (tags.map Prod.fst)]) files
  tree : tree.files = files ++ Support.files mode

section Layout
variable {mode : Mode} {document : Value} {tree : OutputTree} {parts : DocumentParts}
  {registry : Registry} {models : List Draft} {tags : List (Identifier × TagGroup)}
  {files : List Code.SourceFile}

theorem Layout.drafts (layout : Layout mode document tree parts registry models tags files) :
    drafts mode document = .ok
      (models ++ tags.map (tagDraft mode registry) ++ [indexDraft mode (tags.map Prod.fst)]) := by
  obtain ⟨hp, hr, hm, ⟨groups, hg, ht⟩, -, -⟩ := layout
  refine Except.bind_eq_ok.mpr ⟨parts, hp, ?_⟩
  refine Except.bind_eq_ok.mpr ⟨registry, hr, ?_⟩
  refine Except.bind_eq_ok.mpr ⟨groups, hg, ?_⟩
  refine Except.bind_eq_ok.mpr ⟨models, hm, ?_⟩
  exact Except.bind_eq_ok.mpr ⟨tags, ht, rfl⟩

/-- The file of a draft is in the output. -/
theorem Layout.file_of_mem (layout : Layout mode document tree parts registry models tags files)
    {draft : Draft} (hd : draft ∈ models ++ tags.map (tagDraft mode registry)
      ++ [indexDraft mode (tags.map Prod.fst)]) :
    ∃ file ∈ tree.files, draft.file = .ok file := by
  obtain ⟨file, hf, written⟩ := exists_of_mem_left layout.written hd
  rw [layout.tree]
  exact ⟨file, List.mem_append_left _ hf, written⟩

/-- The models are drafts of component schemas. -/
theorem Layout.exists_schema
    (layout : Layout mode document tree parts registry models tags files) {draft : Draft}
    (hd : draft ∈ models) :
    ∃ raw schema name, (.text raw, schema) ∈ parts.schemas ∧ Identifier.ofHumped raw = .ok name ∧
      draft = ⟨some .model, name.kebab, Model.lines registry name schema⟩ := by
  obtain ⟨⟨key, schema⟩, hm, drafted⟩ :=
    exists_of_mem_right (Except.forall₂_of_mapM layout.modelled) hd
  obtain ⟨raw, name, rfl, spelled, same⟩ := modelDraft_eq_ok drafted
  exact ⟨raw, schema, name, hm, spelled, same⟩

/-- The tags that a generation uses are named by their groups. -/
theorem Layout.named (layout : Layout mode document tree parts registry models tags files)
    {tag : Identifier × TagGroup} (ht : tag ∈ tags) :
    Identifier.ofSpaced tag.2.name = .ok tag.1 := by
  obtain ⟨groups, -, used⟩ := layout.tagged
  obtain ⟨group, -, rfl, named⟩ := exists_of_mem_right (forall₂_usedTags used) ht
  exact named

end Layout

/-- The output of a generation has a layout. -/
theorem layout_of_ofDocument {mode : Mode} {document : Value} {tree : OutputTree}
    (h : (ofDocument mode document).result = .ok tree) :
    ∃ parts registry models tags files,
      Layout mode document tree parts registry models tags files := by
  obtain ⟨parts, hp, h⟩ := Noted.bind_eq_ok.mp h
  obtain ⟨registry, hr, h⟩ := Noted.bind_eq_ok.mp h
  obtain ⟨groups, hg, h⟩ := Noted.bind_eq_ok.mp h
  obtain ⟨modelFiles, hm, h⟩ := Noted.bind_eq_ok.mp h
  obtain ⟨_, -, h⟩ := Noted.bind_eq_ok.mp h
  obtain ⟨output, ho, h⟩ := Noted.bind_eq_ok.mp h
  obtain ⟨_, -, h⟩ := Noted.bind_eq_ok.mp h
  obtain ⟨index, hi, h⟩ := Noted.bind_eq_ok.mp h
  cases h
  obtain ⟨models, hd, modelled⟩ := modelFiles_drafts hm
  obtain ⟨tags, ht, names, tagged⟩ := tagOutput_drafts ho
  rw [Noted.ofExcept_result, names] at hi
  refine ⟨parts, registry, models, tags, modelFiles ++ output.files ++ [index], hp, hr, hd,
    ⟨groups, hg, ht⟩, ?_, rfl⟩
  exact List.rel_append (List.rel_append modelled tagged) (.cons (indexDraft_file hi) .nil)

end Generation
end TypedApi
