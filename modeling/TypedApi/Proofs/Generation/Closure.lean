import TypedApi.Proofs.Generation.Drafts
import TypedApi.Proofs.Naming.Casing
import TypedApi.Proofs.Schema.Registry
import TypedApi.Proofs.Support.Declarations

/-! # Generated trees are closed

Every relative import of a generated file leads to a file of the same output that exports the
imported name (`Generation.imports_closed`).  A reference finds its component by the type name and
its file by the file name; the two agree since a type name has one file name
(`Identifier.kebab_eq_of_upperCamel_eq`).
-/
namespace TypedApi

/-- An import from these files: a package, or a file among them that exports the name. -/
def Provides (files : List Code.SourceFile) (i : Code.Import) : Prop :=
  match i.source with
  | .package name => Code.isRelative name = false
  | .generated folder file => Code.IsSegment file ∧
      ∃ f ∈ files, f.path = Code.modulePath folder file ∧ i.name ∈ Code.exports f.content

theorem Provides.mono {files more : List Code.SourceFile} {i : Code.Import}
    (h : Provides files i) (subset : ∀ f ∈ files, f ∈ more) : Provides more i := by
  unfold Provides at h ⊢
  split
  · rename_i name found
    rw [found] at h
    exact h
  · rename_i folder file found
    rw [found] at h
    obtain ⟨segment, f, hf, path, exported⟩ := h
    exact ⟨segment, f, subset f hf, path, exported⟩

/-! ## Names -/

namespace Identifier.Plain
variable {name : Identifier}

/-- A file name without slashes and points is one segment of a path. -/
theorem isSegment (plain : name.Plain) : Code.IsSegment name.kebab := by
  have fails : ∀ c, Text.isPlainWordChar c = false → c ≠ '-' → c ∉ name.kebab.toList :=
    fun c hc hyphen hm => (plain.kebab c hm).elim (fun h => by rw [hc] at h; cases h) hyphen
  refine ⟨fails '/' (by decide) (by decide), fun h => ?_, fun h => ?_⟩
  · exact fails '.' (by decide) (by decide) (by rw [h]; exact List.mem_cons_self)
  · exact fails '.' (by decide) (by decide) (by rw [h]; exact List.mem_cons_self)

end Identifier.Plain

/-! ## Support files -/

namespace Support

theorem isSegment_of_mem {file : String}
    (h : file ∈ ["validate", "base-api", "base-client"]) : Code.IsSegment file := by
  have names : ∀ file ∈ ["validate", "base-api", "base-client"], '/' ∉ file.toList ∧
      file.toList ≠ ['.'] ∧ file.toList ≠ ['.', '.'] := by decide +kernel
  obtain ⟨noSlash, notHere, notAbove⟩ := names file h
  exact ⟨noSlash, notHere, notAbove⟩

theorem provides_helper (mode : Mode) {name : String} (h : name ∈ helpers.map (·.name)) :
    Provides (files mode) (Code.Import.helper name) := by
  have leads : ∀ d ∈ helpers, d.lead ∈ Code.exportLeads := by simp [helpers, Code.exportLeads]
  obtain ⟨d, hd, rfl⟩ := List.mem_map.mp h
  refine ⟨isSegment_of_mem (by simp), file "validate.ts" validateLines, ?_, rfl,
    Code.mem_exports_of_support (declares_of_standsIn (leads d hd) (helpers_standIn d hd))⟩
  cases mode <;> simp [files]

theorem provides_base (mode : Mode) {name : String} (h : name ∈ (baseNames mode).map (·.name)) :
    Provides (files mode) ⟨.generated none (baseFile mode), name⟩ := by
  have leads : ∀ d ∈ baseNames mode, d.lead ∈ Code.exportLeads := by
    cases mode <;> simp [baseNames, Code.exportLeads]
  obtain ⟨d, hd, rfl⟩ := List.mem_map.mp h
  have exported := declares_of_standsIn (leads d hd) (baseNames_standIn mode d hd)
  cases mode with
  | api =>
    exact ⟨isSegment_of_mem (by simp [baseFile]), file "base-api.ts" baseApiLines,
      List.mem_cons_self, by decide +kernel, Code.mem_exports_of_support exported⟩
  | client =>
    exact ⟨isSegment_of_mem (by simp [baseFile]), file "base-client.ts" baseClientLines,
      List.mem_cons_self, by decide +kernel, Code.mem_exports_of_support exported⟩

end Support

/-! ## Generated files -/

namespace Generation

variable {mode : Mode} {document : Value} {tree : OutputTree} {parts : DocumentParts}
  {registry : Registry} {models : List Draft} {tags : List (Identifier × TagGroup)}
  {files : List Code.SourceFile}

theorem Layout.support (layout : Layout mode document tree parts registry models tags files)
    {i : Code.Import} (h : Provides (Support.files mode) i) : Provides tree.files i :=
  h.mono fun f hf => by
    rw [layout.tree]
    exact List.mem_append_right files hf

theorem holds_content {file : Code.SourceFile} {path : String} {lines : List String}
    (h : file.Holds path lines) :
    ∃ imports, file.content = Code.fileText [imports, Code.joinLines lines] := by
  obtain ⟨imports, rfl⟩ := h
  exact ⟨imports, rfl⟩

theorem holds_path {file : Code.SourceFile} {path : String} {lines : List String}
    (h : file.Holds path lines) : file.path = path := by
  obtain ⟨imports, rfl⟩ := h
  rfl

/-- **References lead to their component.**  A registered component has a model file, under the file
name that the reference spells, however it is spelled. -/
theorem Layout.model_of_knows (layout : Layout mode document tree parts registry models tags files)
    {name : Identifier} (known : registry.Knows name) :
    ∃ raw schema declared file, (.text raw, schema) ∈ parts.schemas ∧
      Identifier.ofHumped raw = .ok declared ∧ declared.upperCamel = name.upperCamel ∧
      Model.file registry raw schema = .ok file ∧ file ∈ tree.files ∧
      file.path = Code.modulePath (some .model) name.kebab ∧
      ∀ export_ ∈ Model.exported name.upperCamel, export_ ∈ Code.exports file.content := by
  obtain ⟨⟨reference, spelled⟩, kind, registered⟩ := known
  have plain := Identifier.plain_of_parseReference spelled
  obtain ⟨⟨key, schema⟩, hm, declared, ⟨⟨raw, hk, hd⟩, -⟩, same⟩ :=
    Registry.declared_of_kind? layout.registered registered
  subst hk
  obtain ⟨draft, hdraft, drafted⟩ := exists_of_mem_left (Except.forall₂_of_mapM layout.modelled) hm
  obtain ⟨file, hf, written⟩ := layout.file_of_mem
    (List.mem_append_left _ (List.mem_append_left _ hdraft))
  obtain ⟨_, name', key, spelled', rfl⟩ := modelDraft_eq_ok drafted
  cases key
  cases hd.symm.trans spelled'
  obtain ⟨lines, hl, holds⟩ := holds_of_file written
  obtain ⟨imports, content⟩ := holds_content holds
  -- the reference and the declaration share the type name, and so the file name
  obtain ⟨raw', hr⟩ := Identifier.ofHumped_of_parseReference spelled
  have sameFile := Identifier.kebab_eq_of_upperCamel_eq hd hr same
  have declares := Model.lines_declare hl
  rw [same] at declares
  refine ⟨raw, schema, declared, file, hm, hd, same, ?_, hf, ?_, fun export_ he => ?_⟩
  · rw [Model.file, hd]
    exact written
  · rw [holds_path holds, ← sameFile]
    rfl
  · exact Code.mem_exports_of_holds content (declares.declares plain.nameParts export_ he)

theorem Layout.provides_export (layout : Layout mode document tree parts registry models tags files)
    {name : Identifier} (known : registry.Knows name) {export_ : String}
    (h : export_ ∈ Model.exported name.upperCamel) : Provides tree.files (name.export export_) := by
  obtain ⟨reference, spelled⟩ := known.referable
  obtain ⟨_, _, _, file, -, -, -, -, hf, path, exports⟩ := layout.model_of_knows known
  exact ⟨(Identifier.plain_of_parseReference spelled).isSegment, file, hf, path, exports _ h⟩

/-- What conversions import is provided. -/
theorem Layout.provides_of_supplies
    (layout : Layout mode document tree parts registry models tags files) {i : Code.Import}
    (h : registry.Supplies i) : Provides tree.files i := by
  cases h with
  | type known => exact layout.provides_export known (by simp [Model.exported])
  | runs function =>
    cases function with
    | helper hn =>
      exact layout.support (Support.provides_helper mode (conversionHelpers_subset _ hn))
    | validator known =>
      exact layout.provides_export known (by simp [Model.exported, Identifier.validator])
    | printer known =>
      exact layout.provides_export known (by simp [Model.exported, Identifier.printer])

theorem Layout.model_provided
    (layout : Layout mode document tree parts registry models tags files) {draft : Draft}
    (hd : draft ∈ models) : ∀ i ∈ draft.lines.notes, Provides tree.files i := by
  obtain ⟨file, -, written⟩ := layout.file_of_mem
    (List.mem_append_left _ (List.mem_append_left _ hd))
  obtain ⟨lines, hl, -⟩ := holds_of_file written
  obtain ⟨raw, schema, name, -, -, rfl⟩ := layout.exists_schema hd
  intro i hi
  rcases Model.lines_supplies hl i hi with supplied | rfl | rfl
  · exact layout.provides_of_supplies supplied
  · exact layout.support (Support.provides_helper mode (by simp [Support.helpers]))
  · exact layout.support (Support.provides_helper mode (by simp [Support.helpers]))

theorem provides_package (file : String) :
    Provides tree.files ⟨.package "express", file⟩ := by
  show Code.isRelative "express" = false
  decide +kernel

theorem Layout.tag_provided
    (layout : Layout mode document tree parts registry models tags files)
    {tag : Identifier × TagGroup} (ht : tag ∈ tags) :
    ∀ i ∈ (tagDraft mode registry tag).lines.notes, Provides tree.files i := by
  obtain ⟨file, -, written⟩ := layout.file_of_mem
    (List.mem_append_left _ (List.mem_append_right _ (List.mem_map_of_mem ht)))
  obtain ⟨lines, hl, -⟩ := holds_of_file written
  intro i hi
  cases mode with
  | api =>
    obtain ⟨signatures, hs⟩ := Controller.signatures_of_lines hl
    obtain ⟨_, _, _, imports⟩ := Controller.lines_delivers tag.1 hs
    rcases imports i hi with supplied | common
    · exact layout.provides_of_supplies supplied
    · simp only [Controller.commonImports, List.mem_cons, List.not_mem_nil, or_false] at common
      rcases common with rfl | rfl | rfl | rfl
      · exact layout.support (Support.provides_base .api (by simp [Support.baseNames]))
      all_goals exact provides_package _
  | client =>
    obtain ⟨signatures, hs⟩ := Client.signatures_of_lines hl
    obtain ⟨_, _, _, imports⟩ := Client.lines_delivers tag.1 hs
    rcases imports i hi with supplied | common
    · exact layout.provides_of_supplies supplied
    · simp only [Client.commonImports, List.mem_cons, List.not_mem_nil, or_false] at common
      rcases common with rfl | rfl | rfl
      all_goals exact layout.support (Support.provides_base .client (by simp [Support.baseNames]))

/-- The class of a tag is exported by the file of the tag. -/
theorem Layout.provides_class
    (layout : Layout mode document tree parts registry models tags files)
    {tag : Identifier × TagGroup} (ht : tag ∈ tags) :
    Provides tree.files (Index.classImport mode tag.1) := by
  have plain := Identifier.plain_of_ofSpaced (layout.named ht)
  obtain ⟨file, hf, written⟩ := layout.file_of_mem
    (List.mem_append_left _ (List.mem_append_right _ (List.mem_map_of_mem ht)))
  obtain ⟨lines, hl, holds⟩ := holds_of_file written
  obtain ⟨imports, content⟩ := holds_content holds
  have exported := Code.mem_exports_of_holds content (declares_tagDraft hl (layout.named ht))
  cases mode with
  | api | client => exact ⟨plain.isSegment, file, hf, holds_path holds, exported⟩

theorem Layout.index_provided
    (layout : Layout mode document tree parts registry models tags files) :
    ∀ i ∈ (indexDraft mode (tags.map Prod.fst)).lines.notes, Provides tree.files i := by
  have same : (indexDraft mode (tags.map Prod.fst)).lines =
      Index.lines mode (tags.map Prod.fst) := by
    cases mode <;> rfl
  obtain ⟨_, _, _, imports⟩ := Index.lines_delivers mode (tags.map Prod.fst)
  intro i hi
  rw [same] at hi
  rcases imports i hi with rfl | ⟨tag, ht, rfl⟩
  · cases mode with
    | api => exact provides_package _
    | client => exact layout.support (Support.provides_base .client (by simp [Support.baseNames]))
  · obtain ⟨used, hu, rfl⟩ := List.mem_map.mp ht
    exact layout.provides_class hu

/-! ## Closed trees -/

/-- An import of a file in `folder` leads to a file of the tree that exports the name. -/
def LeadsTo (tree : OutputTree) (folder : Option Code.Folder) (b : Code.Binding) : Prop :=
  ∃ file ∈ tree.files, Code.resolveModule folder b.module = some file.path ∧
    b.name ∈ Code.exports file.content

/-- However a reference spells a registered component, names are imported for it from the path of
the model file that the component is emitted to. -/
def ReferencesLead (document : Value) (tree : OutputTree) : Prop :=
  ∀ parts registry, DocumentParts.ofDocument document = .ok parts →
    Registry.ofSchemas parts.schemas = .ok registry →
    ∀ reference name kind, parseReference reference = .ok name →
      registry.kind? name.upperCamel = some kind →
      ∃ raw schema declared file, (.text raw, schema) ∈ parts.schemas ∧
        Identifier.ofHumped raw = .ok declared ∧ declared.upperCamel = name.upperCamel ∧
        Model.file registry raw schema = .ok file ∧ file ∈ tree.files ∧
        ∀ folder export_, Code.resolveModule folder
          ((name.export export_).source.specifier folder) = some file.path

/-- The output consists of files written from drafts and of support files, and every relative import
of a draft leads to one of them. -/
def Closed (mode document : Value) (tree : OutputTree) : Prop :=
  ∃ found drafts files, mode? mode = .ok found ∧ Generation.drafts found document = .ok drafts ∧
    WrittenAs drafts files ∧ tree.files = files ++ Support.files found ∧
    (∀ draft ∈ drafts, ∀ b ∈ draft.imports.bindings, Code.isRelative b.module = true →
      LeadsTo tree draft.folder b) ∧
    ReferencesLead document tree

/-- What is provided is found where the import leads. -/
theorem leadsTo_of_provides {folder : Option Code.Folder} {i : Code.Import}
    (h : Provides tree.files i) (relative : Code.isRelative (i.source.specifier folder) = true) :
    LeadsTo tree folder ⟨i.source.specifier folder, i.name, false⟩ := by
  obtain ⟨source, name⟩ := i
  cases source with
  | package module =>
    have absolute : Code.isRelative module = false := h
    rw [show Code.isRelative module = true from relative] at absolute
    cases absolute
  | generated target file =>
    obtain ⟨segment, f, hf, path, exported⟩ := h
    refine ⟨f, hf, ?_, exported⟩
    rw [path]
    exact (Code.resolveModule_specifier segment folder target).2

theorem Layout.referencesLead
    (layout : Layout mode document tree parts registry models tags files) :
    ReferencesLead document tree := by
  intro parts' registry' hp hr reference name kind spelled registered
  cases layout.found.symm.trans hp
  cases layout.registered.symm.trans hr
  obtain ⟨raw, schema, declared, file, hm, hd, same, hf, mem, path, -⟩ :=
    layout.model_of_knows ⟨⟨reference, spelled⟩, kind, registered⟩
  refine ⟨raw, schema, declared, file, hm, hd, same, hf, mem, fun folder export_ => ?_⟩
  rw [path]
  exact (Code.resolveModule_specifier (Identifier.plain_of_parseReference spelled).isSegment
    folder (some .model)).2

theorem Layout.provided (layout : Layout mode document tree parts registry models tags files)
    {draft : Draft} (hd : draft ∈ models ++ tags.map (tagDraft mode registry)
      ++ [indexDraft mode (tags.map Prod.fst)]) :
    ∀ i ∈ draft.lines.notes, Provides tree.files i := by
  rcases List.mem_append.mp hd with hd | hd
  · rcases List.mem_append.mp hd with hd | hd
    · exact layout.model_provided hd
    · obtain ⟨tag, ht, rfl⟩ := List.mem_map.mp hd
      exact layout.tag_provided ht
  · rw [List.mem_singleton.mp hd]
    exact layout.index_provided

/-- **Generated trees are closed.**  In the output for an accepted document, every relative import
of a generated file leads to a file of the output that exports the name. -/
theorem imports_closed {mode document : Value} {tree : OutputTree}
    (h : (generate mode document).result = .ok tree) : Closed mode document tree := by
  obtain ⟨found, hm, h⟩ := Noted.bind_eq_ok.mp h
  obtain ⟨parts, registry, models, tags, files, layout⟩ := layout_of_ofDocument h
  refine ⟨found, _, files, hm, layout.drafts, layout.written, layout.tree, ?_,
    layout.referencesLead⟩
  intro draft hd b hb relative
  obtain ⟨i, hi, rfl⟩ := List.mem_map.mp hb
  exact leadsTo_of_provides (layout.provided hd i hi) relative

/-- A document with one component that refers to another by a spelling of its own. -/
def petDocument : Value :=
  let owner := Value.map [(.text "$ref", .text "#/components/schemas/petOwner")]
  let pet := Value.map [(.text "type", .text "object"),
    (.text "properties", .map [(.text "owner", owner)])]
  let petOwner := Value.map [(.text "type", .text "object"), (.text "properties", .map [])]
  .map [(.text "components", .map [(.text "schemas",
    .map [(.text "Pet", pet), (.text "PetOwner", petOwner)])]), (.text "paths", .map [])]

theorem imports_closed_petDocument :
    ∃ tree, (generate (.text "api") petDocument).result = .ok tree ∧
      Closed (.text "api") petDocument tree := by
  obtain ⟨tree, h⟩ := Except.exists_of_isOk
    (show (generate (.text "api") petDocument).result.isOk = true by decide +kernel)
  exact ⟨tree, h, imports_closed h⟩

end Generation
end TypedApi
