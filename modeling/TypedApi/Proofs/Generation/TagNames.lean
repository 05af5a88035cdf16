import TypedApi.Proofs.Generation.Accepted
import TypedApi.Proofs.Generation.Refusals
import TypedApi.Proofs.Operation.References
import TypedApi.Proofs.Output.ModelNames

/-! # The names in the files of tags

The file of a tag declares one class.  It imports the frame of that class from the base module and
the package, types and functions of components from their model files, and helpers from the support
file.  Types and classes do not start at a small letter, while functions do, so that only four
accidents give one name two meanings (`Unmistakable`): the tag is called like the base class, or a
component like the class, like a name of the frame, or like what a helper checks or prints.  No
check looks for them, so that a file binds each of its names once exactly if none happens
(`Generation.bindsOnce_tag`).  The index always does (`Generation.bindsOnce_index`), since tags that
share a class are refused.
-/
namespace TypedApi

/-! ## Components in a registry of their own -/

namespace Registry
variable {components : List Identifier} {name : Identifier}

/-- A registry of the given components, whatever they are. -/
def listing (components : List Identifier) : Registry :=
  ⟨components.map fun component => (component.upperCamel, .object)⟩

theorem knows_listing (referable : name.Referable) (listed : name ∈ components) :
    (listing components).Knows name := by
  have entry : (name.upperCamel, .object) ∈ (listing components).kinds :=
    List.mem_map.mpr ⟨name, listed, rfl⟩
  refine ⟨referable, Option.isSome_iff_exists.mp ?_⟩
  by_contra unknown
  have absent : ∀ kind, (name.upperCamel, kind) ∉ (listing components).kinds := by
    simpa [kind?] using unknown
  exact absent .object entry

/-- What is known to the registry shares a type name with one of the components. -/
theorem exists_of_listing (known : (listing components).Knows name) :
    ∃ component ∈ components, component.upperCamel = name.upperCamel := by
  obtain ⟨-, kind, found⟩ := known
  obtain ⟨before, after, split, -⟩ := List.lookup_eq_some_iff.mp found
  have entry : (name.upperCamel, kind) ∈ (listing components).kinds := by
    rw [split]
    simp
  obtain ⟨component, hc, same⟩ := List.mem_map.mp entry
  exact ⟨component, hc, congrArg Prod.fst same⟩

end Registry

namespace Signature
variable {registry : Registry} {signature : Signature} {signatures : List Signature}

/-- What the code of a method imports. -/
def calls (mode : Mode) (signature : Signature) : List Code.Import :=
  match mode with
  | .api => (Controller.routeLines signature).notes
  | .client => (Client.methodLines signature).notes

/-- Signatures that are sound stay so if only what they refer to is registered. -/
theorem Sound.listing (sound : signature.Sound registry) {components : List Identifier}
    (listed : ∀ name ∈ signature.references, name ∈ components) :
    signature.Sound (Registry.listing components) := by
  have known : ∀ slot : Slot, slot.Known registry →
      (∀ name ∈ slot.references, name ∈ signature.references) →
        slot.Known (Registry.listing components) := by
    intro slot known inside name hn
    exact Registry.knows_listing (known name hn).referable (listed name (inside name hn))
  refine ⟨fun body hb => ?_, fun parameter hp => ⟨?_, (sound.parameters parameter hp).readable⟩,
    fun response hr => ?_, sound.template⟩
  · refine known _ (sound.body body hb) fun name hn => ?_
    exact List.mem_append_left _ (List.mem_append_left _
      (List.mem_flatMap.mpr ⟨body, Option.mem_toList.mpr hb, hn⟩))
  · refine known _ (sound.parameters parameter hp).known fun name hn => ?_
    exact List.mem_append_left _ (List.mem_append_right _
      (List.mem_flatMap.mpr ⟨parameter, hp, hn⟩))
  · refine known _ (sound.response response hr) fun name hn => ?_
    exact List.mem_append_right _
      (List.mem_flatMap.mpr ⟨response, Option.mem_toList.mpr hr, hn⟩)

end Signature

namespace Generation

/-! ## What the file of a tag imports -/

/-- The class that the file of a tag declares. -/
def className (mode : Mode) (tag : Identifier) : String := (Index.classImport mode tag).name

/-- The names that the class of every tag is built on. -/
def commonImports : Mode → List Code.Import
  | .api => Controller.commonImports
  | .client => Client.commonImports

/-- The names that the class of a tag may be built on. -/
def frameImports : Mode → List Code.Import
  | .api => Controller.commonImports
  | .client => ⟨Client.baseModule, "UrlBuilder"⟩ :: Client.commonImports

/-- The names that the class of a tag is built on. -/
def frame (mode : Mode) (signatures : List Signature) : List Code.Import :=
  match mode with
  | .api => frameImports .api
  | .client =>
    if signatures.any Client.buildsUrl then frameImports .client else commonImports .client

section Imports
variable {mode : Mode} {registry : Registry} {tag : Identifier} {group : TagGroup}
  {signatures : List Signature} {i : Code.Import}

/-- **What the file of a tag imports**: the frame of the class, the types of the components that the
operations refer to, and what the methods call. -/
theorem mem_notes_tagDraft (signed : (Signature.ofGroup registry group).result = .ok signatures) :
    i ∈ (tagDraft mode registry (tag, group)).lines.notes ↔
      i ∈ commonImports mode ∨ TypeOf (signatures.flatMap Signature.references) i ∨
        ∃ signature ∈ signatures, i ∈ signature.calls mode := by
  obtain ⟨⟨sound, -⟩, -⟩ := Signature.ofGroup_yields signatures signed
  obtain ⟨types, -⟩ := Signature.ofGroup_resolvesTo signatures signed
  cases mode with
  | api =>
    obtain ⟨routes, hr, -⟩ := Controller.allRouteLines_delivers sound
    have notes : (Controller.lines registry tag group).notes = Controller.commonImports ++
        ((Signature.ofGroup registry group).notes ++
          (Controller.allRouteLines signatures).notes) := by
      rw [Controller.lines, Noted.notes_bind_of_ok rfl, Noted.notes_bind_of_ok signed,
        Noted.notes_bind_of_ok hr, Noted.pure_notes, List.append_nil]
      rfl
    rw [show (tagDraft .api registry (tag, group)).lines = Controller.lines registry tag group
      from rfl, notes, List.mem_append, List.mem_append, types,
      Controller.mem_notes_allRouteLines sound]
    rfl
  | client =>
    obtain ⟨methods, hm, -⟩ := Client.allMethodLines_delivers sound
    have notes : (Client.lines registry tag group).notes = Client.commonImports ++
        ((Signature.ofGroup registry group).notes ++
          (Client.allMethodLines signatures).notes) := by
      rw [Client.lines, Noted.notes_bind_of_ok rfl, Noted.notes_bind_of_ok signed,
        Noted.notes_bind_of_ok hm, Noted.pure_notes, List.append_nil]
      rfl
    rw [show (tagDraft .client registry (tag, group)).lines = Client.lines registry tag group
      from rfl, notes, List.mem_append, List.mem_append, types,
      Client.mem_notes_allMethodLines sound]
    rfl

theorem mem_frame : i ∈ frame mode signatures ↔ i ∈ commonImports mode ∨
    mode = .client ∧ signatures.any Client.buildsUrl = true ∧
      i = ⟨Client.baseModule, "UrlBuilder"⟩ := by
  cases mode with
  | api => simp [frame, frameImports, commonImports]
  | client =>
    by_cases builds : signatures.any Client.buildsUrl = true
    · simp [frame, frameImports, commonImports, builds, or_comm]
    · simp [frame, commonImports, builds]

theorem frame_subset : ∀ i ∈ frame mode signatures, i ∈ frameImports mode := by
  intro i hi
  rcases mem_frame.mp hi with common | ⟨rfl, -, rfl⟩
  · cases mode with
    | api => exact common
    | client => exact List.mem_cons_of_mem _ common
  · exact List.mem_cons_self

/-- The whole frame is imported. -/
theorem mem_notes_of_mem_frame
    (signed : (Signature.ofGroup registry group).result = .ok signatures)
    (h : i ∈ frame mode signatures) : i ∈ (tagDraft mode registry (tag, group)).lines.notes := by
  refine (mem_notes_tagDraft signed).mpr ?_
  rcases mem_frame.mp h with common | ⟨rfl, builds, rfl⟩
  · exact .inl common
  · obtain ⟨signature, hs, builds⟩ := List.any_eq_true.mp builds
    refine .inr (.inr ⟨signature, hs, Noted.mem_notes_bind.mpr (.inl ?_)⟩)
    exact Client.mem_notes_urlExpression builds

/-- Where the file of a tag takes a name from. -/
inductive Origin (mode : Mode) (signatures : List Signature) : Code.Import → Prop where
  | frame {i : Code.Import} (h : i ∈ frame mode signatures) : Origin mode signatures i
  | type {component : Identifier} (hc : component ∈ signatures.flatMap Signature.references) :
      Origin mode signatures (component.export component.upperCamel)
  | function {component : Identifier} {lead : String} {signature : Signature}
      (hc : component ∈ signatures.flatMap Signature.references) (hl : lead ∈ ["validate", "print"])
      (hs : signature ∈ signatures)
      (called : component.export (lead ++ component.upperCamel) ∈ signature.calls mode) :
      Origin mode signatures (component.export (lead ++ component.upperCamel))
  | helper {name : String} {signature : Signature} (hn : name ∈ conversionHelpers)
      (hs : signature ∈ signatures) (called : Code.Import.helper name ∈ signature.calls mode) :
      Origin mode signatures (Code.Import.helper name)

/-- Components of one type name share a file. -/
theorem export_eq {name component : Identifier} (referable : name.Referable)
    (referable' : component.Referable) (same : component.upperCamel = name.upperCamel) :
    name.export = component.export := by
  obtain ⟨reference, hr⟩ := referable
  obtain ⟨reference', hr'⟩ := referable'
  obtain ⟨raw, spelled⟩ := Identifier.ofHumped_of_parseReference hr
  obtain ⟨raw', spelled'⟩ := Identifier.ofHumped_of_parseReference hr'
  funext exported
  rw [Identifier.export, Identifier.export,
    Identifier.kebab_eq_of_upperCamel_eq spelled' spelled same]

theorem origin_of_supplies {signature : Signature}
    (referable : ∀ component ∈ signatures.flatMap Signature.references, component.Referable)
    (hs : signature ∈ signatures) (called : i ∈ signature.calls mode)
    (h : (Registry.listing (signatures.flatMap Signature.references)).Supplies i) :
    Origin mode signatures i := by
  -- the name that a codec has for a component may differ from the one listed, but not in the type
  have listed : ∀ name : Identifier,
      (Registry.listing (signatures.flatMap Signature.references)).Knows name →
        ∃ component ∈ signatures.flatMap Signature.references,
          component.upperCamel = name.upperCamel ∧ name.export = component.export := by
    intro name known
    obtain ⟨component, hc, same⟩ := Registry.exists_of_listing known
    exact ⟨component, hc, same, export_eq known.referable (referable component hc) same⟩
  cases h with
  | type known =>
    obtain ⟨component, hc, same, file⟩ := listed _ known
    rw [file, ← same]
    exact .type hc
  | runs function =>
    cases function with
    | helper hn => exact .helper hn hs called
    | validator known =>
      obtain ⟨component, hc, same, file⟩ := listed _ known
      rw [file, Identifier.validator, ← same] at called ⊢
      exact .function hc (by decide) hs called
    | printer known =>
      obtain ⟨component, hc, same, file⟩ := listed _ known
      rw [file, Identifier.printer, ← same] at called ⊢
      exact .function hc (by decide) hs called

/-- The components that a tag refers to are those of references. -/
theorem referable_of_mem_references
    (signed : (Signature.ofGroup registry group).result = .ok signatures) :
    ∀ component ∈ signatures.flatMap Signature.references, component.Referable := by
  obtain ⟨-, known⟩ := Signature.ofGroup_resolvesTo signatures signed
  exact fun component hc => (known component hc).referable

theorem origin_of_mem_notes (signed : (Signature.ofGroup registry group).result = .ok signatures)
    (h : i ∈ (tagDraft mode registry (tag, group)).lines.notes) : Origin mode signatures i := by
  obtain ⟨⟨sound, -⟩, -⟩ := Signature.ofGroup_yields signatures signed
  have referable := referable_of_mem_references signed
  rcases (mem_notes_tagDraft signed).mp h with
    common | ⟨component, hc, rfl⟩ | ⟨signature, hs, called⟩
  · exact .frame (mem_frame.mpr (.inl common))
  · exact .type hc
  · -- the code of a method calls for nothing but what its signature refers to
    have listed : signature.Sound (Registry.listing (signatures.flatMap Signature.references)) :=
      (sound signature hs).listing fun name hn => List.mem_flatMap.mpr ⟨signature, hs, hn⟩
    cases mode with
    | api =>
      obtain ⟨_, _, _, supplies⟩ := Controller.routeLines_delivers listed
      exact origin_of_supplies referable hs called (supplies i called)
    | client =>
      obtain ⟨_, _, _, imports⟩ := Client.methodLines_delivers listed
      rcases imports i called with supplied | ⟨builds, rfl⟩
      · exact origin_of_supplies referable hs called supplied
      · have some_builds : signatures.any Client.buildsUrl = true :=
          List.any_eq_true.mpr ⟨signature, hs, builds⟩
        exact .frame (mem_frame.mpr (.inr ⟨rfl, some_builds, rfl⟩))

end Imports

/-! ## Names of different origins -/

/-- The name of a helper starts at a small letter. -/
theorem not_isStem_of_mem_conversionHelpers {name : String} (h : name ∈ conversionHelpers) :
    ¬ IsStem name := by
  have table : conversionHelpers.all (fun name => name.toList.head?.any Char.isLower) = true := by
    decide +kernel
  have small := List.all_eq_true.mp table name h
  rintro ⟨c, rest, split, start⟩
  rw [split, List.head?_cons, Option.any_some, start] at small
  cases small

theorem isStem_of_mem_frameImports {mode : Mode} {i : Code.Import} (h : i ∈ frameImports mode) :
    IsStem i.name := by
  have table : ∀ i ∈ frameImports mode, (i.name.toList.head?.any fun c => !c.isLower) = true := by
    cases mode <;> decide +kernel
  exact isStem_of_head (table i h)

/-- No name of the frame comes from two modules. -/
theorem eq_of_mem_frameImports {mode : Mode} {i j : Code.Import} (hi : i ∈ frameImports mode)
    (hj : j ∈ frameImports mode) (same : i.name = j.name) : i = j := by
  have table : ∀ i ∈ frameImports mode, ∀ j ∈ frameImports mode, i.name = j.name → i = j := by
    cases mode <;> decide +kernel
  exact table i hi j hj same

theorem isStem_className {mode : Mode} {raw : String} {tag : Identifier}
    (named : Identifier.ofSpaced raw = .ok tag) : IsStem (className mode tag) := by
  obtain ⟨rfl, accepted⟩ := Identifier.ofSpaced_eq_ok named
  obtain ⟨c, rest, split, start⟩ := isStem_spell accepted
  refine ⟨c, rest ++ (classEnding mode).toList, ?_, start⟩
  rw [className, name_classImport, String.toList_append, split, List.cons_append]

theorem getLast?_className (mode : Mode) (tag : Identifier) :
    (className mode tag).toList.getLast? = (classEnding mode).toList.getLast? := by
  rw [className, name_classImport, String.toList_append]
  cases mode <;> simp [classEnding]

/-- The class of a tag is called like a name of its frame if it is called like the base class. -/
theorem className_mem_frame_iff {mode : Mode} {tag : Identifier} {signatures : List Signature} :
    (∃ i ∈ frame mode signatures, i.name = className mode tag) ↔ tag.upperCamel = "Base" := by
  have table : ∀ i ∈ frameImports mode, i.name = "Base" ++ classEnding mode ∨
      i.name.toList.getLast? ≠ (classEnding mode).toList.getLast? := by
    cases mode <;> decide +kernel
  constructor
  · rintro ⟨i, hi, same⟩
    rcases table i (frame_subset i hi) with base | other
    · rw [same, className, name_classImport] at base
      exact (String.append_left_inj _).mp base
    · exact absurd (same ▸ getLast?_className mode tag) other
  · intro base
    have listed : ∃ i ∈ commonImports mode, i.name = "Base" ++ classEnding mode := by
      cases mode <;> decide +kernel
    obtain ⟨i, hi, same⟩ := listed
    refine ⟨i, mem_frame.mpr (.inl hi), ?_⟩
    rw [same, className, name_classImport, base]

theorem imports_tagDraft {mode : Mode} {registry : Registry} {tag : Identifier × TagGroup} :
    (tagDraft mode registry tag).imports = (Code.ImportSet.empty (some (tagFolder mode))).addAll
      (tagDraft mode registry tag).lines.notes := by
  cases mode <;> rfl

/-- Components come from modules of their own. -/
theorem specifier_ne {mode : Mode} {source : Code.Source}
    (h : source ∈ Code.Import.validateModule :: (frameImports mode).map (·.source))
    (component : Identifier) (exported : String) :
    source.specifier (some (tagFolder mode)) ≠
      (component.export exported).source.specifier (some (tagFolder mode)) := by
  have table : ∀ source ∈ Code.Import.validateModule :: (frameImports mode).map (·.source),
      "../model/".toList.isPrefixOf (source.specifier (some (tagFolder mode))).toList = false := by
    cases mode <;> decide +kernel
  have start : (component.export exported).source.specifier (some (tagFolder mode)) =
      "../model/" ++ component.kebab := by
    cases mode <;> simp [Identifier.export, Code.Source.specifier, tagFolder, Code.relativePrefix,
      Code.Folder.name]
  intro same
  have outside := table source h
  rw [same, start, String.toList_append,
    List.isPrefixOf_iff_prefix.mpr (List.prefix_append _ _)] at outside
  cases outside

end Generation

/-! ## The file of a tag -/

/-- The names at the top of a file are bound once: the imported names differ, and none is
declared. -/
structure Draft.BindsOnce (draft : Draft) (declared : List String) : Prop where
  distinct : draft.imports.names.Nodup
  fresh : ∀ n ∈ draft.imports.names, n ∉ declared

namespace Generation

/-- What the names in the file of a tag mean is told by the names: the class is not called like the
base class, the components that the operations refer to are called neither like the class nor like
a name of its frame, and no function of such a component that a method calls is called like a helper
that a method calls. -/
structure Unmistakable (mode : Mode) (tag : Identifier) (signatures : List Signature) : Prop where
  own : tag.upperCamel ≠ "Base"
  classes : ∀ component ∈ signatures.flatMap Signature.references,
    component.upperCamel ≠ className mode tag
  frame : ∀ component ∈ signatures.flatMap Signature.references,
    ∀ i ∈ frame mode signatures, i.name ≠ component.upperCamel
  functions : ∀ component ∈ signatures.flatMap Signature.references,
    ∀ lead ∈ ["validate", "print"], ∀ signature ∈ signatures, ∀ other ∈ signatures,
      Code.Import.helper (lead ++ component.upperCamel) ∈ signature.calls mode →
        component.export (lead ++ component.upperCamel) ∉ other.calls mode

section Tags
variable {mode : Mode} {registry : Registry} {tag : Identifier} {group : TagGroup}
  {signatures : List Signature}

/-- A file of a tag that binds each name once can be told apart. -/
theorem unmistakable_of_bindsOnce
    (signed : (Signature.ofGroup registry group).result = .ok signatures)
    (once : (tagDraft mode registry (tag, group)).BindsOnce [className mode tag]) :
    Unmistakable mode tag signatures := by
  obtain ⟨distinct, fresh⟩ := once
  rw [imports_tagDraft] at distinct fresh
  have single := Code.ImportSet.names_nodup_iff.mp distinct
  have undeclared : ∀ i ∈ (tagDraft mode registry (tag, group)).lines.notes,
      i.name ≠ className mode tag := by
    intro i hi same
    refine fresh i.name (Code.ImportSet.mem_names_addAll.mpr ⟨i, hi, rfl⟩) ?_
    rw [same]
    exact List.mem_cons_self
  have framed : ∀ i ∈ frame mode signatures,
      i ∈ (tagDraft mode registry (tag, group)).lines.notes := fun i hi =>
    mem_notes_of_mem_frame signed hi
  have typed : ∀ component ∈ signatures.flatMap Signature.references,
      component.export component.upperCamel ∈
        (tagDraft mode registry (tag, group)).lines.notes := fun component hc =>
    (mem_notes_tagDraft signed).mpr (.inr (.inl ⟨component, hc, rfl⟩))
  have called : ∀ signature ∈ signatures, ∀ i ∈ signature.calls mode,
      i ∈ (tagDraft mode registry (tag, group)).lines.notes := fun signature hs i hi =>
    (mem_notes_tagDraft signed).mpr (.inr (.inr ⟨signature, hs, hi⟩))
  refine ⟨fun base => ?own, fun component hc => ?classes, fun component hc i hi same => ?frame,
    fun component hc lead hl signature hs other ho helper function => ?functions⟩
  case own =>
    obtain ⟨i, hi, same⟩ := className_mem_frame_iff.mpr base
    exact undeclared i (framed i hi) same
  case classes => exact undeclared _ (typed component hc)
  case frame =>
    have module := single i (framed i hi) _ (typed component hc) same
    exact specifier_ne (List.mem_cons_of_mem _ (List.mem_map_of_mem (frame_subset i hi))) _ _ module
  case functions =>
    have module := single _ (called signature hs _ helper) _ (called other ho _ function) rfl
    exact specifier_ne List.mem_cons_self _ _ module

theorem isLead_of_mem_functions {lead : String} (h : lead ∈ ["validate", "print"]) :
    IsLead lead ∧ lead ≠ "" := by
  have table : ∀ lead ∈ ["validate", "print"], lead ∈ leads ∧ lead ≠ "" := by decide
  exact ⟨isLead_of_mem (table lead h).1, (table lead h).2⟩

/-- A function of a component is not called like a type. -/
theorem function_not_isStem {lead stem : String} (hl : lead ∈ ["validate", "print"])
    (hs : IsStem stem) : ¬ IsStem (lead ++ stem) := by
  intro plain
  obtain ⟨isLead, nonempty⟩ := isLead_of_mem_functions hl
  have empty : IsLead "" := isLead_of_mem (by decide)
  exact nonempty (eq_of_append_eq isLead empty hs plain String.empty_append.symm).1

section Apart
variable {i j : Code.Import} (apart : Unmistakable mode tag signatures)
  (referable : ∀ component ∈ signatures.flatMap Signature.references, component.Referable)
include apart referable

omit apart in
theorem isStem_of_mem_references :
    ∀ component ∈ signatures.flatMap Signature.references, IsStem component.upperCamel := by
  intro component hc
  obtain ⟨reference, hr⟩ := referable component hc
  obtain ⟨raw, spelled⟩ := Identifier.ofHumped_of_parseReference hr
  exact isStem_upperCamel spelled

/-- What shares a name with a part of the frame is that part. -/
theorem Unmistakable.frame_eq (hi : i ∈ Generation.frame mode signatures)
    (hj : Origin mode signatures j) (same : i.name = j.name) : i = j := by
  have plain := isStem_of_mem_frameImports (frame_subset i hi)
  have stems := isStem_of_mem_references referable
  cases hj with
  | frame hj => exact eq_of_mem_frameImports (frame_subset i hi) (frame_subset j hj) same
  | @type component hc => exact absurd same (apart.frame component hc i hi)
  | @function component lead signature hc hl _ _ =>
    rw [same] at plain
    exact absurd plain (function_not_isStem hl (stems component hc))
  | helper hn _ _ =>
    rw [same] at plain
    exact absurd plain (not_isStem_of_mem_conversionHelpers hn)

omit apart in
/-- Imports of one name from components come from one of them. -/
theorem export_eq_of_name_eq {component other : Identifier} {lead lead' : String}
    (hc : component ∈ signatures.flatMap Signature.references)
    (ho : other ∈ signatures.flatMap Signature.references) (hl : IsLead lead) (hl' : IsLead lead')
    (same : lead ++ component.upperCamel = lead' ++ other.upperCamel) :
    component.export (lead ++ component.upperCamel) = other.export (lead' ++ other.upperCamel) := by
  have stems := isStem_of_mem_references referable
  obtain ⟨-, type⟩ := eq_of_append_eq hl hl' (stems component hc) (stems other ho) same
  rw [same, export_eq (referable component hc) (referable other ho) type.symm]

/-- **Names tell where they are from.** -/
theorem Unmistakable.eq_of_name_eq (hi : Origin mode signatures i) (hj : Origin mode signatures j)
    (same : i.name = j.name) : i = j := by
  have stems := isStem_of_mem_references referable
  -- a type is what a component has under no lead
  have type : ∀ component ∈ signatures.flatMap Signature.references,
      ∀ other ∈ signatures.flatMap Signature.references, ∀ lead, IsLead lead →
        component.upperCamel = lead ++ other.upperCamel →
          component.export component.upperCamel = other.export (lead ++ other.upperCamel) := by
    intro component hc other ho lead hl named
    have plain := String.empty_append (s := component.upperCamel)
    rw [← plain] at named ⊢
    exact export_eq_of_name_eq referable hc ho (isLead_of_mem (by decide)) hl named
  cases hi with
  | frame hi => exact apart.frame_eq referable hi hj same
  | @type component hc =>
    cases hj with
    | frame hj => exact (apart.frame_eq referable hj (.type hc) same.symm).symm
    | @type other ho =>
      have plain := String.empty_append (s := other.upperCamel)
      rw [← plain] at same ⊢
      exact type _ hc _ ho "" (isLead_of_mem (by decide)) same
    | function ho hl _ _ => exact type _ hc _ ho _ (isLead_of_mem_functions hl).1 same
    | @helper name _ hn _ _ =>
      have same : component.upperCamel = name := same
      exact absurd (same ▸ stems component hc) (not_isStem_of_mem_conversionHelpers hn)
  | @function component lead signature hc hl hs called =>
    cases hj with
    | frame hj => exact (apart.frame_eq referable hj (.function hc hl hs called) same.symm).symm
    | @type other ho => exact (type _ ho _ hc _ (isLead_of_mem_functions hl).1 same.symm).symm
    | function ho hl' _ _ =>
      exact export_eq_of_name_eq referable hc ho (isLead_of_mem_functions hl).1
        (isLead_of_mem_functions hl').1 same
    | @helper name signature' hn hs' helper =>
      have same : lead ++ component.upperCamel = name := same
      rw [← same] at helper
      exact absurd called (apart.functions component hc lead hl signature' hs' signature hs helper)
  | @helper name signature hn hs helper =>
    cases hj with
    | frame hj => exact (apart.frame_eq referable hj (.helper hn hs helper) same.symm).symm
    | @type other ho =>
      have same : name = other.upperCamel := same
      exact absurd (same ▸ stems other ho) (not_isStem_of_mem_conversionHelpers hn)
    | @function other lead signature' ho hl hs' called =>
      have same : name = lead ++ other.upperCamel := same
      rw [same] at helper
      exact absurd called (apart.functions other ho lead hl signature hs signature' hs' helper)
    | helper _ _ _ => exact congrArg Code.Import.helper same

/-- No import is called like the class. -/
theorem Unmistakable.ne_className {raw : String} (named : Identifier.ofSpaced raw = .ok tag)
    (hi : Origin mode signatures i) : i.name ≠ className mode tag := by
  have plain : IsStem (className mode tag) := isStem_className named
  have stems := isStem_of_mem_references referable
  intro same
  rw [← same] at plain
  cases hi with
  | frame hi => exact apart.own (className_mem_frame_iff.mp ⟨i, hi, same⟩)
  | type hc => exact apart.classes _ hc same
  | function hc hl _ _ => exact function_not_isStem hl (stems _ hc) plain
  | helper hn _ _ => exact not_isStem_of_mem_conversionHelpers hn plain

end Apart

/-- **What the file of a tag binds.**  Each name at the top of the file is bound once exactly if its
names can be told apart. -/
theorem bindsOnce_tag (named : Identifier.ofSpaced group.name = .ok tag)
    (signed : (Signature.ofGroup registry group).result = .ok signatures) :
    (tagDraft mode registry (tag, group)).BindsOnce [className mode tag] ↔
      Unmistakable mode tag signatures := by
  refine ⟨unmistakable_of_bindsOnce signed, fun apart => ?_⟩
  have referable := referable_of_mem_references signed
  have origin : ∀ i ∈ (tagDraft mode registry (tag, group)).lines.notes,
      Origin mode signatures i := fun i hi => origin_of_mem_notes signed hi
  constructor
  · rw [imports_tagDraft]
    refine Code.ImportSet.names_nodup_iff.mpr fun i hi j hj same => ?_
    rw [apart.eq_of_name_eq referable (origin i hi) (origin j hj) same]
  · rw [imports_tagDraft]
    intro n hn declared
    obtain ⟨i, hi, rfl⟩ := Code.ImportSet.mem_names_addAll.mp hn
    exact apart.ne_className referable named (origin i hi) (List.mem_singleton.mp declared)

end Tags

/-! ## The index -/

/-- The names that the index of a mode declares. -/
def indexNames : Mode → List String
  | .api => ["Apis", "registerApis"]
  | .client => ["Clients"]

theorem lines_indexDraft (mode : Mode) (tags : List Identifier) :
    (indexDraft mode tags).lines = Index.lines mode tags := by
  cases mode <;> rfl

theorem imports_indexDraft (mode : Mode) (tags : List Identifier) :
    (indexDraft mode tags).imports =
      (Code.ImportSet.empty none).addAll (Index.lines mode tags).notes := by
  cases mode <;> rfl

/-- The index declares its names. -/
theorem declares_indexDraft {mode : Mode} {tags : List Identifier} {lines : List String}
    (h : (indexDraft mode tags).lines.result = .ok lines) :
    ∀ n ∈ indexNames mode, Code.Declares lines n := by
  have plain : (indexNames mode).all (fun n => n.toList.all Code.isNamePart) = true := by
    cases mode <;> decide +kernel
  have starts : ∀ n ∈ indexNames mode, Code.Starts lines n := by
    rw [lines_indexDraft] at h
    cases mode with
    | api =>
      obtain ⟨_, -, h⟩ := Noted.bind_eq_ok.mp h
      obtain ⟨_, -, h⟩ := Noted.bind_eq_ok.mp h
      cases h
      intro n hn
      rcases List.mem_cons.mp hn with rfl | hn
      · exact ⟨"export type ", by simp [Code.exportLeads], "export type Apis = \x7b", by simp,
          ⟨"= \x7b".toList, by decide +kernel⟩⟩
      · rw [List.mem_singleton.mp hn]
        exact ⟨"export const ", by simp [Code.exportLeads],
          "export const registerApis = (apis: Apis, app: Express): void => \x7b", by simp,
          ⟨"= (apis: Apis, app: Express): void => \x7b".toList, by decide +kernel⟩⟩
    | client =>
      obtain ⟨_, -, h⟩ := Noted.bind_eq_ok.mp h
      obtain ⟨_, -, h⟩ := Noted.bind_eq_ok.mp h
      cases h
      intro n hn
      rw [List.mem_singleton.mp hn]
      exact ⟨"export class ", by simp [Code.exportLeads], "export class Clients \x7b", by simp,
        ⟨['\x7b'], by decide +kernel⟩⟩
  exact fun n hn => ⟨List.all_eq_true.mp (List.all_eq_true.mp plain n hn), starts n hn⟩

/-- **The index binds each name once**, since the tags have classes of their own and no class ends
like another name of the index. -/
theorem bindsOnce_index {mode : Mode} {tags : List Identifier} (apart : IndexedApart mode tags) :
    (indexDraft mode tags).BindsOnce (indexNames mode) := by
  obtain ⟨_, _, _, imports⟩ := Index.lines_delivers mode tags
  have others : ∀ n ∈ (Index.commonImport mode).name :: indexNames mode,
      n.toList.getLast? ≠ (classEnding mode).toList.getLast? := by
    cases mode <;> decide +kernel
  have unlike : ∀ tag, ∀ n ∈ (Index.commonImport mode).name :: indexNames mode,
      className mode tag ≠ n := by
    intro tag n hn same
    exact others n hn (same ▸ getLast?_className mode tag)
  constructor
  · rw [imports_indexDraft]
    refine Code.ImportSet.names_nodup_iff.mpr fun i hi j hj same => ?_
    rcases imports i hi with rfl | ⟨tag, ht, rfl⟩
    · rcases imports j hj with rfl | ⟨other, ho, rfl⟩
      · rfl
      · exact absurd same.symm (unlike other _ List.mem_cons_self)
    · rcases imports j hj with rfl | ⟨other, ho, rfl⟩
      · exact absurd same (unlike tag _ List.mem_cons_self)
      · -- tags with one class are one tag
        rw [List.inj_on_of_nodup_map apart.classes ht ho same]
  · rw [imports_indexDraft]
    intro n hn declared
    obtain ⟨i, hi, rfl⟩ := Code.ImportSet.mem_names_addAll.mp hn
    rcases imports i hi with rfl | ⟨tag, -, rfl⟩
    · have free : (Index.commonImport mode).name ∉ indexNames mode := by
        cases mode <;> decide +kernel
      exact free declared
    · exact unlike tag _ (List.mem_cons_of_mem _ declared) rfl

/-! ## The output of a document -/

end Generation

/-- The tree has the file of a draft, which declares some names. -/
def OutputTree.Writes (tree : OutputTree) (draft : Draft) (declared : List String) : Prop :=
  ∃ lines, tree.at? draft.path =
      some ⟨draft.path, Code.fileText [draft.imports.render, Code.joinLines lines]⟩ ∧
    ∀ n ∈ declared, Code.Declares lines n

namespace Generation

section Output
variable {mode : Mode} {document : Value} {parts : DocumentParts} {registry : Registry}
  {groups : List TagGroup} {tree : OutputTree}

theorem writes_of_file {draft : Draft} {file : Code.SourceFile} (written : draft.file = .ok file)
    (place : tree.at? draft.path = some file) {declared : List String}
    (declares : ∀ lines, draft.lines.result = .ok lines → ∀ n ∈ declared, Code.Declares lines n) :
    tree.Writes draft declared := by
  obtain ⟨lines, hl, written⟩ := Except.bind_eq_ok.mp written
  cases written
  exact ⟨lines, place, declares lines hl⟩

/-- The file of a tag with operations declares its class. -/
theorem Accepted.writes_tag (accepted : Accepted mode document parts registry groups tree)
    {group : TagGroup} (hg : group ∈ groups) (used : group.isUsed = true) :
    ∃ tag signatures, Identifier.ofSpaced group.name = .ok tag ∧
      (Signature.ofGroup registry group).result = .ok signatures ∧
      tree.Writes (tagDraft mode registry (tag, group)) [className mode tag] := by
  obtain ⟨tag, file, named, written, place⟩ := accepted.tag_at hg used
  obtain ⟨lines, hl, -⟩ := holds_of_file written
  obtain ⟨signatures, signed⟩ := signatures_of_tagDraft hl
  refine ⟨tag, signatures, named, signed, writes_of_file written place fun lines hl n hn => ?_⟩
  rw [List.mem_singleton.mp hn]
  exact declares_tagDraft hl named

/-- The index declares its names. -/
theorem Accepted.writes_index (accepted : Accepted mode document parts registry groups tree) :
    ∃ tags, usedTags (sortedGroups groups) = .ok tags ∧
      tree.Writes (indexDraft mode (tags.map Prod.fst)) (indexNames mode) := by
  obtain ⟨models, tags, files, layout, used⟩ := accepted.layout
  obtain ⟨file, written, place⟩ := accepted.draft_at layout
    (List.mem_append_right _ (List.mem_singleton_self _))
  exact ⟨tags, used, writes_of_file written place fun lines hl => declares_indexDraft hl⟩

/-- **What the files of an output bind.**  In an accepted output, the file of a tag binds each name
at its top once exactly if its names can be told apart, and the index always does. -/
theorem generate_binds (accepted : Accepted mode document parts registry groups tree) :
    (∀ group ∈ groups, group.isUsed = true → ∃ tag signatures,
      Identifier.ofSpaced group.name = .ok tag ∧
      (Signature.ofGroup registry group).result = .ok signatures ∧
      tree.Writes (tagDraft mode registry (tag, group)) [className mode tag] ∧
      ((tagDraft mode registry (tag, group)).BindsOnce [className mode tag] ↔
        Unmistakable mode tag signatures)) ∧
    ∃ tags, usedTags (sortedGroups groups) = .ok tags ∧
      tree.Writes (indexDraft mode (tags.map Prod.fst)) (indexNames mode) ∧
      (indexDraft mode (tags.map Prod.fst)).BindsOnce (indexNames mode) := by
  constructor
  · intro group hg operated
    obtain ⟨tag, signatures, named, signed, written⟩ := accepted.writes_tag hg operated
    exact ⟨tag, signatures, named, signed, written, bindsOnce_tag named signed⟩
  · obtain ⟨tags, used, written⟩ := accepted.writes_index
    exact ⟨tags, used, written, bindsOnce_index (accepted.indexedApart used)⟩

end Output

/-- The client of the dogs binds each name once, so that its names can be told apart. -/
theorem generate_binds_dogs :
    ∃ parts registry groups tree,
      Accepted .client (.map (dogDocument (.text "path"))) parts registry groups tree ∧
      ∃ group ∈ groups, group.isUsed = true ∧ ∃ tag signatures,
        tree.Writes (tagDraft .client registry (tag, group)) [className .client tag] ∧
        Unmistakable .client tag signatures := by
  obtain ⟨tree, here⟩ := Except.exists_of_isOk
    (show (generate (.text "client") (.map (dogDocument (.text "path")))).result.isOk = true by
      decide +kernel)
  have accepted : Accepted .client (.map (dogDocument (.text "path"))) _
      ⟨[("Dog", .object), ("Kennel", .enumeration)]⟩ [⟨"dogs", none, _⟩] tree :=
    ⟨rfl, rfl, rfl, here⟩
  obtain ⟨tag, signatures, named, signed, written, iff⟩ :=
    (generate_binds accepted).1 _ List.mem_cons_self rfl
  cases named
  refine ⟨_, _, _, tree, accepted, _, List.mem_cons_self, rfl, _, signatures, written,
    iff.mp ⟨?_, ?_⟩⟩
  · decide +kernel
  · decide +kernel

/-- The controller of the tag `base` imports the class that it declares. -/
theorem not_bindsOnce_baseTag :
    ∃ parts registry groups tree,
      Accepted .api (taggedDocument "base" "user") parts registry groups tree ∧
      ∃ group ∈ groups, group.isUsed = true ∧ ∃ tag,
        tree.Writes (tagDraft .api registry (tag, group)) ["BaseApi"] ∧
        ¬ (tagDraft .api registry (tag, group)).BindsOnce ["BaseApi"] := by
  obtain ⟨tree, here⟩ := Except.exists_of_isOk
    (show (generate (.text "api") (taggedDocument "base" "user")).result.isOk = true by
      decide +kernel)
  have accepted : Accepted .api (taggedDocument "base" "user") _ ⟨[]⟩
      [⟨"base", none, _⟩, ⟨"user", none, _⟩] tree := ⟨rfl, rfl, rfl, here⟩
  obtain ⟨tag, signatures, named, -, written⟩ := accepted.writes_tag List.mem_cons_self rfl
  cases named
  refine ⟨_, _, _, tree, accepted, _, List.mem_cons_self, rfl, _, written, fun once => ?_⟩
  exact once.fresh "BaseApi" (by decide +kernel) (List.mem_singleton_self _)

end Generation
end TypedApi
