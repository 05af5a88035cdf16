import TypedApi.Proofs.Code.Import
import TypedApi.Proofs.Naming.Casing
import TypedApi.Proofs.Output.Model

/-! # The names in a model file

A model file declares the names of its component and imports those of other components and of
helpers.  All of them are a lead in small letters before a stem that starts otherwise, so that equal
names have equal leads and stems (`eq_of_append_eq`).  The file therefore binds each name once
exactly if its component is not among those it refers to and none of these is called like a check
(`Model.bindsOnce_iff`).
-/
namespace TypedApi

/-! ## Leads and stems -/

/-- No small letter at the start. -/
def IsStem (s : String) : Prop := ∃ c rest, s.toList = c :: rest ∧ c.isLower = false

theorem isStem_of_head {s : String} (h : (s.toList.head?.any fun c => !c.isLower) = true) :
    IsStem s := by
  unfold IsStem
  cases split : s.toList with
  | nil => simp [split] at h
  | cons c rest =>
    simp only [split, List.head?_cons, Option.any_some, Bool.not_eq_true'] at h
    exact ⟨c, rest, rfl, h⟩

/-- Nothing but small letters. -/
def IsLead (s : String) : Prop := ∀ c ∈ s.toList, c.isLower = true

/-- Where the small letters end, the stem starts. -/
theorem takeWhile_append_stem {lead stem : String} (hl : IsLead lead) (hs : IsStem stem) :
    (lead ++ stem).toList.takeWhile Char.isLower = lead.toList := by
  obtain ⟨c, rest, split, hc⟩ := hs
  rw [String.toList_append, split, List.takeWhile_append_of_pos hl,
    List.takeWhile_cons_of_neg (by simp [hc]), List.append_nil]

/-- **Equal names have equal leads and equal stems.** -/
theorem eq_of_append_eq {lead other stem rest : String} (hl : IsLead lead) (ho : IsLead other)
    (hs : IsStem stem) (hr : IsStem rest) (h : lead ++ stem = other ++ rest) :
    lead = other ∧ stem = rest := by
  have leads : lead = other := by
    rw [← String.toList_inj, ← takeWhile_append_stem hl hs, h, takeWhile_append_stem ho hr]
  refine ⟨leads, ?_⟩
  rw [leads, ← String.toList_inj, String.toList_append, String.toList_append,
    List.append_cancel_left_eq] at h
  exact String.toList_inj.mp h

/-- The leads of the names that have a component for their stem. -/
def leads : List String := ["", "validate", "print", "values"]

theorem isLead_of_mem {lead : String} (h : lead ∈ leads) : IsLead lead := by
  have table : leads.all (fun lead => lead.toList.all Char.isLower) = true := by decide +kernel
  exact List.all_eq_true.mp (List.all_eq_true.mp table lead h)

theorem isLead_is : IsLead "is" :=
  List.all_eq_true.mp (show "is".toList.all Char.isLower = true by decide +kernel)

theorem isStem_spell {words : List (List Char)} (accepted : Identifier.Accepted words) :
    IsStem (Identifier.spell words).upperCamel := by
  obtain ⟨c, rest, split, start⟩ := Identifier.upperCamel_start accepted
  refine ⟨c, rest, split, ?_⟩
  rcases start with upper | rfl
  · simpa using Char.not_isLower_of_isUpper upper
  · rfl

theorem isStem_upperCamel {raw : String} {name : Identifier}
    (h : Identifier.ofHumped raw = .ok name) : IsStem name.upperCamel := by
  obtain ⟨cs, -, rfl, accepted⟩ := Identifier.ofHumped_eq_ok h
  exact isStem_spell accepted

namespace Model

/-! ## What a file binds -/

/-- What the model file of a component imports. -/
def imports (registry : Registry) (name : Identifier) (schema : Value) : Code.ImportSet :=
  (Code.ImportSet.empty (some .model)).addAll (Model.lines registry name schema).notes

/-- The names that the model file of a component declares. -/
def declaredNames (name : Identifier) : Shape → List String
  | .enumeration _ => exported name.upperCamel ++ ["values" ++ name.upperCamel]
  | _ => exported name.upperCamel

/-- The name of the module of a component in the model files. -/
def moduleOf (name : Identifier) : String :=
  (Code.Source.generated (some .model) name.kebab).specifier (some .model)

/-- Each name at the top of the file is bound once: the imported names differ, none is declared in
the file, and nothing is imported from the file itself. -/
structure BindsOnce (imports : Code.ImportSet) (declared : List String) (own : String) : Prop where
  distinct : imports.names.Nodup
  fresh : ∀ n ∈ imports.names, n ∉ declared
  foreign : own ∉ imports.modules

/-- The component is not among those it refers to, and none of these is called like a check. -/
structure Apart (name : Identifier) (checks : List String) (components : List Identifier) :
    Prop where
  others : ∀ component ∈ components, component.upperCamel ≠ name.upperCamel
  unlike : ∀ component ∈ name :: components, component.upperCamel ∉ checks

/-- The imports of a file that uses some checks and refers to some components. -/
inductive Uses (checks : List String) (components : List Identifier) : Code.Import → Prop where
  | check {lead check : String} (hl : lead ∈ leads) (hc : check ∈ checks) :
      Uses checks components (Code.Import.helper (lead ++ check))
  | guard : Uses checks components (Code.Import.helper ("is" ++ "Undefined"))
  | component {lead : String} {name : Identifier} (hl : lead ∈ leads) (hn : name ∈ components) :
      Uses checks components (name.export (lead ++ name.upperCamel))

/-- The imports are among those for the given checks and components, and all checks, types and
validators are there. -/
structure Covers (checks : List String) (components : List Identifier)
    (notes : List Code.Import) : Prop where
  allowed : ∀ i ∈ notes, Uses checks components i
  checked : ∀ check ∈ checks, Code.Import.helper ("validate" ++ check) ∈ notes
  typed : ∀ name ∈ components, name.export name.upperCamel ∈ notes
  validated : ∀ name ∈ components, name.export name.validator ∈ notes

theorem helper_ne_moduleOf (name : Identifier) :
    Code.Import.validateModule.specifier (some .model) ≠ moduleOf name := by
  intro h
  have := congrArg String.toList h
  simp [Code.Import.validateModule, moduleOf, Code.Source.specifier, Code.relativePrefix] at this

theorem moduleOf_inj {name other : Identifier} :
    moduleOf name = moduleOf other ↔ name.kebab = other.kebab := by
  constructor
  · intro h
    simpa [moduleOf, Code.Source.specifier] using h
  · intro h
    rw [moduleOf, h, moduleOf]

section Names
variable {checks : List String} {components : List Identifier} {notes : List Code.Import}
  {i : Code.Import} {name : Identifier}

/-- An import of a helper is not called like something of a component, unless the component is
called like a check. -/
theorem Uses.cases (stems : ∀ check ∈ checks, IsStem check) (h : Uses checks components i) :
    (i.source = Code.Import.validateModule ∧ ∀ lead ∈ leads, ∀ stem, IsStem stem →
      stem ∉ checks → i.name ≠ lead ++ stem) ∨
    ∃ lead ∈ leads, ∃ component ∈ components,
      i = component.export (lead ++ component.upperCamel) := by
  cases h with
  | @check lead check hl hc =>
    refine .inl ⟨rfl, fun other ho stem hs unlike same => ?_⟩
    obtain ⟨-, rfl⟩ := eq_of_append_eq (isLead_of_mem hl) (isLead_of_mem ho) (stems check hc) hs
      same
    exact unlike hc
  | guard =>
    refine .inl ⟨rfl, fun other ho stem hs _ same => ?_⟩
    have undefined : IsStem "Undefined" := isStem_of_head (by decide +kernel)
    obtain ⟨rfl, -⟩ := eq_of_append_eq isLead_is (isLead_of_mem ho) undefined hs same
    exact absurd ho (by decide)
  | @component lead component hl hn => exact .inr ⟨lead, hl, component, hn, rfl⟩

/-- A file that binds each name once stands apart from what it uses. -/
theorem Covers.apart {declared : List String} (covers : Covers checks components notes)
    (hd : ∀ export_ ∈ exported name.upperCamel, export_ ∈ declared)
    (once : BindsOnce ((Code.ImportSet.empty (some .model)).addAll notes) declared
      (moduleOf name)) :
    Apart name checks components := by
  obtain ⟨distinct, fresh, -⟩ := once
  have bound : ∀ i ∈ notes, i.name ∉ declared := fun i hi =>
    fresh i.name (Code.ImportSet.mem_names_addAll.mpr ⟨i, hi, rfl⟩)
  refine ⟨fun component hc same => ?_, List.forall_mem_cons.mpr ⟨fun check => ?_, ?_⟩⟩
  · -- the type of the component would be imported and declared
    refine bound _ (covers.typed component hc) (hd _ ?_)
    rw [Identifier.export, same]
    exact List.mem_cons_self
  · -- so would the check
    refine bound _ (covers.checked name.upperCamel check) (hd _ ?_)
    simp [exported, Code.Import.helper]
  · -- the check would come from two modules
    intro component hc check
    have same := Code.ImportSet.names_nodup_iff.mp distinct _ (covers.checked _ check) _
      (covers.validated component hc) rfl
    exact helper_ne_moduleOf component same

section Apart
variable {raw : String} {declared : List String} (covers : Covers checks components notes)
  (stems : ∀ check ∈ checks, IsStem check)
  (spelled : ∀ component ∈ components, ∃ raw, Identifier.ofHumped raw = .ok component)
  (apart : Apart name checks components)
include covers stems spelled apart

/-- A name that two imports share comes from one module. -/
theorem Covers.distinct : ((Code.ImportSet.empty (some .model)).addAll notes).names.Nodup := by
  have unlike : ∀ component ∈ components, component.upperCamel ∉ checks := fun component hc =>
    apart.unlike component (List.mem_cons_of_mem name hc)
  have stem : ∀ component ∈ components, IsStem component.upperCamel := fun component hc =>
    isStem_upperCamel (spelled component hc).choose_spec
  refine Code.ImportSet.names_nodup_iff.mpr fun i hi j hj same => ?_
  rcases (covers.allowed i hi).cases stems with ⟨source, differs⟩ | ⟨lead, hl, component, hc, rfl⟩
  · rcases (covers.allowed j hj).cases stems with ⟨source', -⟩ | ⟨other, ho, next, hn, rfl⟩
    · rw [source, source']
    · exact absurd same (differs other ho _ (stem next hn) (unlike next hn))
  · rcases (covers.allowed j hj).cases stems with ⟨-, differs⟩ | ⟨other, ho, next, hn, rfl⟩
    · exact absurd same.symm (differs lead hl _ (stem component hc) (unlike component hc))
    · -- both belong to components, which then have one type name and so one file
      obtain ⟨-, same⟩ := eq_of_append_eq (isLead_of_mem hl) (isLead_of_mem ho) (stem component hc)
        (stem next hn) same
      obtain ⟨raw, hr⟩ := spelled component hc
      obtain ⟨raw', hr'⟩ := spelled next hn
      exact moduleOf_inj.mpr (Identifier.kebab_eq_of_upperCamel_eq hr hr' same)

/-- No imported name is declared in the file. -/
theorem Covers.fresh (named : Identifier.ofHumped raw = .ok name)
    (hd : ∀ n ∈ declared, ∃ lead ∈ leads, n = lead ++ name.upperCamel) :
    ∀ n ∈ ((Code.ImportSet.empty (some .model)).addAll notes).names, n ∉ declared := by
  intro n hn declares
  have own := isStem_upperCamel named
  obtain ⟨i, hi, rfl⟩ := Code.ImportSet.mem_names_addAll.mp hn
  obtain ⟨other, ho, same⟩ := hd _ declares
  rcases (covers.allowed i hi).cases stems with ⟨-, differs⟩ | ⟨lead, hl, component, hc, rfl⟩
  · exact differs other ho _ own (apart.unlike name List.mem_cons_self) same
  · have stem := isStem_upperCamel (spelled component hc).choose_spec
    obtain ⟨-, same⟩ := eq_of_append_eq (isLead_of_mem hl) (isLead_of_mem ho) stem own same
    exact apart.others component hc same

/-- Nothing is imported from the file itself. -/
theorem Covers.foreign (named : Identifier.ofHumped raw = .ok name) :
    moduleOf name ∉ ((Code.ImportSet.empty (some .model)).addAll notes).modules := by
  intro own
  obtain ⟨i, hi, here⟩ := Code.ImportSet.mem_modules_addAll.mp own
  rcases (covers.allowed i hi).cases stems with ⟨source, -⟩ | ⟨lead, hl, component, hc, rfl⟩
  · rw [source] at here
    exact helper_ne_moduleOf name here
  · -- one file has one type name
    obtain ⟨raw', hr'⟩ := spelled component hc
    exact apart.others component hc
      (Identifier.upperCamel_eq_of_kebab_eq hr' named (moduleOf_inj.mp here))

end Apart

end Names

/-! ## What a file uses -/

section Shapes
variable {registry : Registry} {name : Identifier} {required : List String}

/-- The slots of the properties of the component `name`. -/
def slotsOf (registry : Registry) (name : String) (required : List String)
    (properties : List (String × Value)) : List Slot :=
  properties.filterMap fun property =>
    match (resolveSlot registry [name, property.1] property.2
      (required.contains property.1)).result with
    | .ok slot => some slot
    | .error _ => none

theorem slotsOf_eq {typeName : String} {properties : List (String × Value)} {slots : List Slot}
    (h : List.Forall₂ (HasSlot registry typeName required) properties slots) :
    slotsOf registry typeName required properties = slots := by
  induction h with
  | nil => rfl
  | cons own _ ih =>
    unfold slotsOf at ih ⊢
    rw [HasSlot] at own
    rw [List.filterMap_cons_some (by rw [own]), ih]

/-- The checks that a file of the given shape uses. -/
def checksOf (registry : Registry) (name : Identifier) : Shape → List String
  | .enumeration _ => ["OneOf"]
  | .object properties required =>
    "Object" :: (slotsOf registry name.upperCamel required properties).flatMap (·.codec.checks)
  | _ => []

/-- The components that a file of the given shape refers to. -/
def componentsOf (registry : Registry) (name : Identifier) : Shape → List Identifier
  | .object properties required =>
    (slotsOf registry name.upperCamel required properties).flatMap Slot.references
  | _ => []

theorem isStem_of_mem_checksOf {shape : Shape} :
    ∀ check ∈ checksOf registry name shape, IsStem check := by
  have table : ∀ check ∈ "Object" :: "OneOf" :: Codec.checkNames,
      (check.toList.head?.any fun c => !c.isLower) = true := by decide +kernel
  -- the checks are those of the two shapes of models and those of the codecs
  have known : ∀ check ∈ checksOf registry name shape,
      check ∈ "Object" :: "OneOf" :: Codec.checkNames := by
    intro check hc
    unfold checksOf at hc
    split at hc
    · rw [List.mem_singleton.mp hc]
      decide
    · rcases List.mem_cons.mp hc with rfl | hc
      · exact List.mem_cons_self
      · obtain ⟨slot, -, hc⟩ := List.mem_flatMap.mp hc
        exact List.mem_cons_of_mem _ (List.mem_cons_of_mem _ (slot.codec.checks_subset check hc))
    · cases hc
  exact fun check hc => isStem_of_head (table check (known check hc))

/-- Components that a model refers to are spelled by references. -/
theorem referable_of_mem_componentsOf {shape : Shape} :
    ∀ component ∈ componentsOf registry name shape, component.Referable := by
  intro component hc
  unfold componentsOf at hc
  split at hc
  · obtain ⟨slot, hs, hc⟩ := List.mem_flatMap.mp hc
    obtain ⟨property, -, resolves⟩ := List.mem_filterMap.mp hs
    split at resolves
    · rename_i resolved
      cases resolves
      exact ((resolveSlot_yields slot resolved).1 component hc).referable
    · cases resolves
  · cases hc

/-- What a property imports is for its checks and its components. -/
theorem uses_of_allows {slot : Slot} {checks : List String} {components : List Identifier}
    {i : Code.Import} (hc : ∀ check ∈ slot.codec.checks, check ∈ checks)
    (hn : ∀ component ∈ slot.references, component ∈ components) (h : slot.Allows i) :
    Uses checks components i := by
  have plain : ∀ component : Identifier, component.upperCamel = "" ++ component.upperCamel :=
    fun component => String.empty_append.symm
  rcases h with ⟨component, hm, rfl⟩ | writes | rfl
  · rw [plain]
    exact .component (by decide) (hn component hm)
  · rcases writes with
      (⟨check, hm, rfl⟩ | ⟨component, hm, rfl⟩) | ⟨check, hm, -, rfl⟩ | ⟨component, hm, rfl⟩
    · exact .check (by decide) (hc check hm)
    · exact .component (by decide) (hn component hm)
    · exact .check (by decide) (hc check hm)
    · exact .component (by decide) (hn component hm)
  · exact .guard

/-- The imports of an enumeration. -/
theorem covers_enumeration {values description : List String} {typeName : String} :
    Covers ["OneOf"] [] (enumerationLines typeName values description).notes := by
  have notes : (enumerationLines typeName values description).notes =
      [Code.Import.helper ("validate" ++ "OneOf")] := rfl
  rw [notes]
  refine ⟨?_, ?_, List.forall_mem_nil _, List.forall_mem_nil _⟩
  · intro i hi
    rw [List.mem_singleton.mp hi]
    exact .check (by decide) List.mem_cons_self
  · intro check hc
    rw [List.mem_singleton.mp hc]
    exact List.mem_cons_self

/-- The imports of an object. -/
theorem covers_object {properties : List (String × Value)}
    {description : Except Failure (List String)} {lines : List String}
    (h : (objectLines registry name.upperCamel properties required description).result
      = .ok lines) :
    Covers (checksOf registry name (.object properties required))
      (componentsOf registry name (.object properties required))
      (objectLines registry name.upperCamel properties required description).notes := by
  obtain ⟨slots, hs, allows, needs⟩ := objectLines_spec h
  have checks : checksOf registry name (.object properties required) =
      "Object" :: slots.flatMap (·.codec.checks) := by
    rw [checksOf, slotsOf_eq hs]
  have components : componentsOf registry name (.object properties required) =
      slots.flatMap Slot.references := by
    rw [componentsOf, slotsOf_eq hs]
  have slotOf : ∀ component ∈ slots.flatMap Slot.references,
      ∃ slot ∈ slots, component ∈ slot.references := fun component hc => List.mem_flatMap.mp hc
  rw [checks, components]
  refine ⟨fun i hi => ?_, fun check hc => ?_, fun component hc => ?_, fun component hc => ?_⟩
  · rcases allows i hi with rfl | ⟨slot, hm, allowed⟩
    · exact (.check (by decide) List.mem_cons_self : Uses _ _ (.helper ("validate" ++ "Object")))
    · refine uses_of_allows (fun check hc => ?_) (fun component hc => ?_) allowed
      · exact List.mem_cons_of_mem _ (List.mem_flatMap.mpr ⟨slot, hm, hc⟩)
      · exact List.mem_flatMap.mpr ⟨slot, hm, hc⟩
  · rcases List.mem_cons.mp hc with rfl | hc
    · exact needs _ (.inl rfl)
    · obtain ⟨slot, hm, hc⟩ := List.mem_flatMap.mp hc
      exact needs _ (.inr ⟨slot, hm, .inr (.inl ⟨check, hc, rfl⟩)⟩)
  · obtain ⟨slot, hm, hc⟩ := slotOf component hc
    exact needs _ (.inr ⟨slot, hm, .inl ⟨component, hc, rfl⟩⟩)
  · obtain ⟨slot, hm, hc⟩ := slotOf component hc
    exact needs _ (.inr ⟨slot, hm, .inr (.inr ⟨component, hc, rfl⟩)⟩)

end Shapes

/-! ## Model files -/

section Files
variable {registry : Registry} {raw : String} {name : Identifier} {schema : Value}
  {emitted : Code.SourceFile}

/-- Some line exports the name, which a blank or a colon ends. -/
def Exports (lines : List String) (name : String) : Prop :=
  ∃ lead ∈ Code.exportLeads, ∃ line ∈ lines, ∃ stop ∈ [' ', ':'],
    lead.toList ++ name.toList ++ [stop] <+: line.toList

/-- The file is that of the component `name` of the given shape: it has the imports of the
component, and declares its names. -/
structure IsModelOf (registry : Registry) (raw : String) (schema : Value)
    (emitted : Code.SourceFile) (name : Identifier) (shape : Shape) : Prop where
  named : Identifier.ofHumped raw = .ok name
  classified : classify [name.upperCamel] schema = .ok shape
  text : ∃ lines, emitted = ⟨"model/" ++ name.kebab ++ ".ts",
      Code.fileText [(imports registry name schema).render, Code.joinLines lines]⟩ ∧
    ∀ n ∈ declaredNames name shape, Exports lines n

theorem exports_of_starts {lines : List String} {n : String} (h : Code.Starts lines n) :
    Exports lines n := by
  obtain ⟨lead, hl, line, hm, start⟩ := h
  exact ⟨lead, hl, line, hm, ' ', by decide, start⟩

theorem enumerationLines_export {typeName : String} {values description lines : List String}
    (h : (enumerationLines typeName values description).result = .ok lines) :
    Exports lines ("values" ++ typeName) := by
  have array : "export const values" ++ typeName ++ ": ReadonlyArray<" ++ typeName ++ "> = ["
      ++ Text.commaList (values.map Text.literal) ++ "];" ∈ lines := by
    cases h
    simp
  refine ⟨"export const ", by simp [Code.exportLeads], _, array, ':', by decide, ?_⟩
  rw [← String.toList_append, ← String.append_assoc]
  show ("export const values" ++ typeName).toList ++ [':'] <+: _
  simp only [String.toList_append, List.append_assoc, List.prefix_append_right_inj]
  exact ⟨_, rfl⟩

/-- The declared names have the component for their stem. -/
theorem lead_of_mem_declaredNames {shape : Shape} :
    ∀ n ∈ declaredNames name shape, ∃ lead ∈ leads, n = lead ++ name.upperCamel := by
  unfold declaredNames
  split <;> simp [exported, leads]

theorem exported_subset_declaredNames {shape : Shape} :
    ∀ n ∈ exported name.upperCamel, n ∈ declaredNames name shape := by
  intro n hn
  unfold declaredNames
  split
  · exact List.mem_append_left _ hn
  · exact hn

/-- **What a model file binds.**  Every name at the top of a model file is bound once exactly if no
property refers back to the component and neither the component nor any that it refers to is called
like a check that the file uses. -/
theorem bindsOnce_iff (h : file registry raw schema = .ok emitted) :
    ∃ name shape, IsModelOf registry raw schema emitted name shape ∧
      (BindsOnce (imports registry name schema) (declaredNames name shape) (moduleOf name) ↔
        Apart name (checksOf registry name shape) (componentsOf registry name shape)) := by
  obtain ⟨name, named, h⟩ := Except.bind_eq_ok.mp h
  obtain ⟨lines, hl, h⟩ := Except.bind_eq_ok.mp h
  have spelled : ∀ shape, ∀ component ∈ componentsOf registry name shape,
      ∃ raw, Identifier.ofHumped raw = .ok component := by
    intro shape component hc
    obtain ⟨reference, hr⟩ := referable_of_mem_componentsOf component hc
    exact Identifier.ofHumped_of_parseReference hr
  -- the two shapes differ in what they use, not in why names are bound once
  have iff : ∀ shape, Covers (checksOf registry name shape) (componentsOf registry name shape)
      (Model.lines registry name schema).notes →
      (BindsOnce (imports registry name schema) (declaredNames name shape) (moduleOf name) ↔
        Apart name (checksOf registry name shape) (componentsOf registry name shape)) :=
    fun shape covers => ⟨covers.apart exported_subset_declaredNames, fun apart =>
      ⟨covers.distinct isStem_of_mem_checksOf (spelled shape) apart,
        covers.fresh isStem_of_mem_checksOf (spelled shape) apart named lead_of_mem_declaredNames,
        covers.foreign isStem_of_mem_checksOf (spelled shape) apart named⟩⟩
  cases h
  rcases lines_eq_ok hl with ⟨values, text, classified, he, notes⟩ |
    ⟨properties, required, text, classified, ho, notes⟩
  · refine ⟨name, .enumeration values, ⟨named, classified, lines, rfl, ?_⟩, iff _ ?_⟩
    · intro n hn
      rcases List.mem_append.mp hn with hn | hn
      · exact exports_of_starts ((lines_declare hl).starts n hn)
      · rw [List.mem_singleton.mp hn]
        exact enumerationLines_export he
    · rw [notes]
      exact covers_enumeration
  · refine ⟨name, .object properties required, ⟨named, classified, lines, rfl, ?_⟩, iff _ ?_⟩
    · exact fun n hn => exports_of_starts ((lines_declare hl).starts n hn)
    · rw [notes]
      exact covers_object ho

/-- A component with a property of its own type. -/
def treeNode : Value :=
  let next := Value.map [(.text "$ref", .text "#/components/schemas/Node")]
  .map [(.text "type", .text "object"), (.text "properties", .map [(.text "next", next)])]

theorem bindsOnce_iff_treeNode :
    ∃ registry emitted, Registry.ofSchemas [(.text "Node", treeNode)] = .ok registry ∧
      file registry "Node" treeNode = .ok emitted ∧
      ∃ name shape, IsModelOf registry "Node" treeNode emitted name shape ∧
        (BindsOnce (imports registry name treeNode) (declaredNames name shape) (moduleOf name) ↔
          Apart name (checksOf registry name shape) (componentsOf registry name shape)) := by
  have accepted : Registry.ofSchemas [(.text "Node", treeNode)] = .ok ⟨[("Node", .object)]⟩ :=
    Except.eq_ok_of_toOption (by decide +kernel)
  obtain ⟨emitted, h⟩ := Except.exists_of_isOk
    (show (file ⟨[("Node", .object)]⟩ "Node" treeNode).isOk = true by decide +kernel)
  exact ⟨_, emitted, accepted, h, bindsOnce_iff h⟩

/-- The file of a component that refers to itself takes names from itself. -/
theorem not_bindsOnce_treeNode :
    ∃ registry name emitted, Registry.ofSchemas [(.text "Node", treeNode)] = .ok registry ∧
      Identifier.ofHumped "Node" = .ok name ∧ file registry "Node" treeNode = .ok emitted ∧
      ∀ declared, ¬BindsOnce (imports registry name treeNode) declared (moduleOf name) := by
  have accepted : Registry.ofSchemas [(.text "Node", treeNode)] = .ok ⟨[("Node", .object)]⟩ :=
    Except.eq_ok_of_toOption (by decide +kernel)
  have named : Identifier.ofHumped "Node" = .ok ⟨"node", "Node", "Node", "node"⟩ :=
    Except.eq_ok_of_toOption (by decide +kernel)
  have own : moduleOf ⟨"node", "Node", "Node", "node"⟩ ∈
      (imports ⟨[("Node", .object)]⟩ ⟨"node", "Node", "Node", "node"⟩ treeNode).modules := by
    decide +kernel
  obtain ⟨emitted, h⟩ := Except.exists_of_isOk
    (show (file ⟨[("Node", .object)]⟩ "Node" treeNode).isOk = true by decide +kernel)
  exact ⟨_, _, emitted, accepted, named, h, fun _ once => once.foreign own⟩

end Files
end Model
end TypedApi
