import Mathlib.Data.List.Forall2
import TypedApi.Output.Model
import TypedApi.Proofs.Code.Exports
import TypedApi.Proofs.Schema.Imports

/-! # What model files import and export

The file of an enumeration imports one helper.  The file of an object imports the check of objects
and what the slots of its properties call for (`Model.objectLines_spec`): at least the types of
their components and what reading takes, at most what writing takes besides.  Both export the type,
the printer and the validator of the component (`Model.lines_declare`).
-/
namespace TypedApi

/-! ## Files of lines -/

/-- The file has the given path, and the given lines after its import statements. -/
def Code.SourceFile.Holds (file : Code.SourceFile) (path : String) (lines : List String) : Prop :=
  ∃ imports, file = ⟨path, Code.fileText [imports, Code.joinLines lines]⟩

theorem Emission.toFile_of_ok {folder : Option Code.Folder} {path : String}
    {x : Emission (List String)} {lines : List String} (h : x.result = .ok lines) :
    ∃ file, x.toFile folder path = .ok file ∧ file.Holds path lines := by
  unfold Emission.toFile
  rw [h]
  exact ⟨_, rfl, _, rfl⟩

theorem Emission.toFile_of_error {folder : Option Code.Folder} {path : String}
    {x : Emission (List String)} {e : Failure} (h : x.result = .error e) :
    x.toFile folder path = .error e := by
  unfold Emission.toFile
  rw [h]
  rfl

/-! ## Properties -/

/-- The imports that a property with the given slot cannot do without. -/
def Slot.Needs (slot : Slot) (i : Code.Import) : Prop :=
  TypeOf slot.references i ∨ Codec.Reads slot.codec.checks slot.references i

/-- The imports that a property with the given slot may have. -/
def Slot.Allows (slot : Slot) (i : Code.Import) : Prop :=
  TypeOf slot.references i ∨ Codec.Writes slot.codec.checks slot.references i ∨
    i = Code.Import.helper "isUndefined"

namespace Model
variable {registry : Registry} {name : String} {required : List String}

/-- The slot of a property of the component `name`. -/
def HasSlot (registry : Registry) (name : String) (required : List String)
    (property : String × Value) (slot : Slot) : Prop :=
  (resolveSlot registry [name, property.1] property.2 (required.contains property.1)).result
    = .ok slot

theorem known_of_hasSlot {properties : List (String × Value)} {slots : List Slot}
    (h : List.Forall₂ (HasSlot registry name required) properties slots) :
    ∀ slot ∈ slots, slot.Known registry := by
  induction h with
  | nil => exact List.forall_mem_nil _
  | cons own _ ih => exact List.forall_mem_cons.mpr ⟨(resolveSlot_yields _ own).1, ih⟩

theorem propertyLines_spec {property : String × Value} {lines : PropertyLines}
    (h : (propertyLines registry name required property).result = .ok lines) :
    ∃ slot, HasSlot registry name required property slot ∧
      (∀ i ∈ (propertyLines registry name required property).notes, slot.Allows i) ∧
      ∀ i, slot.Needs i → i ∈ (propertyLines registry name required property).notes := by
  unfold propertyLines at h ⊢
  obtain ⟨slot, hs, h⟩ := Noted.bind_eq_ok.mp h
  obtain ⟨comment, hc, h⟩ := Noted.bind_eq_ok.mp h
  obtain ⟨printed, hp, h⟩ := Noted.bind_eq_ok.mp h
  obtain ⟨checked, hr, h⟩ := Noted.bind_eq_ok.mp h
  obtain ⟨types, -⟩ := resolveSlot_resolvesTo slot hs
  obtain ⟨-, writes⟩ := slot.toJson_spec (Code.memberAccess "value" property.1)
  obtain ⟨-, reads⟩ := slot.fromJson_spec (Code.memberAccess "object" property.1)
    (Code.contextLiteral [name, property.1] (some "context"))
  simp only [Noted.notes_bind_of_ok hs, Noted.notes_bind_of_ok hc, Noted.notes_bind_of_ok hp,
    Noted.notes_bind_of_ok hr, Noted.ofExcept_notes, Noted.pure_notes, List.append_nil,
    List.nil_append, List.mem_append]
  refine ⟨slot, hs, fun i hi => ?_, fun i hi => ?_⟩
  · rcases hi with hi | hi | hi
    · exact .inl ((types i).mp hi)
    · rcases writes i hi with hw | ⟨-, guard⟩
      · exact .inr (.inl hw)
      · exact .inr (.inr guard)
    · rcases (reads i).mp hi with hr | ⟨-, guard⟩
      · exact .inr (.inl (.inl hr))
      · exact .inr (.inr guard)
  · rcases hi with hi | hi
    · exact .inl ((types i).mpr hi)
    · exact .inr (.inr ((reads i).mpr (.inl hi)))

theorem allPropertyLines_spec {properties : List (String × Value)} {lines : List PropertyLines}
    (h : (allPropertyLines registry name required properties).result = .ok lines) :
    ∃ slots, List.Forall₂ (HasSlot registry name required) properties slots ∧
      (∀ i ∈ (allPropertyLines registry name required properties).notes,
        ∃ slot ∈ slots, slot.Allows i) ∧
      ∀ slot ∈ slots, ∀ i, slot.Needs i →
        i ∈ (allPropertyLines registry name required properties).notes := by
  induction properties generalizing lines with
  | nil =>
    refine ⟨[], .nil, fun i hi => ?_, fun slot hs => ?_⟩
    · cases hi
    · cases hs
  | cons property rest ih =>
    rw [allPropertyLines] at h ⊢
    obtain ⟨own, ho, h⟩ := Noted.bind_eq_ok.mp h
    obtain ⟨later, hl, h⟩ := Noted.bind_eq_ok.mp h
    obtain ⟨slot, hs, allows, needs⟩ := propertyLines_spec ho
    obtain ⟨slots, hss, allows', needs'⟩ := ih hl
    simp only [Noted.notes_bind_of_ok ho, Noted.notes_bind_of_ok hl, Noted.pure_notes,
      List.append_nil, List.mem_append]
    refine ⟨slot :: slots, .cons hs hss, fun i hi => ?_, fun s hm i hi => ?_⟩
    · rcases hi with hi | hi
      · exact ⟨slot, List.mem_cons_self, allows i hi⟩
      · obtain ⟨s, hm, ha⟩ := allows' i hi
        exact ⟨s, List.mem_cons_of_mem slot hm, ha⟩
    · rcases List.mem_cons.mp hm with rfl | hm
      · exact .inl (needs i hi)
      · exact .inr (needs' s hm i hi)

/-! ## Declarations -/

/-- The lines declare the type, the printer and the validator of a component. -/
structure DeclaresAll (name : String) (lines : List String) : Prop where
  type : ∃ line ∈ lines, Code.exportStart "export type " name <+: line.toList
  printer : ∃ line ∈ lines, Code.exportStart "export const print" name <+: line.toList
  validator : ∃ line ∈ lines, Code.exportStart "export const validate" name <+: line.toList

/-- The names that the file of a component exports. -/
def exported (name : String) : List String := [name, "print" ++ name, "validate" ++ name]

theorem DeclaresAll.starts {lines : List String} (h : DeclaresAll name lines) :
    ∀ export_ ∈ exported name, Code.Starts lines export_ := by
  have constant : "export const " ∈ Code.exportLeads := by simp [Code.exportLeads]
  simp only [exported, List.forall_mem_cons, List.not_mem_nil, false_imp_iff, implies_true,
    and_true]
  refine ⟨⟨_, by simp [Code.exportLeads], h.type⟩, ⟨_, constant, ?_⟩, ⟨_, constant, ?_⟩⟩
  · rw [Code.exportStart_append]
    exact h.printer
  · rw [Code.exportStart_append]
    exact h.validator

theorem DeclaresAll.declares {lines : List String} (h : DeclaresAll name lines)
    (plain : ∀ c ∈ name.toList, Code.isNamePart c = true) :
    ∀ export_ ∈ exported name, Code.Declares lines export_ := by
  have function : ["", "print", "validate"].all (fun word => word.toList.all Code.isNamePart)
      = true := by decide
  have built : ∀ export_ ∈ exported name, ∃ word ∈ ["", "print", "validate"],
      export_ = word ++ name := by
    simp [exported]
  intro export_ he
  refine ⟨fun c hc => ?_, h.starts export_ he⟩
  obtain ⟨word, hw, rfl⟩ := built export_ he
  rw [String.toList_append] at hc
  exact (List.mem_append.mp hc).elim
    (List.all_eq_true.mp (List.all_eq_true.mp function word hw) c) (plain c)

theorem enumerationLines_declare {values description lines : List String}
    (h : (enumerationLines name values description).result = .ok lines) :
    DeclaresAll name lines := by
  have type : "export type " ++ name ++ " = " ++ " | ".intercalate (values.map Text.literal)
      ++ ";" ∈ lines := by
    cases h
    simp
  have printer : "export const print" ++ name ++ " = (value: " ++ name ++ "): any => value;"
      ∈ lines := by
    cases h
    simp
  have validator : "export const validate" ++ name ++ " = (json: unknown, context: string[] = []): "
      ++ name ++ " =>" ∈ lines := by
    cases h
    simp
  refine ⟨⟨_, type, ?_⟩, ⟨_, printer, ?_⟩, ⟨_, validator, ?_⟩⟩
  all_goals
    simp only [Code.exportStart, String.toList_append, List.append_assoc,
      List.prefix_append_right_inj]
    exact ⟨_, rfl⟩

theorem objectLines_declare {properties : List (String × Value)}
    {description : Except Failure (List String)} {lines : List String}
    (h : (objectLines registry name properties required description).result = .ok lines) :
    DeclaresAll name lines := by
  unfold objectLines at h
  obtain ⟨_, -, h⟩ := Noted.bind_eq_ok.mp h
  obtain ⟨own, -, h⟩ := Noted.bind_eq_ok.mp h
  obtain ⟨text, -, h⟩ := Noted.bind_eq_ok.mp h
  have type : "export type " ++ name ++ " = Record<string, never>;" ∈ lines ∨
      "export type " ++ name ++ " = \x7b" ∈ lines := by
    cases h
    cases own <;> simp
  have printer : "export const print" ++ name ++ " = (value: " ++ name ++ "): any => \x7b"
      ∈ lines := by
    cases h
    simp
  have validator : "export const validate" ++ name ++ " = (json: unknown, context: string[] = []): "
      ++ name ++ " => \x7b" ∈ lines := by
    cases h
    simp
  rcases type with type | type
  all_goals
    refine ⟨⟨_, type, ?_⟩, ⟨_, printer, ?_⟩, ⟨_, validator, ?_⟩⟩
    all_goals
      simp only [Code.exportStart, String.toList_append, List.append_assoc,
        List.prefix_append_right_inj]
      exact ⟨_, rfl⟩

/-! ## Components -/

theorem objectLines_spec {properties : List (String × Value)}
    {description : Except Failure (List String)} {lines : List String}
    (h : (objectLines registry name properties required description).result = .ok lines) :
    ∃ slots, List.Forall₂ (HasSlot registry name required) properties slots ∧
      (∀ i ∈ (objectLines registry name properties required description).notes,
        i = Code.Import.helper "validateObject" ∨ ∃ slot ∈ slots, slot.Allows i) ∧
      ∀ i, (i = Code.Import.helper "validateObject" ∨ ∃ slot ∈ slots, slot.Needs i) →
        i ∈ (objectLines registry name properties required description).notes := by
  unfold objectLines at h ⊢
  obtain ⟨_, hn, h⟩ := Noted.bind_eq_ok.mp h
  obtain ⟨own, ho, h⟩ := Noted.bind_eq_ok.mp h
  obtain ⟨text, ht, h⟩ := Noted.bind_eq_ok.mp h
  obtain ⟨slots, hs, allows, needs⟩ := allPropertyLines_spec ho
  simp only [Noted.notes_bind_of_ok hn, Noted.notes_bind_of_ok ho, Noted.notes_bind_of_ok ht,
    Noted.note_notes, Noted.ofExcept_notes, Noted.pure_notes, List.append_nil, List.mem_append,
    List.mem_singleton]
  refine ⟨slots, hs, fun i hi => hi.imp_right (allows i), fun i hi => ?_⟩
  rcases hi with hi | ⟨slot, hm, hi⟩
  · exact .inl hi
  · exact .inr (needs slot hm i hi)

/-- The lines of a component schema are those of an enumeration or of an object. -/
theorem lines_eq_ok {name : Identifier} {schema : Value} {lines : List String}
    (h : (Model.lines registry name schema).result = .ok lines) :
    (∃ values text, classify [name.upperCamel] schema = .ok (.enumeration values) ∧
      (enumerationLines name.upperCamel values text).result = .ok lines ∧
      (Model.lines registry name schema).notes =
        (enumerationLines name.upperCamel values text).notes) ∨
    ∃ properties required text,
      classify [name.upperCamel] schema = .ok (.object properties required) ∧
      (objectLines registry name.upperCamel properties required text).result = .ok lines ∧
      (Model.lines registry name schema).notes =
        (objectLines registry name.upperCamel properties required text).notes := by
  unfold Model.lines at h ⊢
  obtain ⟨shape, hs, h⟩ := Noted.bind_eq_ok.mp h
  rw [Noted.bind_of_ok hs]
  rw [Noted.ofExcept_result] at hs
  simp only [Noted.ofExcept_notes, List.nil_append] at h ⊢
  split at h
  · rename_i values
    obtain ⟨text, ht, h⟩ := Noted.bind_eq_ok.mp h
    refine .inl ⟨values, text, hs, h, ?_⟩
    rw [Noted.bind_of_ok ht]
    rfl
  · rename_i properties required
    exact .inr ⟨properties, required, _, hs, h, rfl⟩
  · cases h

/-- A model imports what conversions need, and the checks of objects and of enumerations. -/
theorem lines_supplies {name : Identifier} {schema : Value} {lines : List String}
    (h : (Model.lines registry name schema).result = .ok lines) :
    ∀ i ∈ (Model.lines registry name schema).notes, registry.Supplies i ∨
      i = Code.Import.helper "validateObject" ∨ i = Code.Import.helper "validateOneOf" := by
  intro i hi
  rcases lines_eq_ok h with ⟨values, text, -, -, notes⟩ | ⟨properties, required, text, -, h, notes⟩
  · rw [notes] at hi
    exact .inr (.inr (List.mem_singleton.mp hi))
  · rw [notes] at hi
    obtain ⟨slots, hs, allows, -⟩ := objectLines_spec h
    rcases allows i hi with hi | ⟨slot, hm, types | writes | guard⟩
    · exact .inr (.inl hi)
    · obtain ⟨component, hc, rfl⟩ := types
      exact .inl (.type (known_of_hasSlot hs slot hm component hc))
    · exact .inl (.runs (.of_writes slot.codec.checks_subset (known_of_hasSlot hs slot hm) writes))
    · exact .inl (.runs (guard ▸ .helper (by decide)))

/-- **Every model exports its component**: the type, the printer and the validator. -/
theorem lines_declare {name : Identifier} {schema : Value} {lines : List String}
    (h : (Model.lines registry name schema).result = .ok lines) :
    DeclaresAll name.upperCamel lines := by
  rcases lines_eq_ok h with ⟨_, _, -, h, -⟩ | ⟨_, _, _, -, h, -⟩
  · exact enumerationLines_declare h
  · exact objectLines_declare h

end Model
end TypedApi
