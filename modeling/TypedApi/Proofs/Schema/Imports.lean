import TypedApi.Proofs.Schema.Expressions
import TypedApi.Proofs.Support.Declarations

/-! # What conversions import

Every import that resolving a schema or converting its values notes is a helper, or a name that the
file of a registered component exports (`Registry.Supplies`).  The converters of a slot whose
components are registered always deliver, apart from reading the text of a URL, which delivers if
it did so once (`Slot.fromParam_delivers`).
-/
namespace TypedApi

/-- The helpers that conversions call. -/
def conversionHelpers : List String :=
  ["isUndefined", "validateBoolean", "validateInteger", "validateNumber", "validateString",
   "validateDate", "validateDateTime", "validateFirst", "validateArray", "validateMap",
   "validateBooleanString", "validateIntegerString", "validateNumberString",
   "validateParamArray", "printDate", "printDateTime", "printFirst", "printMap"]

theorem conversionHelpers_subset :
    ∀ name ∈ conversionHelpers, name ∈ Support.helpers.map (·.name) := by
  simp [conversionHelpers, Support.helpers]

/-- A function that conversions call: a helper, or the validator or the printer of a registered
component. -/
inductive Registry.Runs (registry : Registry) : Code.Import → Prop where
  | helper {name : String} (h : name ∈ conversionHelpers) : Runs registry (Code.Import.helper name)
  | validator {name : Identifier} (h : registry.Knows name) :
      Runs registry (name.export name.validator)
  | printer {name : Identifier} (h : registry.Knows name) : Runs registry (name.export name.printer)

/-- A function that conversions call, or the type of a registered component. -/
inductive Registry.Supplies (registry : Registry) : Code.Import → Prop where
  | runs {i : Code.Import} (h : registry.Runs i) : Supplies registry i
  | type {name : Identifier} (h : registry.Knows name) :
      Supplies registry (name.export name.upperCamel)

namespace Codec

/-- The checks of plain values, unions and collections. -/
def checkNames : List String :=
  ["Boolean", "Integer", "Number", "String", "Date", "DateTime", "First", "Array", "Map"]

mutual

theorem checks_subset : ∀ (codec : Codec), ∀ check ∈ codec.checks, check ∈ checkNames
  | .boolean, _, h | .number true, _, h | .number false, _, h | .text _, _, h | .date, _, h
  | .dateTime, _, h => by
    rw [checks, List.mem_singleton] at h
    exact h ▸ by decide
  | .enumeration _, _, h | .object _ _, _, h => by cases h
  | .union options, check, h => by
    rcases List.mem_cons.mp h with rfl | h
    · decide
    · exact allChecks_subset options check h
  | .array item, check, h | .map item _, check, h => by
    rcases List.mem_cons.mp h with rfl | h
    · decide
    · exact item.checks_subset check h

theorem allChecks_subset : ∀ (options : List Codec), ∀ check ∈ allChecks options,
    check ∈ checkNames
  | option :: rest, check, h =>
    (List.mem_append.mp h).elim (option.checks_subset check) (allChecks_subset rest check)

end

end Codec

namespace Registry
variable {registry : Registry} {i : Code.Import}

theorem Runs.of_reads {checks : List String} {names : List Identifier}
    (hc : ∀ check ∈ checks, check ∈ Codec.checkNames) (hn : ∀ name ∈ names, registry.Knows name)
    (h : Codec.Reads checks names i) : registry.Runs i := by
  have called : ∀ check ∈ Codec.checkNames, "validate" ++ check ∈ conversionHelpers := by
    decide +kernel
  rcases h with ⟨check, hm, rfl⟩ | ⟨name, hm, rfl⟩
  · exact .helper (called check (hc check hm))
  · exact .validator (hn name hm)

theorem Runs.of_readsParam {names : List Identifier}
    (hn : ∀ name ∈ names, registry.Knows name) (h : Codec.ReadsParam names i) :
    registry.Runs i := by
  have called : ∀ check ∈ Codec.paramChecks, check ∈ conversionHelpers := by decide +kernel
  rcases h with ⟨check, hm, rfl⟩ | ⟨name, hm, rfl⟩
  · exact .helper (called check hm)
  · exact .validator (hn name hm)

theorem Runs.of_writes {checks : List String} {names : List Identifier}
    (hc : ∀ check ∈ checks, check ∈ Codec.checkNames) (hn : ∀ name ∈ names, registry.Knows name)
    (h : Codec.Writes checks names i) : registry.Runs i := by
  have called : ∀ check ∈ Codec.printedChecks, "print" ++ check ∈ conversionHelpers := by
    decide +kernel
  rcases h with h | ⟨check, -, hm, rfl⟩ | ⟨name, hm, rfl⟩
  · exact .of_reads hc hn h
  · exact .helper (called check hm)
  · exact .printer (hn name hm)

theorem Runs.of_guards {slot : Slot} (h : Guards slot i) : registry.Runs i := by
  obtain ⟨-, rfl⟩ := h
  exact .helper (by decide)

end Registry

/-! ## Slots -/

namespace Slot

/-- Every component that the slot refers to is registered. -/
def Known (registry : Registry) (slot : Slot) : Prop :=
  ∀ name ∈ slot.references, registry.Knows name

/-- The text of a URL can be read, whatever the expressions for value and context are. -/
def Readable (slot : Slot) : Prop :=
  ∀ value context, ∃ text, (slot.fromParam value context).result = .ok text

variable {registry : Registry} {slot : Slot}

/-- Every function that a converter notes is one that conversions call. -/
theorem fromJson_runs (known : slot.Known registry) {value context : String} :
    ∀ i ∈ (slot.fromJson value context).notes, registry.Runs i := by
  intro i hi
  rcases ((slot.fromJson_spec value context).2 i).mp hi with reads | guards
  · exact .of_reads slot.codec.checks_subset known reads
  · exact .of_guards guards

theorem toJson_runs (known : slot.Known registry) {value : String} :
    ∀ i ∈ (slot.toJson value).notes, registry.Runs i := by
  intro i hi
  rcases (slot.toJson_spec value).2 i hi with writes | guards
  · exact .of_writes slot.codec.checks_subset known writes
  · exact .of_guards guards

theorem fromParam_runs (known : slot.Known registry) {value context : String} :
    ∀ i ∈ (slot.fromParam value context).notes, registry.Runs i := by
  intro i hi
  rcases slot.fromParam_notes value context i hi with reads | guards
  · exact .of_readsParam known reads
  · exact .of_guards guards

theorem fromJson_delivers (known : slot.Known registry) (value context : String) :
    Noted.Delivers registry.Supplies (fun _ => True) (slot.fromJson value context) := by
  obtain ⟨⟨text, ht⟩, -⟩ := slot.fromJson_spec value context
  exact ⟨text, ht, trivial, fun i hi => .runs (fromJson_runs known i hi)⟩

theorem toJson_delivers (known : slot.Known registry) (value : String) :
    Noted.Delivers registry.Supplies (fun _ => True) (slot.toJson value) := by
  obtain ⟨⟨text, ht⟩, -⟩ := slot.toJson_spec value
  exact ⟨text, ht, trivial, fun i hi => .runs (toJson_runs known i hi)⟩

theorem fromParam_delivers (known : slot.Known registry) (readable : slot.Readable)
    (value context : String) :
    Noted.Delivers registry.Supplies (fun _ => True) (slot.fromParam value context) := by
  obtain ⟨text, ht⟩ := readable value context
  exact ⟨text, ht, trivial, fun i hi => .runs (fromParam_runs known i hi)⟩

end Slot

/-- A slot that resolves refers to registered components only, and imports their types. -/
theorem resolveSlot_yields {registry : Registry} {place : Place} {schema : Value}
    {required : Bool} :
    Noted.Yields registry.Supplies (Slot.Known registry)
      (resolveSlot registry place schema required) := by
  intro slot h
  obtain ⟨notes, known⟩ := resolveSlot_resolvesTo slot h
  refine ⟨known, fun i hi => ?_⟩
  obtain ⟨name, hn, rfl⟩ := (notes i).mp hi
  exact .type (known name hn)

end TypedApi
