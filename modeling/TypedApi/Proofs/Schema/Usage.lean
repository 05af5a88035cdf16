import TypedApi.Proofs.Code.Import
import TypedApi.Proofs.Naming.Casing
import TypedApi.Proofs.Schema.Imports
import TypedApi.Proofs.Schema.Words

/-! # Conversions import what they use

Resolving a schema notes the components of the static type, and each converter notes the functions
that its expression calls.  Read off the texts, nothing that is used is missing and nothing that is
noted is unused, whichever converters are called and however often (`usage_exact`).
-/
namespace TypedApi
open Code (IsWord wordsBefore opens)

/-! ## Exact imports -/

/-- No name that counts is called in the text. -/
def Silent (counts : String → Prop) (text : String) : Prop :=
  ∀ n ∈ wordsBefore opens text, ¬counts n

/-- Of the names that count, those noted are those that the outcome calls. -/
def Exact (counts : String → Prop) {α : Type} (calls : α → List String) (x : Emission α) : Prop :=
  ∀ a, x.result = .ok a → ∀ n, counts n → (n ∈ x.notes.map (·.name) ↔ n ∈ calls a)

/-- The words that are called in some texts. -/
def callsOf (texts : List String) : List String := texts.flatMap (wordsBefore opens)

section Exact
variable {counts : String → Prop} {value context : String}

theorem Silent.mem_iff {text n : String} (h : Silent counts text) (hn : counts n) :
    n ∈ wordsBefore opens text ↔ False :=
  ⟨fun hm => h n hm hn, False.elim⟩

theorem Silent.comma {first second : String} (hf : Silent counts first)
    (hs : Silent counts second) : Silent counts (first ++ ", " ++ second) := by
  intro n hn
  rw [calls_comma, List.mem_append] at hn
  exact hn.elim (hf n) (hs n)

theorem Silent.limits {text : String} (h : Silent counts text) (limits : TextLimits) :
    Silent counts (text ++ limits.argument) := by
  intro n hn
  rw [calls_limits] at hn
  exact h n hn

theorem silent_of_nil {text : String} (h : wordsBefore opens text = []) : Silent counts text :=
  fun n hn => by
    rw [h] at hn
    cases hn

theorem silent_itemValue : Silent counts itemValue := silent_of_nil (by decide)

theorem silent_itemContext : Silent counts itemContext := silent_of_nil (by decide)

theorem silent_emptyContext : Silent counts emptyContext := silent_of_nil (by decide)

/-- A call notes the function and calls it. -/
theorem exact_call {i : Code.Import} {arguments : String} (hw : IsWord i.name)
    (ha : Silent counts arguments) :
    Exact counts (wordsBefore opens) (do
      Noted.note i
      return i.name ++ "(" ++ arguments ++ ")") := by
  intro text h n hn
  cases h
  show n ∈ [i.name] ↔ _
  rw [Code.calls_call hw, List.mem_cons, List.mem_cons, ha.mem_iff hn]
  simp

theorem exact_callHelper {name arguments : String} (hw : IsWord name)
    (ha : Silent counts arguments) :
    Exact counts (wordsBefore opens) (callHelper name arguments) :=
  exact_call (i := Code.Import.helper name) hw ha

theorem exact_callExport {name : Identifier} {function arguments : String} (hw : IsWord function)
    (ha : Silent counts arguments) :
    Exact counts (wordsBefore opens) (callExport name function arguments) :=
  exact_call (i := name.export function) hw ha

/-- The helpers of collections call the reader of an item. -/
theorem Exact.collection {x : Emission String} (hx : Exact counts (wordsBefore opens) x)
    {name : String} (hw : IsWord name) (hv : Silent counts value) (hc : Silent counts context) :
    Exact counts (wordsBefore opens) (x >>= fun reader =>
      callHelper name (value ++ ", " ++ readerFunction reader ++ ", " ++ context)) := by
  intro text h n hn
  obtain ⟨reader, hr, h⟩ := Noted.bind_eq_ok.mp h
  cases h
  rw [Code.calls_call hw, calls_comma, calls_comma, calls_readerFunction,
    Noted.notes_bind_of_ok hr, List.map_append, List.mem_append, hx reader hr n hn]
  simp [hv.mem_iff hn, hc.mem_iff hn, Code.Import.helper, or_comm]

/-- The helper for choices calls the readers of the alternatives. -/
theorem Exact.first {x : Emission (List String)} (hx : Exact counts callsOf x) {type : String}
    (ht : Silent counts type) (hv : Silent counts value) (hc : Silent counts context) :
    Exact counts (wordsBefore opens) (do
      Noted.note (Code.Import.helper "validateFirst")
      let readers ← x
      return "validateFirst<" ++ type ++ ">(" ++ value ++ ", [" ++ Text.commaList readers
        ++ "], " ++ context ++ ")") := by
  intro text h n hn
  obtain ⟨_, hnote, h⟩ := Noted.bind_eq_ok.mp h
  obtain ⟨readers, hr, h⟩ := Noted.bind_eq_ok.mp h
  cases h
  have inner := hx readers hr n hn
  rw [Noted.notes_bind_of_ok hnote, Noted.notes_bind_of_ok hr, calls_first]
  simp only [List.mem_cons, List.mem_append, ht.mem_iff hn, hv.mem_iff hn, hc.mem_iff hn,
    show n ∈ readers.flatMap (wordsBefore opens) ↔ _ from inner.symm]
  simp [Code.Import.helper]

theorem exact_pure {α : Type} {calls : α → List String} {a : α} (silent : calls a = []) :
    Exact counts calls (pure a) := by
  intro b h n _
  cases h
  rw [silent]
  rfl

theorem exact_nil : Exact counts callsOf (pure [] : Emission (List String)) := exact_pure rfl

theorem exact_fail {α : Type} {calls : α → List String} {e : Failure} :
    Exact counts calls (.fail e) := by
  intro a h
  cases h

/-- Reading the items of a list from the text of a URL calls the reader of an item. -/
theorem Exact.paramArray {x : Emission String} (hx : Exact counts (wordsBefore opens) x)
    (hv : Silent counts value) (hc : Silent counts context) :
    Exact counts (wordsBefore opens) (do
      Noted.note (Code.Import.helper "validateParamArray")
      let reader ← x
      return "validateParamArray(" ++ value ++ ", " ++ readerFunction reader ++ ", " ++ context
        ++ ")") := by
  intro text h n hn
  obtain ⟨_, hnote, h⟩ := Noted.bind_eq_ok.mp h
  obtain ⟨reader, hr, h⟩ := Noted.bind_eq_ok.mp h
  cases h
  have inner := hx reader hr n hn
  rw [Noted.notes_bind_of_ok hnote, Noted.notes_bind_of_ok hr, calls_paramArray,
    calls_readerFunction]
  simp only [List.mem_cons, List.mem_append, hv.mem_iff hn, hc.mem_iff hn, ← inner]
  simp [Code.Import.helper]

/-- What is done to a result does not matter as long as it calls the same. -/
theorem Exact.wrap {α β : Type} {p : α → List String} {q : β → List String} {x : Emission α}
    (hx : Exact counts p x) {f : α → β} (same : ∀ a, q (f a) = p a) :
    Exact counts q (x >>= fun a => pure (f a)) := by
  intro b h n hn
  obtain ⟨a, ha, h⟩ := Noted.bind_eq_ok.mp h
  cases h
  rw [Noted.notes_bind_of_ok ha, Noted.pure_notes, List.append_nil, same]
  exact hx a ha n hn

/-- Two parts call what each of them calls. -/
theorem Exact.both {α β γ : Type} {p : α → List String} {q : β → List String}
    {r : γ → List String} {x : Emission α} {y : Emission β} (hx : Exact counts p x)
    (hy : Exact counts q y) {f : α → β → γ} (same : ∀ a b, r (f a b) = p a ++ q b) :
    Exact counts r (do
      let a ← x
      let b ← y
      return f a b) := by
  intro c h n hn
  obtain ⟨a, ha, h⟩ := Noted.bind_eq_ok.mp h
  obtain ⟨b, hb, h⟩ := Noted.bind_eq_ok.mp h
  cases h
  rw [Noted.notes_bind_of_ok ha, Noted.notes_bind_of_ok hb, Noted.pure_notes, List.append_nil,
    List.map_append, List.mem_append, same, List.mem_append, hx a ha n hn, hy b hb n hn]

/-- A list of functions calls what the first and the others call. -/
theorem Exact.cons {x : Emission String} {y : Emission (List String)}
    (hx : Exact counts (wordsBefore opens) x) (hy : Exact counts callsOf y)
    {function : String → String}
    (hf : ∀ text, wordsBefore opens (function text) = wordsBefore opens text) :
    Exact counts callsOf (do
      let first ← x
      let rest ← y
      return function first :: rest) :=
  hx.both hy fun first rest => by
    rw [callsOf, List.flatMap_cons, hf]
    rfl

end Exact

/-! ## Converters -/

section Converters
variable {counts : String → Prop} {value context : String}

namespace Codec

/-- The names of a method of collections and of types do not count. -/
def Spares (counts : String → Prop) : Prop := ∀ word ∈ "map" :: generics, ¬counts word

theorem silent_typeName (spares : Spares counts) {codec : Codec}
    (spelled : Spelled codec.references) : Silent counts codec.typeName := fun word hw =>
  spares word (List.mem_cons_of_mem _ (codec.calls_typeName spelled word hw))

-- The induction is on the codec.  Inside a collection the item is read from the arguments of an
-- arrow function, which call nothing, so that the hypothesis on value and context stays true.
mutual

theorem fromJson_exact (spares : Spares counts) : ∀ (codec : Codec) {value context : String},
    Spelled codec.references → Silent counts value → Silent counts context →
    Exact counts (wordsBefore opens) (codec.fromJson value context)
  | .boolean, _, _, _, hv, hc | .number true, _, _, _, hv, hc | .number false, _, _, _, hv, hc
  | .date, _, _, _, hv, hc | .dateTime, _, _, _, hv, hc =>
    exact_callHelper (by decide) (hv.comma hc)
  | .text limits, _, _, _, hv, hc => exact_callHelper (by decide) ((hv.comma hc).limits limits)
  | .enumeration _, _, _, h, hv, hc | .object _ _, _, _, h, hv, hc =>
    exact_callExport (validator_isWord h.word) (hv.comma hc)
  | .union options, _, _, h, hv, hc =>
    (jsonReaders_exact spares options h).first (silent_typeName spares h) hv hc
  | .array item, _, _, h, hv, hc =>
    (item.fromJson_exact spares h silent_itemValue silent_itemContext).collection (by decide) hv hc
  | .map item _, _, _, h, hv, hc =>
    (item.fromJson_exact spares h silent_itemValue silent_itemContext).collection (by decide) hv hc

theorem jsonReaders_exact (spares : Spares counts) : ∀ options : List Codec,
    Spelled (allReferences options) → Exact counts callsOf (jsonReaders options)
  | [], _ => exact_nil
  | option :: rest, h =>
    (option.fromJson_exact spares h.left silent_itemValue silent_itemContext).cons
      (jsonReaders_exact spares rest h.right) calls_readerFunction

end

mutual

theorem fromParam_exact (spares : Spares counts) : ∀ (codec : Codec) {value context : String},
    Spelled codec.references → Silent counts value → Silent counts context →
    Exact counts (wordsBefore opens) (codec.fromParam value context)
  | .boolean, _, _, _, hv, hc | .number true, _, _, _, hv, hc | .number false, _, _, _, hv, hc
  | .date, _, _, _, hv, hc | .dateTime, _, _, _, hv, hc =>
    exact_callHelper (by decide) (hv.comma hc)
  | .text limits, _, _, _, hv, hc => exact_callHelper (by decide) ((hv.comma hc).limits limits)
  | .enumeration _, _, _, h, hv, hc =>
    exact_callExport (validator_isWord h.word) (hv.comma hc)
  | .object _ _, _, _, _, _, _ | .map _ _, _, _, _, _, _ => exact_fail
  | .union options, _, _, h, hv, hc =>
    (paramReaders_exact spares options h).first (silent_typeName spares h) hv hc
  | .array item, _, _, h, hv, hc =>
    (item.fromParam_exact spares h silent_itemValue silent_itemContext).paramArray hv hc

theorem paramReaders_exact (spares : Spares counts) : ∀ options : List Codec,
    Spelled (allReferences options) → Exact counts callsOf (paramReaders options)
  | [], _ => exact_nil
  | option :: rest, h =>
    (option.fromParam_exact spares h.left silent_itemValue silent_itemContext).cons
      (paramReaders_exact spares rest h.right) calls_readerFunction

end

/-- The conversion of an alternative calls what the conversion and the check call. -/
theorem checkedPrinter_exact (spares : Spares counts) {option : Codec}
    (spelled : Spelled option.references)
    (hx : Exact counts (wordsBefore opens) (option.converted itemValue)) :
    Exact counts (wordsBefore opens) option.checkedPrinter := by
  rw [checkedPrinter]
  split
  · have check := option.fromJson_exact spares spelled
      (silent_of_nil (show wordsBefore opens "json" = [] by decide)) silent_emptyContext
    exact hx.both check calls_checked
  · exact option.fromJson_exact spares spelled silent_itemValue silent_emptyContext

mutual

theorem converted_exact (spares : Spares counts) : ∀ (codec : Codec) {value : String},
    Spelled codec.references → Silent counts value →
    Exact counts (wordsBefore opens) (codec.converted value)
  | .boolean, _, _, _ | .number _, _, _, _ | .text _, _, _, _ => exact_fail
  | .date, _, _, hv | .dateTime, _, _, hv => exact_callHelper (by decide) hv
  | .enumeration _, _, h, hv => exact_callExport (validator_isWord h.word) hv
  | .object _ _, _, h, hv => exact_callExport (printer_isWord h.word) hv
  | .union options, value, h, hv => by
    intro text ht n hn
    obtain ⟨_, hnote, ht⟩ := Noted.bind_eq_ok.mp ht
    obtain ⟨printers, hp, ht⟩ := Noted.bind_eq_ok.mp ht
    cases ht
    have inner := checkedPrinters_exact spares options h printers hp n hn
    rw [converted, Noted.notes_bind_of_ok hnote, Noted.notes_bind_of_ok hp, calls_printFirst]
    simp only [List.mem_cons, List.mem_append, hv.mem_iff hn,
      show n ∈ printers.flatMap (wordsBefore opens) ↔ _ from inner.symm]
    simp [Code.Import.helper]
  | .array item, value, h, hv => by
    rw [converted]
    split
    · intro text ht n hn
      obtain ⟨printer, hp, ht⟩ := Noted.bind_eq_ok.mp ht
      cases ht
      have inner := item.converted_exact spares h silent_itemValue printer hp n hn
      -- the method of the list is called but not imported, and does not count
      have notMap : n ≠ "map" := fun same => spares "map" List.mem_cons_self (same ▸ hn)
      rw [Noted.notes_bind_of_ok hp, calls_map, calls_printerFunction]
      simp only [List.mem_cons, List.mem_append, hv.mem_iff hn, ← inner, notMap, false_or]
      simp
    · intro text ht
      cases ht
  | .map item _, value, h, hv => by
    rw [converted]
    split
    · intro text ht n hn
      obtain ⟨printer, hp, ht⟩ := Noted.bind_eq_ok.mp ht
      cases ht
      have inner := item.converted_exact spares h silent_itemValue printer hp n hn
      rw [Noted.notes_bind_of_ok hp, Code.calls_call (by decide), calls_comma,
        calls_printerFunction]
      simp only [List.mem_cons, List.mem_append, hv.mem_iff hn, ← inner, false_or]
      simp [Code.Import.helper, or_comm]
    · intro text ht
      cases ht

theorem checkedPrinters_exact (spares : Spares counts) : ∀ options : List Codec,
    Spelled (allReferences options) → Exact counts callsOf (checkedPrinters options)
  | [], _ => exact_nil
  | option :: rest, h => by
    rw [checkedPrinters_cons]
    have own := option.converted_exact spares h.left silent_itemValue
    exact (checkedPrinter_exact spares h.left own).cons (checkedPrinters_exact spares rest h.right)
      calls_printerFunction

end

end Codec

/-- A slot adds the call of the guard, and its import, to the expression of its codec. -/
theorem Exact.optional {x : Emission String} (hx : Exact counts (wordsBefore opens) x)
    (slot : Slot) (hv : Silent counts value) :
    Exact counts (wordsBefore opens) (x >>= slot.guardedIfOptional value) := by
  intro text h n hn
  obtain ⟨expression, he, h⟩ := Noted.bind_eq_ok.mp h
  have inner := hx expression he n hn
  rw [Noted.notes_bind_of_ok he, List.map_append, List.mem_append, inner]
  unfold Slot.guardedIfOptional at h ⊢
  by_cases required : slot.required = true
  · rw [if_pos required] at h ⊢
    cases h
    simp
  · rw [if_neg required] at h ⊢
    cases h
    rw [calls_guarded, List.mem_cons, List.mem_append, hv.mem_iff hn]
    simp [Code.Import.helper, or_comm]

end Converters

/-! ## Uses of a slot -/

/-- A call of one of the converters of a slot. -/
inductive Use where
  | fromJson (value context : String)
  | fromParam (value context : String)
  | toJson (value : String)

namespace Use

/-- The texts that the caller passes. -/
def inputs : Use → List String
  | .fromJson value context | .fromParam value context => [value, context]
  | .toJson value => [value]

/-- The expression that the call returns. -/
def expression (slot : Slot) : Use → Emission String
  | .fromJson value context => slot.fromJson value context
  | .fromParam value context => slot.fromParam value context
  | .toJson value => slot.toJson value

variable {counts : String → Prop} {slot : Slot}

theorem expression_exact (spares : Codec.Spares counts) (spelled : Codec.Spelled slot.references)
    (use : Use) (silent : ∀ input ∈ use.inputs, Silent counts input) :
    Exact counts (wordsBefore opens) (use.expression slot) := by
  cases use with
  | fromJson value context =>
    have hv := silent value List.mem_cons_self
    have hc := silent context (List.mem_cons_of_mem value List.mem_cons_self)
    exact (slot.codec.fromJson_exact spares spelled hv hc).optional slot hv
  | fromParam value context =>
    have hv := silent value List.mem_cons_self
    have hc := silent context (List.mem_cons_of_mem value List.mem_cons_self)
    exact (slot.codec.fromParam_exact spares spelled hv hc).optional slot hv
  | toJson value =>
    have hv := silent value List.mem_cons_self
    rw [expression, Slot.toJson_eq]
    split
    · exact (slot.codec.converted_exact spares spelled hv).optional slot hv
    · -- the value itself: nothing is noted and nothing is called
      intro text h n hn
      cases h
      rw [hv.mem_iff hn]
      simp

theorem expression_runs {registry : Registry} (known : slot.Known registry) (use : Use) :
    ∀ i ∈ (use.expression slot).notes, registry.Runs i := by
  cases use with
  | fromJson value context => exact Slot.fromJson_runs known
  | fromParam value context => exact Slot.fromParam_runs known
  | toJson value => exact Slot.toJson_runs known

end Use

/-- The expressions of some calls, in order. -/
def Slot.expressions (slot : Slot) (uses : List Use) : Emission (List String) :=
  uses.mapM fun use => use.expression slot

section Expressions
variable {counts : String → Prop} {slot : Slot}

theorem expressions_exact (spares : Codec.Spares counts) (spelled : Codec.Spelled slot.references)
    {uses : List Use} (silent : ∀ use ∈ uses, ∀ input ∈ use.inputs, Silent counts input) :
    Exact counts callsOf (slot.expressions uses) := by
  induction uses with
  | nil => exact exact_nil
  | cons use rest ih =>
    obtain ⟨own, later⟩ := List.forall_mem_cons.mp silent
    rw [Slot.expressions, List.mapM_cons]
    exact (use.expression_exact spares spelled own).cons (ih later) fun _ => rfl

theorem expressions_runs {registry : Registry} (known : slot.Known registry) (uses : List Use) :
    ∀ i ∈ (slot.expressions uses).notes, registry.Runs i := by
  induction uses with
  | nil => exact List.forall_mem_nil _
  | cons use rest ih =>
    intro i hi
    rw [Slot.expressions, List.mapM_cons] at hi
    rcases Noted.mem_notes_bind.mp hi with hi | ⟨_, -, hi⟩
    · exact use.expression_runs known i hi
    · rcases Noted.mem_notes_bind.mp hi with hi | ⟨_, -, hi⟩
      · exact ih i hi
      · cases hi

end Expressions

/-! ## Registries -/

/-- The name of a helper, or of the validator or the printer of a registered component. -/
inductive Registry.RuntimeName (registry : Registry) : String → Prop where
  | helper {name : String} (h : name ∈ Support.helpers.map (·.name)) : RuntimeName registry name
  | validator {typeName : String} {kind : ComponentKind}
      (h : registry.kind? typeName = some kind) : RuntimeName registry ("validate" ++ typeName)
  | printer {typeName : String} {kind : ComponentKind}
      (h : registry.kind? typeName = some kind) : RuntimeName registry ("print" ++ typeName)

section Registry
variable {registry : Registry}

/-- What conversions call has the name of a function of the runtime. -/
theorem Registry.Runs.name {i : Code.Import} (h : registry.Runs i) :
    registry.RuntimeName i.name := by
  cases h with
  | helper hn => exact .helper (conversionHelpers_subset _ hn)
  | validator known =>
    obtain ⟨kind, registered⟩ := known.registered
    exact .validator registered
  | printer known =>
    obtain ⟨kind, registered⟩ := known.registered
    exact .printer registered

theorem Registry.spares_runtimeName : Codec.Spares registry.RuntimeName := by
  have helpers : ∀ word ∈ "map" :: Codec.generics, word ∉ Support.helpers.map (·.name) := by
    decide +kernel
  have heads : ∀ word ∈ "map" :: Codec.generics, word.toList.head? ≠ some 'v' ∧
      word.toList.head? ≠ some 'p' := by decide +kernel
  intro word hw named
  cases named with
  | helper hn => exact helpers word hw hn
  | validator _ => exact (heads _ hw).1 (by simp)
  | printer _ => exact (heads _ hw).2 (by simp)

/-- The type names of registered components are words. -/
theorem spelled_of_known {names : List Identifier} (h : ∀ name ∈ names, registry.Knows name) :
    Codec.Spelled names := by
  intro name hn
  obtain ⟨reference, spelled⟩ := (h name hn).referable
  obtain ⟨raw, hr⟩ := Identifier.ofHumped_of_parseReference spelled
  obtain ⟨cs, -, rfl, accepted⟩ := Identifier.ofHumped_eq_ok hr
  obtain ⟨c, rest, split, -⟩ := Identifier.upperCamel_start accepted
  refine ⟨fun empty => ?_, (Identifier.plain_of_parseReference spelled).nameParts⟩
  rw [split] at empty
  cases empty

end Registry

/-- Resolves the schema at `place` and calls some converters of the slot. -/
def usage (registry : Registry) (place : Place) (schema : Value) (required : Bool)
    (uses : List Use) : Emission (Slot × List String) := do
  let slot ← resolveSlot registry place schema required
  let texts ← slot.expressions uses
  return (slot, texts)

/-- The names imported are the components in the static type and the functions of the runtime that
the expressions call.  All other words of the static type are built-in types. -/
structure ImportsUsed (registry : Registry) (slot : Slot) (texts : List String)
    (imports : Code.ImportSet) : Prop where
  words : ∀ word, word ∈ Code.words slot.typeName ↔
    (∃ component ∈ slot.references, word = component.upperCamel) ∨ word ∈ slot.builtins
  names : ∀ name, name ∈ imports.names ↔
    (∃ component ∈ slot.references, name = component.upperCamel) ∨
      registry.RuntimeName name ∧ ∃ text ∈ texts, name ∈ Code.calls text

/-- **Imports are exact.**  After resolving a schema and any sequence of calls of the converters,
nothing that is used is missing and nothing that is imported is unused. -/
theorem usage_exact {registry : Registry} {place : Place} {schema : Value} {required : Bool}
    {uses : List Use} {slot : Slot} {texts : List String}
    (h : (usage registry place schema required uses).result = .ok (slot, texts))
    (silent : ∀ use ∈ uses, ∀ input ∈ use.inputs, ∀ n ∈ Code.calls input,
      ¬registry.RuntimeName n) (folder : Option Code.Folder) :
    ImportsUsed registry slot texts ((Code.ImportSet.empty folder).addAll
      (usage registry place schema required uses).notes) := by
  unfold usage at h ⊢
  obtain ⟨resolved, hs, h⟩ := Noted.bind_eq_ok.mp h
  obtain ⟨returned, hr, h⟩ := Noted.bind_eq_ok.mp h
  cases h
  obtain ⟨types, known⟩ := resolveSlot_resolvesTo slot hs
  have spelled := spelled_of_known known
  refine ⟨slot.mem_words_typeName spelled, fun name => ?_⟩
  -- a name that is no function of the runtime is not noted by a converter, whoever calls it
  have called : ∀ name, registry.RuntimeName name →
      ((∃ i ∈ (slot.expressions uses).notes, i.name = name) ↔
        ∃ text ∈ texts, name ∈ Code.calls text) := by
    intro name runtime
    rw [← List.mem_map, expressions_exact Registry.spares_runtimeName spelled silent texts hr name
      runtime]
    exact List.mem_flatMap
  rw [Code.ImportSet.mem_names_addAll, Noted.notes_bind_of_ok hs, Noted.notes_bind_of_ok hr,
    Noted.pure_notes, List.append_nil]
  constructor
  · rintro ⟨i, hi, rfl⟩
    rcases List.mem_append.mp hi with hi | hi
    · obtain ⟨component, hc, rfl⟩ := (types i).mp hi
      exact .inl ⟨component, hc, rfl⟩
    · have runtime := (expressions_runs known uses i hi).name
      exact .inr ⟨runtime, (called i.name runtime).mp ⟨i, hi, rfl⟩⟩
  · rintro (⟨component, hc, rfl⟩ | ⟨runtime, hn⟩)
    · exact ⟨_, List.mem_append_left _ ((types _).mpr ⟨component, hc, rfl⟩), rfl⟩
    · obtain ⟨i, hi, same⟩ := (called name runtime).mpr hn
      exact ⟨i, List.mem_append_right _ hi, same⟩

/-- A choice between a component and a list of days. -/
def ownerOrDays : Value :=
  let owner := Value.map [(.text "$ref", .text "#/components/schemas/Owner")]
  let day := Value.map [(.text "type", .text "string"), (.text "format", .text "date")]
  let days := Value.map [(.text "type", .text "array"), (.text "items", day)]
  .map [(.text "oneOf", .list [owner, days])]

theorem usage_exact_ownerOrDays :
    ∃ slot texts,
      (usage ⟨[("Owner", .object)]⟩ ["Pet", "seen"] ownerOrDays false
        [.fromJson "value" "[]", .toJson "value"]).result = .ok (slot, texts) ∧
      ImportsUsed ⟨[("Owner", .object)]⟩ slot texts ((Code.ImportSet.empty (some .model)).addAll
        (usage ⟨[("Owner", .object)]⟩ ["Pet", "seen"] ownerOrDays false
          [.fromJson "value" "[]", .toJson "value"]).notes) := by
  obtain ⟨⟨slot, texts⟩, h⟩ := Except.exists_of_isOk
    (show (usage ⟨[("Owner", .object)]⟩ ["Pet", "seen"] ownerOrDays false
      [.fromJson "value" "[]", .toJson "value"]).result.isOk = true by decide +kernel)
  have none : ∀ use ∈ [Use.fromJson "value" "[]", .toJson "value"], ∀ input ∈ use.inputs,
      Code.calls input = [] := by decide +kernel
  refine ⟨slot, texts, h, usage_exact h (fun use hu input hi n hn => ?_) (some .model)⟩
  rw [none use hu input hi] at hn
  cases hn

end TypedApi
