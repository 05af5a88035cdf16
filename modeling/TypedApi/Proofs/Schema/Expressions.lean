import TypedApi.Proofs.Schema.References
import TypedApi.Schema.Conversion

/-! # Conversion expressions succeed

Reading JSON and writing a value that needs a conversion always yield an expression, and reading
the text of a URL yields one unless a part of the codec is an object or a map
(`fromParam_cases`).  Which expression is built depends on the texts of value and context, but
whether one is built does not, and neither do the imports that it notes.
-/
namespace TypedApi

@[simp] theorem callHelper_result (name arguments : String) :
    (callHelper name arguments).result = .ok (name ++ "(" ++ arguments ++ ")") := rfl

@[simp] theorem callHelper_notes (name arguments : String) :
    (callHelper name arguments).notes = [Code.Import.helper name] := rfl

@[simp] theorem callExport_result (name : Identifier) (function arguments : String) :
    (callExport name function arguments).result = .ok (function ++ "(" ++ arguments ++ ")") := rfl

@[simp] theorem callExport_notes (name : Identifier) (function arguments : String) :
    (callExport name function arguments).notes = [name.export function] := rfl

@[simp] theorem guarded_result (value expression : String) :
    (guarded value expression).result =
      .ok ("isUndefined(" ++ value ++ ") ? undefined : " ++ expression) := rfl

@[simp] theorem guarded_notes (value expression : String) :
    (guarded value expression).notes = [Code.Import.helper "isUndefined"] := rfl

/-! ## Reading JSON -/

namespace Codec

/-- The imports for the given checks and for checking the given components. -/
def Reads (checks : List String) (names : List Identifier) (i : Code.Import) : Prop :=
  (∃ check ∈ checks, i = Code.Import.helper ("validate" ++ check)) ∨
    ∃ name ∈ names, i = name.export name.validator

@[simp] theorem reads_nil {i : Code.Import} : Reads [] [] i ↔ False := by
  simp [Reads]

@[simp] theorem reads_cons {check : String} {checks : List String} {names : List Identifier}
    {i : Code.Import} :
    Reads (check :: checks) names i ↔
      i = Code.Import.helper ("validate" ++ check) ∨ Reads checks names i := by
  simp [Reads, or_assoc]

@[simp] theorem reads_reference {name : Identifier} {i : Code.Import} :
    Reads [] [name] i ↔ i = name.export name.validator := by
  simp [Reads]

theorem reads_append {checks others : List String} {names rest : List Identifier}
    {i : Code.Import} :
    Reads (checks ++ others) (names ++ rest) i ↔ Reads checks names i ∨ Reads others rest i := by
  simp only [Reads, List.mem_append, or_and_right, exists_or]
  constructor
  · rintro ((h | h) | (h | h))
    · exact .inl (.inl h)
    · exact .inr (.inl h)
    · exact .inl (.inr h)
    · exact .inr (.inr h)
  · rintro ((h | h) | (h | h))
    · exact .inl (.inl h)
    · exact .inr (.inl h)
    · exact .inl (.inr h)
    · exact .inr (.inr h)

mutual

/-- Every codec reads JSON, with one import for each check of its parts. -/
theorem fromJson_spec : ∀ (codec : Codec) (value context : String),
    ∃ text, (codec.fromJson value context).result = .ok text ∧
      ∀ i, i ∈ (codec.fromJson value context).notes ↔ Reads codec.checks codec.references i
  | .boolean, _, _ | .number true, _, _ | .number false, _, _ | .text _, _, _ | .date, _, _
  | .dateTime, _, _ | .enumeration _, _, _ | .object _ _, _, _ =>
    ⟨_, rfl, by simp [fromJson, checks, references]⟩
  | .union options, _, _ => by
    obtain ⟨readers, hr, notes⟩ := jsonReaders_spec options
    rw [fromJson, Noted.bind_of_ok (Noted.note_result _), Noted.bind_of_ok hr]
    exact ⟨_, rfl, fun i => by simp [notes, checks, references]⟩
  | .array item, _, _ => by
    obtain ⟨reader, hr, notes⟩ := item.fromJson_spec itemValue itemContext
    rw [fromJson, Noted.bind_of_ok hr]
    exact ⟨_, rfl, fun i => by simp [notes, checks, references, or_comm]⟩
  | .map value _, _, _ => by
    obtain ⟨reader, hr, notes⟩ := value.fromJson_spec itemValue itemContext
    rw [fromJson, Noted.bind_of_ok hr]
    exact ⟨_, rfl, fun i => by simp [notes, checks, references, or_comm]⟩

/-- All alternatives read JSON, with one import for each check of their parts. -/
theorem jsonReaders_spec : ∀ options : List Codec,
    ∃ texts, (jsonReaders options).result = .ok texts ∧
      ∀ i, i ∈ (jsonReaders options).notes ↔ Reads (allChecks options) (allReferences options) i
  | [] => ⟨[], rfl, by simp [jsonReaders, allChecks, allReferences]⟩
  | option :: rest => by
    obtain ⟨reader, hr, notes⟩ := option.fromJson_spec itemValue itemContext
    obtain ⟨readers, hrs, later⟩ := jsonReaders_spec rest
    rw [jsonReaders, Noted.bind_of_ok hr, Noted.bind_of_ok hrs]
    exact ⟨_, rfl, fun i => by simp [notes, later, allChecks, allReferences, reads_append]⟩

end

/-! ## Reading the text of a URL -/

mutual

/-- The first part of a codec that has no written form in a URL. -/
def unreadable? : Codec → Option ParameterFault
  | .object name place => some (.object place name.upperCamel)
  | .union options => anyUnreadable? options
  | .array item => item.unreadable?
  | .map _ place => some (.map place)
  | _ => none

/-- The first part of some alternatives that has no written form in a URL. -/
def anyUnreadable? : List Codec → Option ParameterFault
  | [] => none
  | option :: rest => option.unreadable?.or (anyUnreadable? rest)

end

/-- Either nothing in the way of reading was found and reading succeeds, or it fails with the
fault that was found. -/
def ReadingAgrees {α : Type} (fault? : Option ParameterFault) (x : Emission α) : Prop :=
  (fault? = none ∧ ∃ a, x.result = .ok a) ∨
    ∃ fault, fault? = some fault ∧ x.result = .error (.parameter fault)

mutual

/-- The text of a URL is read unless some part has no written form, and then the first such part
is reported; neither depends on the texts of value and context. -/
theorem fromParam_cases : ∀ (codec : Codec) (value context : String),
    ReadingAgrees codec.unreadable? (codec.fromParam value context)
  | .boolean, _, _ | .number true, _, _ | .number false, _, _ | .text _, _, _ | .date, _, _
  | .dateTime, _, _ | .enumeration _, _, _ => .inl ⟨rfl, _, rfl⟩
  | .object _ _, _, _ | .map _ _, _, _ => .inr ⟨_, rfl, rfl⟩
  | .union options, _, _ => by
    rw [fromParam, Noted.bind_of_ok (Noted.note_result _)]
    rcases paramReaders_cases options with ⟨readable, readers, hr⟩ | ⟨fault, unreadable, hr⟩
    · rw [Noted.bind_of_ok hr]
      exact .inl ⟨readable, _, rfl⟩
    · rw [Noted.bind_of_error hr]
      exact .inr ⟨fault, unreadable, rfl⟩
  | .array item, _, _ => by
    rw [fromParam, Noted.bind_of_ok (Noted.note_result _)]
    rcases item.fromParam_cases itemValue itemContext with
      ⟨readable, reader, hr⟩ | ⟨fault, unreadable, hr⟩
    · rw [Noted.bind_of_ok hr]
      exact .inl ⟨readable, _, rfl⟩
    · rw [Noted.bind_of_error hr]
      exact .inr ⟨fault, unreadable, rfl⟩

theorem paramReaders_cases : ∀ options : List Codec,
    ReadingAgrees (anyUnreadable? options) (paramReaders options)
  | [] => .inl ⟨rfl, [], rfl⟩
  | option :: rest => by
    rw [paramReaders, anyUnreadable?]
    rcases option.fromParam_cases itemValue itemContext with
      ⟨readable, reader, hr⟩ | ⟨fault, unreadable, hr⟩
    · rw [Noted.bind_of_ok hr, readable, Option.none_or]
      rcases paramReaders_cases rest with ⟨readable', readers, hrs⟩ | ⟨fault, unreadable, hrs⟩
      · rw [Noted.bind_of_ok hrs]
        exact .inl ⟨readable', _, rfl⟩
      · rw [Noted.bind_of_error hrs]
        exact .inr ⟨fault, unreadable, rfl⟩
    · rw [Noted.bind_of_error hr, unreadable]
      exact .inr ⟨fault, rfl, rfl⟩

end

/-- One successful reading stands for all. -/
theorem fromParam_ok_of_ok {codec : Codec} {value context text : String}
    (h : (codec.fromParam value context).result = .ok text) (value' context' : String) :
    ∃ text', (codec.fromParam value' context').result = .ok text' := by
  rcases codec.fromParam_cases value context with ⟨readable, -⟩ | ⟨fault, -, failed⟩
  · rcases codec.fromParam_cases value' context' with ⟨-, read⟩ | ⟨fault, unreadable, -⟩
    · exact read
    · rw [readable] at unreadable
      cases unreadable
  · rw [h] at failed
    cases failed

/-- The checks of plain values that the text of a URL may need, as the names of their helpers. -/
def paramChecks : List String :=
  ["validateBooleanString", "validateIntegerString", "validateNumberString", "validateString",
   "validateDate", "validateDateTime", "validateFirst", "validateParamArray"]

/-- The imports for reading the text of a URL, when it may refer to the given components. -/
def ReadsParam (names : List Identifier) (i : Code.Import) : Prop :=
  (∃ check ∈ paramChecks, i = Code.Import.helper check) ∨
    ∃ name ∈ names, i = name.export name.validator

theorem ReadsParam.of_helper {names : List Identifier} {check : String}
    (h : check ∈ paramChecks) : ReadsParam names (Code.Import.helper check) :=
  .inl ⟨check, h, rfl⟩

theorem ReadsParam.mono {names others : List Identifier} {i : Code.Import}
    (h : ReadsParam names i) (subset : ∀ name ∈ names, name ∈ others) : ReadsParam others i :=
  h.imp_right fun ⟨name, hn, same⟩ => ⟨name, subset name hn, same⟩

mutual

theorem readsParam_of_mem_fromParam : ∀ (codec : Codec) (value context : String) (i : Code.Import),
    i ∈ (codec.fromParam value context).notes → ReadsParam codec.references i
  | .boolean, _, _, i, h | .number true, _, _, i, h | .number false, _, _, i, h
  | .text _, _, _, i, h | .date, _, _, i, h | .dateTime, _, _, i, h => by
    rw [fromParam, callHelper_notes, List.mem_singleton] at h
    exact h ▸ .of_helper (by decide)
  | .enumeration name, _, _, i, h => by
    rw [fromParam, callExport_notes, List.mem_singleton] at h
    exact .inr ⟨name, List.mem_singleton_self name, h⟩
  | .object _ _, _, _, i, h | .map _ _, _, _, i, h => by cases h
  | .union options, _, _, i, h => by
    rw [fromParam, Noted.mem_notes_bind, Noted.note_notes, List.mem_singleton] at h
    rcases h with rfl | ⟨_, -, h⟩
    · exact .of_helper (by decide)
    · rcases Noted.mem_notes_bind.mp h with h | ⟨_, -, h⟩
      · exact readsParam_of_mem_paramReaders options i h
      · cases h
  | .array item, _, _, i, h => by
    rw [fromParam, Noted.mem_notes_bind, Noted.note_notes, List.mem_singleton] at h
    rcases h with rfl | ⟨_, -, h⟩
    · exact .of_helper (by decide)
    · rcases Noted.mem_notes_bind.mp h with h | ⟨_, -, h⟩
      · exact item.readsParam_of_mem_fromParam itemValue itemContext i h
      · cases h

theorem readsParam_of_mem_paramReaders : ∀ (options : List Codec) (i : Code.Import),
    i ∈ (paramReaders options).notes → ReadsParam (allReferences options) i
  | [], i, h => by cases h
  | option :: rest, i, h => by
    rw [paramReaders] at h
    rcases Noted.mem_notes_bind.mp h with h | ⟨_, -, h⟩
    · exact (option.readsParam_of_mem_fromParam itemValue itemContext i h).mono
        fun name hn => List.mem_append_left _ hn
    · rcases Noted.mem_notes_bind.mp h with h | ⟨_, -, h⟩
      · exact (readsParam_of_mem_paramReaders rest i h).mono
          fun name hn => List.mem_append_right _ hn
      · cases h

end

/-! ## Writing JSON -/

/-- The checks whose values have a form of their own in JSON. -/
def printedChecks : List String := ["Date", "DateTime", "First", "Map"]

/-- The imports for writing values with the given checks that may refer to the given
components. -/
def Writes (checks : List String) (names : List Identifier) (i : Code.Import) : Prop :=
  Reads checks names i ∨
    (∃ check ∈ checks, check ∈ printedChecks ∧ i = Code.Import.helper ("print" ++ check)) ∨
    ∃ name ∈ names, i = name.export name.printer

theorem Writes.of_helper {checks : List String} {names : List Identifier} (check : String)
    (h : check ∈ checks) (printed : check ∈ printedChecks) :
    Writes checks names (Code.Import.helper ("print" ++ check)) :=
  .inr (.inl ⟨check, h, printed, rfl⟩)

theorem Writes.mono {checks others : List String} {names rest : List Identifier}
    {i : Code.Import} (h : Writes checks names i) (fewer : ∀ check ∈ checks, check ∈ others)
    (subset : ∀ name ∈ names, name ∈ rest) : Writes others rest i := by
  rcases h with
    (⟨check, hc, same⟩ | ⟨name, hn, same⟩) | ⟨check, hc, printed, same⟩ | ⟨name, hn, same⟩
  · exact .inl (.inl ⟨check, fewer check hc, same⟩)
  · exact .inl (.inr ⟨name, subset name hn, same⟩)
  · exact .inr (.inl ⟨check, fewer check hc, printed, same⟩)
  · exact .inr (.inr ⟨name, subset name hn, same⟩)

/-- The expression that converts a value of one of some alternatives and fails for those of
another. -/
def checkedPrinter (option : Codec) : Emission String :=
  if option.hasPrinter then do
    let printed ← option.converted itemValue
    let check ← option.fromJson "json" emptyContext
    return "\x7b const json = " ++ printed ++ "; " ++ check ++ "; return json; \x7d"
  else option.fromJson itemValue emptyContext

theorem checkedPrinters_cons (option : Codec) (rest : List Codec) :
    checkedPrinters (option :: rest) = do
      let printer ← option.checkedPrinter
      let printers ← checkedPrinters rest
      return printerFunction printer :: printers := by
  rw [checkedPrinters, checkedPrinter]
  split <;> simp only [bind_assoc, pure_bind]

mutual

/-- A value that needs a conversion is converted, with imports for the parts of the codec only. -/
theorem converted_spec : ∀ (codec : Codec) (value : String), codec.hasPrinter = true →
    (∃ text, (codec.converted value).result = .ok text) ∧
      ∀ i ∈ (codec.converted value).notes, Writes codec.checks codec.references i
  | .boolean, _, h | .number _, _, h | .text _, _, h => by cases h
  | .date, _, _ => by
    refine ⟨⟨_, rfl⟩, fun i hi => ?_⟩
    rw [converted, callHelper_notes, List.mem_singleton] at hi
    exact hi ▸ .of_helper "Date" (by decide) (by decide)
  | .dateTime, _, _ => by
    refine ⟨⟨_, rfl⟩, fun i hi => ?_⟩
    rw [converted, callHelper_notes, List.mem_singleton] at hi
    exact hi ▸ .of_helper "DateTime" (by decide) (by decide)
  | .enumeration name, _, _ => by
    refine ⟨⟨_, rfl⟩, fun i hi => ?_⟩
    rw [converted, callExport_notes, List.mem_singleton] at hi
    exact .inl (.inr ⟨name, List.mem_singleton_self name, hi⟩)
  | .object name _, _, _ => by
    refine ⟨⟨_, rfl⟩, fun i hi => ?_⟩
    rw [converted, callExport_notes, List.mem_singleton] at hi
    exact .inr (.inr ⟨name, List.mem_singleton_self name, hi⟩)
  | .union options, _, _ => by
    obtain ⟨⟨printers, hp⟩, writes⟩ := checkedPrinters_spec options
    rw [converted, Noted.bind_of_ok (Noted.note_result _), Noted.bind_of_ok hp]
    refine ⟨⟨_, rfl⟩, fun i hi => ?_⟩
    simp only [Noted.note_notes, Noted.pure_notes, List.append_nil, List.singleton_append,
      List.mem_cons] at hi
    rcases hi with rfl | hi
    · exact .of_helper _ List.mem_cons_self (by decide)
    · exact (writes i hi).mono (fun _ => List.mem_cons_of_mem _) fun _ => id
  | .array item, _, h => by
    obtain ⟨⟨printer, hp⟩, writes⟩ := item.converted_spec itemValue h
    rw [converted, if_pos (show item.hasPrinter = true from h), Noted.bind_of_ok hp]
    refine ⟨⟨_, rfl⟩, fun i hi => ?_⟩
    rw [Noted.pure_notes, List.append_nil] at hi
    exact (writes i hi).mono (fun _ => List.mem_cons_of_mem _) fun _ => id
  | .map item _, _, h => by
    obtain ⟨⟨printer, hp⟩, writes⟩ := item.converted_spec itemValue h
    rw [converted, if_pos (show item.hasPrinter = true from h), Noted.bind_of_ok hp]
    refine ⟨⟨_, rfl⟩, fun i hi => ?_⟩
    rw [callHelper_notes, List.mem_append, List.mem_singleton] at hi
    rcases hi with hi | rfl
    · exact (writes i hi).mono (fun _ => List.mem_cons_of_mem _) fun _ => id
    · exact .of_helper _ List.mem_cons_self (by decide)

/-- The value of an alternative is converted if it has to be, and checked. -/
theorem checkedPrinter_spec (option : Codec) :
    (∃ text, option.checkedPrinter.result = .ok text) ∧
      ∀ i ∈ option.checkedPrinter.notes, Writes option.checks option.references i := by
  rw [checkedPrinter]
  by_cases h : option.hasPrinter = true
  · obtain ⟨⟨printed, hp⟩, writes⟩ := option.converted_spec itemValue h
    obtain ⟨check, hc, notes⟩ := option.fromJson_spec "json" emptyContext
    rw [if_pos h, Noted.bind_of_ok hp, Noted.bind_of_ok hc]
    refine ⟨⟨_, rfl⟩, fun i hi => ?_⟩
    rw [Noted.pure_notes, List.append_nil, List.mem_append] at hi
    exact hi.elim (writes i) fun hi => .inl ((notes i).mp hi)
  · obtain ⟨check, hc, notes⟩ := option.fromJson_spec itemValue emptyContext
    rw [if_neg h]
    exact ⟨⟨check, hc⟩, fun i hi => .inl ((notes i).mp hi)⟩

/-- The values of all alternatives are converted. -/
theorem checkedPrinters_spec : ∀ options : List Codec,
    (∃ texts, (checkedPrinters options).result = .ok texts) ∧
      ∀ i ∈ (checkedPrinters options).notes,
        Writes (allChecks options) (allReferences options) i
  | [] => ⟨⟨[], rfl⟩, fun _ hi => by cases hi⟩
  | option :: rest => by
    obtain ⟨⟨printer, hp⟩, own⟩ := option.checkedPrinter_spec
    obtain ⟨⟨printers, hps⟩, later⟩ := checkedPrinters_spec rest
    rw [checkedPrinters_cons, Noted.bind_of_ok hp, Noted.bind_of_ok hps]
    refine ⟨⟨_, rfl⟩, fun i hi => ?_⟩
    rw [Noted.pure_notes, List.append_nil, List.mem_append] at hi
    rcases hi with hi | hi
    · exact (own i hi).mono (fun _ => List.mem_append_left _) fun _ => List.mem_append_left _
    · exact (later i hi).mono (fun _ => List.mem_append_right _) fun _ => List.mem_append_right _

end

end Codec

/-! ## Slots

An optional slot guards the expression of its codec, and has a guard only where there is an
expression to guard.
-/

/-- The import of the guard that an optional value needs. -/
def Guards (slot : Slot) (i : Code.Import) : Prop :=
  slot.required = false ∧ i = Code.Import.helper "isUndefined"

namespace Slot

/-- The expression of a codec, guarded if the value may be absent. -/
def guardedIfOptional (slot : Slot) (value expression : String) : Emission String :=
  if slot.required then pure expression else guarded value expression

theorem guardedIfOptional_spec (slot : Slot) (value expression : String) :
    (∃ text, (slot.guardedIfOptional value expression).result = .ok text) ∧
      ∀ i, i ∈ (slot.guardedIfOptional value expression).notes ↔ Guards slot i := by
  unfold guardedIfOptional Guards
  cases slot.required <;> simp

theorem fromJson_eq (slot : Slot) (value context : String) :
    slot.fromJson value context =
      slot.codec.fromJson value context >>= slot.guardedIfOptional value := rfl

theorem fromParam_eq (slot : Slot) (value context : String) :
    slot.fromParam value context =
      slot.codec.fromParam value context >>= slot.guardedIfOptional value := rfl

theorem toJson_eq (slot : Slot) (value : String) :
    slot.toJson value =
      if slot.hasPrinter then slot.codec.converted value >>= slot.guardedIfOptional value
      else pure value := rfl

theorem fromJson_spec (slot : Slot) (value context : String) :
    (∃ text, (slot.fromJson value context).result = .ok text) ∧
      ∀ i, i ∈ (slot.fromJson value context).notes ↔
        Codec.Reads slot.codec.checks slot.references i ∨ Guards slot i := by
  obtain ⟨expression, he, notes⟩ := slot.codec.fromJson_spec value context
  obtain ⟨succeeds, guards⟩ := slot.guardedIfOptional_spec value expression
  rw [fromJson_eq, Noted.bind_of_ok he]
  exact ⟨succeeds, fun i => by rw [List.mem_append, notes, guards]; rfl⟩

theorem toJson_spec (slot : Slot) (value : String) :
    (∃ text, (slot.toJson value).result = .ok text) ∧
      ∀ i ∈ (slot.toJson value).notes,
        Codec.Writes slot.codec.checks slot.references i ∨ Guards slot i := by
  rw [toJson_eq]
  by_cases h : slot.hasPrinter = true
  · obtain ⟨⟨expression, he⟩, writes⟩ := slot.codec.converted_spec value h
    obtain ⟨succeeds, guards⟩ := slot.guardedIfOptional_spec value expression
    rw [if_pos h, Noted.bind_of_ok he]
    refine ⟨succeeds, fun i hi => ?_⟩
    exact (List.mem_append.mp hi).imp (writes i) (guards i).mp
  · rw [if_neg h]
    exact ⟨⟨value, rfl⟩, fun i hi => by cases hi⟩

/-- What an optional slot adds does not fail, so that one successful reading stands for all. -/
theorem fromParam_ok_of_ok {slot : Slot} {value context text : String}
    (h : (slot.fromParam value context).result = .ok text) (value' context' : String) :
    ∃ text', (slot.fromParam value' context').result = .ok text' := by
  rw [fromParam_eq] at h
  obtain ⟨expression, he, -⟩ := Noted.bind_eq_ok.mp h
  obtain ⟨expression', he'⟩ := Codec.fromParam_ok_of_ok he value' context'
  rw [fromParam_eq, Noted.bind_of_ok he']
  exact (slot.guardedIfOptional_spec value' expression').1

theorem fromParam_notes (slot : Slot) (value context : String) :
    ∀ i ∈ (slot.fromParam value context).notes,
      Codec.ReadsParam slot.references i ∨ Guards slot i := by
  intro i hi
  rw [fromParam_eq] at hi
  rcases Noted.mem_notes_bind.mp hi with hi | ⟨expression, -, hi⟩
  · exact .inl (slot.codec.readsParam_of_mem_fromParam value context i hi)
  · exact .inr (((slot.guardedIfOptional_spec value expression).2 i).mp hi)

end Slot
end TypedApi
