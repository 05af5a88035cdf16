import TypedApi.Proofs.Schema.ParameterText
import TypedApi.Proofs.Schema.Splicing

/-! # Where values are converted

A value is converted on its way to JSON exactly if a date, a moment or a component is reached from
its schema: anything else is its own JSON form (`Slot.printers_exact`).  What converts it is a tree
of combinators, one for each list, map and choice on the way, with the call of a printer at its
leaves (`Conversion`).  The tree has one leaf for each schema that has a printer, at the same place
(`Codec.Written.calls`), so that no combinator leaves out what stands below it.
-/
namespace TypedApi

/-! ## Trees of combinators -/

mutual

/-- How an expression writes a value as JSON, combinator by combinator. -/
inductive Conversion where
  /-- The value is its own JSON form. -/
  | itself
  /-- A function of its own writes the value. -/
  | call (printer : String)
  /-- The items of a list are written. -/
  | items (item : Conversion)
  /-- The values of a map are written. -/
  | values (value : Conversion)
  /-- The first of some alternatives that the value passes for is written. -/
  | first (alternatives : List Alternative)

/-- An alternative: how it is written, and the pieces of what checks that it is the right one. -/
inductive Alternative where
  | mk (check : Reading) (conversion : Conversion)

end

mutual

/-- The expression that writes a value. -/
def Conversion.text : Conversion → (value : String) → String
  | .itself, value => value
  | .call printer, value => printer ++ "(" ++ value ++ ")"
  | .items item, value => value ++ ".map(" ++ printerFunction (item.text itemValue) ++ ")"
  | .values inner, value =>
    "printMap(" ++ value ++ ", " ++ printerFunction (inner.text itemValue) ++ ")"
  | .first alternatives, value =>
    "printFirst(" ++ value ++ ", [" ++ Text.commaList (alternativeTexts alternatives) ++ "])"

/-- The arrow function that writes an alternative. What was converted is checked afterwards. -/
def Alternative.text : Alternative → String
  | .mk check .itself => printerFunction (check.text itemValue emptyContext)
  | .mk check conversion =>
    printerFunction ("\x7b const json = " ++ conversion.text itemValue ++ "; "
      ++ check.text "json" emptyContext ++ "; return json; \x7d")

/-- The arrow functions that write some alternatives. -/
def alternativeTexts : List Alternative → List String
  | [] => []
  | alternative :: rest => alternative.text :: alternativeTexts rest

end

/-- Calls inside a combinator, where `step` leads to what it goes through. -/
def Conversion.inside (step : String) (calls : List (Place × String)) : List (Place × String) :=
  calls.map fun call => (step :: call.1, call.2)

mutual

/-- The printers that are called, each with the steps to the part that it writes: the combinators
around the call, from the outermost one on. -/
def Conversion.calls : Conversion → List (Place × String)
  | .itself => []
  | .call printer => [([], printer)]
  | .items item => Conversion.inside "items" item.calls
  | .values inner => Conversion.inside "additionalProperties" inner.calls
  | .first alternatives => alternativeCalls 0 alternatives

/-- The printers that an alternative calls. -/
def Alternative.calls : Alternative → List (Place × String)
  | .mk _ conversion => conversion.calls

/-- The printers that some alternatives call, of which the first has the given index. -/
def alternativeCalls (index : Nat) : List Alternative → List (Place × String)
  | [] => []
  | alternative :: rest =>
    Conversion.inside ("oneOf[" ++ toString index ++ "]") alternative.calls
      ++ alternativeCalls (index + 1) rest

end

/-! ## The printers of a codec -/

namespace Codec

/-- The function that writes the values of a codec by itself. -/
def printer? : Codec → Option String
  | .date => some "printDate"
  | .dateTime => some "printDateTime"
  | .enumeration name => some name.validator
  | .object name _ => some name.printer
  | _ => none

/-- The printer of a part, with the steps that lead to the part. -/
def partPrinter? (part : Place × Codec) : Option (Place × String) :=
  part.2.printer?.map (Prod.mk part.1)

/-- The printers of all parts of a codec. -/
def printers (codec : Codec) : List (Place × String) := codec.nodes.filterMap partPrinter?

/-- The printers of all parts of some alternatives, of which the first has the given index. -/
def optionPrinters (index : Nat) (options : List Codec) : List (Place × String) :=
  (optionNodes index options).filterMap partPrinter?

theorem mem_printers {codec : Codec} {path : Place} {printer : String} :
    (path, printer) ∈ codec.printers ↔
      ∃ part, (path, part) ∈ codec.nodes ∧ part.printer? = some printer := by
  simp [printers, partPrinter?, List.mem_filterMap]

theorem filterMap_below (step : String) (parts : List (Place × Codec)) :
    (parts.map fun part => (step :: part.1, part.2)).filterMap partPrinter? =
      Conversion.inside step (parts.filterMap partPrinter?) := by
  rw [Conversion.inside, List.filterMap_map, List.map_filterMap]
  refine List.filterMap_congr fun part _ => ?_
  simp [partPrinter?, Function.comp_def]

theorem printers_array (item : Codec) :
    (Codec.array item).printers = Conversion.inside "items" item.printers :=
  filterMap_below "items" item.nodes

theorem printers_map (value : Codec) (place : Place) :
    (Codec.map value place).printers = Conversion.inside "additionalProperties" value.printers :=
  filterMap_below "additionalProperties" value.nodes

theorem printers_union (options : List Codec) :
    (Codec.union options).printers = optionPrinters 0 options := rfl

theorem optionPrinters_cons (index : Nat) (option : Codec) (rest : List Codec) :
    optionPrinters index (option :: rest) =
      Conversion.inside ("oneOf[" ++ toString index ++ "]") option.printers
        ++ optionPrinters (index + 1) rest := by
  rw [optionPrinters, optionNodes, List.filterMap_append, filterMap_below]
  rfl

mutual

/-- A codec converts exactly if some part of it has a printer. -/
theorem hasPrinter_eq : ∀ codec : Codec,
    codec.hasPrinter = codec.nodes.any fun part => part.2.printer?.isSome
  | .boolean | .number _ | .text _ | .date | .dateTime | .enumeration _ | .object _ _ => rfl
  | .union options => by
    rw [hasPrinter, nodes, List.any_cons, anyPrinter_eq 0 options]
    rfl
  | .array item => by
    rw [hasPrinter, nodes, List.any_cons, List.any_map, hasPrinter_eq item]
    rfl
  | .map value _ => by
    rw [hasPrinter, nodes, List.any_cons, List.any_map, hasPrinter_eq value]
    rfl

theorem anyPrinter_eq (index : Nat) : ∀ options : List Codec,
    anyPrinter options = (optionNodes index options).any fun part => part.2.printer?.isSome
  | [] => rfl
  | option :: rest => by
    rw [anyPrinter, optionNodes, List.any_append, List.any_map, hasPrinter_eq option,
      anyPrinter_eq (index + 1) rest]
    rfl

end

theorem hasPrinter_iff {codec : Codec} :
    codec.hasPrinter = true ↔
      ∃ path part printer, (path, part) ∈ codec.nodes ∧ part.printer? = some printer := by
  rw [hasPrinter_eq, List.any_eq_true]
  constructor
  · rintro ⟨⟨path, part⟩, listed, own⟩
    obtain ⟨printer, own⟩ := Option.isSome_iff_exists.mp own
    exact ⟨path, part, printer, listed, own⟩
  · rintro ⟨path, part, printer, listed, own⟩
    exact ⟨(path, part), listed, Option.isSome_iff_exists.mpr ⟨printer, own⟩⟩

/-- Without a conversion there is nothing to call. -/
theorem printers_eq_nil {codec : Codec} (kept : codec.hasPrinter = false) :
    codec.printers = [] := by
  refine List.eq_nil_iff_forall_not_mem.mpr fun ⟨path, printer⟩ listed => ?_
  obtain ⟨part, member, own⟩ := mem_printers.mp listed
  rw [hasPrinter_iff.mpr ⟨path, part, printer, member, own⟩] at kept
  cases kept

/-! ## What is written with a tree of combinators -/

/-- The expression that writes the values of a codec comes from a tree of combinators, which calls
the printers of the parts of the codec where they stand. -/
structure Written (codec : Codec) (s : Splice) (conversion : Conversion) : Prop where
  fits : s.Fits codec
  text : ∀ value, s.writing.text value = conversion.text value
  kept : conversion = .itself ↔ s.writing.converts = false
  calls : conversion.calls = codec.printers

/-- The alternatives of a choice are written one by one. -/
structure WrittenEach (options : List Codec) (splices : List Splice)
    (alternatives : List Alternative) : Prop where
  fits : List.Forall₂ Splice.Fits splices options
  texts : alternativeTexts alternatives = splices.map fun s => printerFunction s.checked
  calls : ∀ index, alternativeCalls index alternatives = optionPrinters index options

section Written
variable {codec item : Codec} {s : Splice} {conversion : Conversion}

/-- A codec that does not convert leaves the value as it is. -/
theorem written_kept (fits : s.Fits codec) (kept : codec.hasPrinter = false) :
    Written codec s .itself := by
  have unconverted : s.writing.converts = false := fits.converts.symm.trans kept
  refine ⟨fits, fun value => ?_, iff_of_true rfl unconverted, (printers_eq_nil kept).symm⟩
  rw [converts_eq_false_iff.mp unconverted]
  rfl

/-- A combinator converts. -/
theorem kept_iff_of_printed (fits : s.Fits codec) (printed : codec.hasPrinter = true)
    (combined : conversion ≠ .itself) :
    conversion = .itself ↔ s.writing.converts = false := by
  rw [← fits.converts, printed]
  exact iff_of_false combined (by simp)

/-- A codec that has a printer of its own calls it. -/
theorem written_printed {check printer : String}
    (fits : (Splice.plain codec.typeName check [] (.call printer [])).Fits codec)
    (calls : codec.printers = [([], printer)]) :
    Written codec (.plain codec.typeName check [] (.call printer [])) (.call printer) :=
  ⟨fits, fun value => Splice.callText_one printer value,
    kept_iff_of_printed fits fits.converts (by simp), calls.symm⟩

theorem Written.array (h : Written item s conversion) :
    ∃ whole, Written (.array item) s.array whole := by
  cases printed : item.hasPrinter with
  | false => exact ⟨.itself, written_kept h.fits.array printed⟩
  | true =>
    have writing : s.array.writing = .map s.printer := by
      rw [Splice.array_writing, if_pos (h.fits.converts.symm.trans printed)]
    refine ⟨.items conversion, h.fits.array, fun value => ?_,
      kept_iff_of_printed h.fits.array printed (by simp), ?_⟩
    · rw [writing, Writing.text_map, Splice.printer, h.text]
      rfl
    · rw [Conversion.calls, h.calls, printers_array]

theorem Written.map (h : Written item s conversion) (place : Place) :
    ∃ whole, Written (.map item place) s.map whole := by
  cases printed : item.hasPrinter with
  | false => exact ⟨.itself, written_kept (h.fits.map place) printed⟩
  | true =>
    have writing : s.map.writing = .call "printMap" [s.printer] := by
      rw [Splice.map_writing, if_pos (h.fits.converts.symm.trans printed)]
    refine ⟨.values conversion, h.fits.map place, fun value => ?_,
      kept_iff_of_printed (h.fits.map place) printed (by simp), ?_⟩
    · rw [writing, Writing.text_call, Splice.callText_two, Splice.printer, h.text,
        Conversion.text]
      simp only [String.append_assoc]
      rfl
    · rw [Conversion.calls, h.calls, printers_map]

theorem WrittenEach.union {options : List Codec} {splices : List Splice}
    {alternatives : List Alternative} (h : WrittenEach options splices alternatives) :
    ∃ whole, Written (.union options) (.union splices) whole := by
  cases printed : (Codec.union options).hasPrinter with
  | false => exact ⟨.itself, written_kept (.union h.fits) printed⟩
  | true =>
    have writing : (Splice.union splices).writing =
        .call "printFirst" [Splice.listed (alternativeTexts alternatives)] := by
      rw [Splice.union_writing, if_pos ((Splice.anyPrinter_eq h.fits).symm.trans printed), h.texts]
    refine ⟨.first alternatives, .union h.fits, fun value => ?_,
      kept_iff_of_printed (.union h.fits) printed (by simp), ?_⟩
    · rw [writing, Writing.text_call, Splice.callText_two, Splice.listed, Conversion.text]
      simp only [String.append_assoc]
      rfl
    · rw [Conversion.calls, h.calls, printers_union]

/-- An alternative is checked behind its conversion, or only checked if it needs none. -/
theorem Written.alternative_text (h : Written codec s conversion) :
    (Alternative.mk s.reading conversion).text = printerFunction s.checked := by
  unfold Splice.checked
  cases converts : s.writing.converts with
  | false =>
    rw [h.kept.mpr converts]
    rfl
  | true =>
    have some_ : conversion ≠ .itself := fun kept => by
      rw [h.kept.mp kept] at converts
      cases converts
    rw [if_pos rfl, h.text, Alternative.text]
    exact some_

end Written

mutual

/-- **Every codec has a tree of combinators.** -/
theorem exists_written : ∀ codec : Codec, ∃ s conversion, Written codec s conversion
  | .boolean => ⟨_, _, written_kept (Splice.fits_kept _ "validateBoolean" rfl fun _ _ => rfl) rfl⟩
  | .number true =>
    ⟨_, _, written_kept (Splice.fits_kept _ "validateInteger" rfl fun _ _ => rfl) rfl⟩
  | .number false =>
    ⟨_, _, written_kept (Splice.fits_kept _ "validateNumber" rfl fun _ _ => rfl) rfl⟩
  | .text limits => ⟨_, _, written_kept (Splice.fits_text limits) rfl⟩
  | .date => ⟨_, _, written_printed
      (Splice.fits_printed .date "validateDate" "printDate" rfl (fun _ _ => rfl) fun _ => rfl) rfl⟩
  | .dateTime => ⟨_, _, written_printed
      (Splice.fits_printed .dateTime "validateDateTime" "printDateTime" rfl (fun _ _ => rfl)
        fun _ => rfl) rfl⟩
  | .enumeration name => ⟨_, _, written_printed
      (Splice.fits_printed (.enumeration name) name.validator name.validator rfl (fun _ _ => rfl)
        fun _ => rfl) rfl⟩
  | .object name place => ⟨_, _, written_printed
      (Splice.fits_printed (.object name place) name.validator name.printer rfl (fun _ _ => rfl)
        fun _ => rfl) rfl⟩
  | .union options =>
    have ⟨_, _, each⟩ := exists_writtenEach options
    have ⟨whole, written⟩ := each.union
    ⟨_, whole, written⟩
  | .array item =>
    have ⟨_, _, own⟩ := exists_written item
    have ⟨whole, written⟩ := own.array
    ⟨_, whole, written⟩
  | .map value place =>
    have ⟨_, _, own⟩ := exists_written value
    have ⟨whole, written⟩ := own.map place
    ⟨_, whole, written⟩

theorem exists_writtenEach : ∀ options : List Codec,
    ∃ splices alternatives, WrittenEach options splices alternatives
  | [] => ⟨[], [], .nil, rfl, fun _ => rfl⟩
  | option :: rest => by
    obtain ⟨s, conversion, own⟩ := exists_written option
    obtain ⟨splices, alternatives, later⟩ := exists_writtenEach rest
    refine ⟨s :: splices, .mk s.reading conversion :: alternatives, .cons own.fits later.fits, ?_,
      fun index => ?_⟩
    · rw [alternativeTexts, own.alternative_text, later.texts]
      rfl
    · rw [alternativeCalls, Alternative.calls, own.calls, later.calls, optionPrinters_cons]

end

end Codec

/-! ## Schemas -/

/-- Values of the schema differ from their JSON form or have to be checked to be written: they are
dates or moments, or those of a component. -/
def TakesPrinter (place : Place) (schema : Value) : Prop :=
  classify place schema = .ok .date ∨ classify place schema = .ok .dateTime ∨
    ∃ text name, classify place schema = .ok (.reference text name)

/-- The function that writes the values of a schema by itself. -/
inductive PrintedBy (registry : Registry) (place : Place) (schema : Value) : String → Prop
  | date (h : classify place schema = .ok .date) : PrintedBy registry place schema "printDate"
  | dateTime (h : classify place schema = .ok .dateTime) :
      PrintedBy registry place schema "printDateTime"
  | object {text : String} {name : Identifier}
      (h : classify place schema = .ok (.reference text name))
      (known : registry.kind? name.upperCamel = some .object) :
      PrintedBy registry place schema ("print" ++ name.upperCamel)
  /-- A value of an enumeration is its own JSON form, so that it is only checked. -/
  | enumeration {text : String} {name : Identifier}
      (h : classify place schema = .ok (.reference text name))
      (known : registry.kind? name.upperCamel = some .enumeration) :
      PrintedBy registry place schema ("validate" ++ name.upperCamel)

section Schemas
variable {registry : Registry} {place : Place} {schema : Value} {codec : Codec}

theorem PrintedBy.takesPrinter {printer : String} (h : PrintedBy registry place schema printer) :
    TakesPrinter place schema := by
  cases h with
  | date h => exact .inl h
  | dateTime h => exact .inr (.inl h)
  | object h _ | enumeration h _ => exact .inr (.inr ⟨_, _, h⟩)

/-- A codec has the printer of its schema. -/
theorem printer?_of_resolve (h : (resolve registry place schema).result = .ok codec)
    {printer : String} :
    codec.printer? = some printer ↔ PrintedBy registry place schema printer := by
  obtain ⟨shape, found, heads⟩ := heads_of_resolve h
  constructor
  · intro own
    cases heads with
    | date => cases own; exact .date found
    | dateTime => cases own; exact .dateTime found
    | object known => cases own; exact .object found known
    | enumeration known => cases own; exact .enumeration found known
    | _ => cases own
  · intro own
    cases own with
    | date h => cases found.symm.trans h; cases heads; rfl
    | dateTime h => cases found.symm.trans h; cases heads; rfl
    | object h known =>
      cases found.symm.trans h
      cases heads with
      | object _ => rfl
      | enumeration other => cases known.symm.trans other
    | enumeration h known =>
      cases found.symm.trans h
      cases heads with
      | enumeration _ => rfl
      | object other => cases known.symm.trans other

/-- What takes a printer has one: a reference that resolves is to a component of some kind. -/
theorem exists_printedBy (h : (resolve registry place schema).result = .ok codec)
    (takes : TakesPrinter place schema) : ∃ printer, PrintedBy registry place schema printer := by
  rcases takes with date | dateTime | ⟨text, name, reference⟩
  · exact ⟨_, .date date⟩
  · exact ⟨_, .dateTime dateTime⟩
  · obtain ⟨shape, found, heads⟩ := heads_of_resolve h
    cases found.symm.trans reference
    cases heads with
    | object known => exact ⟨_, .object reference known⟩
    | enumeration known => exact ⟨_, .enumeration reference known⟩

/-- The printers of a codec are those of the schemas that are reached, each at its place. -/
theorem mem_printers_of_resolve (h : (resolve registry place schema).result = .ok codec)
    {path : Place} {printer : String} :
    (path, printer) ∈ codec.printers ↔
      ∃ node, Schema.Reaches schema path node ∧
        PrintedBy registry (place ++ path) node printer := by
  rw [Codec.mem_printers]
  constructor
  · rintro ⟨part, listed, own⟩
    obtain ⟨node, reached, resolved⟩ := exists_reaches_of_part h listed
    exact ⟨node, reached, (printer?_of_resolve resolved).mp own⟩
  · rintro ⟨node, reached, printed⟩
    obtain ⟨part, listed, resolved⟩ := exists_part_of_reaches h reached
    exact ⟨part, listed, (printer?_of_resolve resolved).mpr printed⟩

theorem hasPrinter_of_resolve (h : (resolve registry place schema).result = .ok codec) :
    codec.hasPrinter = true ↔
      ∃ path node, Schema.Reaches schema path node ∧ TakesPrinter (place ++ path) node := by
  rw [Codec.hasPrinter_iff]
  constructor
  · rintro ⟨path, part, printer, listed, own⟩
    obtain ⟨node, reached, resolved⟩ := exists_reaches_of_part h listed
    exact ⟨path, node, reached, ((printer?_of_resolve resolved).mp own).takesPrinter⟩
  · rintro ⟨path, node, reached, takes⟩
    obtain ⟨part, listed, resolved⟩ := exists_part_of_reaches h reached
    obtain ⟨printer, printed⟩ := exists_printedBy resolved takes
    exact ⟨path, part, printer, listed, (printer?_of_resolve resolved).mpr printed⟩

namespace Slot

/-- **Values are converted exactly where they have to be.**  A slot converts if and only if a date,
a moment or a reference is reached from its schema.  If it does not, the expression that writes a
value is the text of the value, and nothing is imported for it.  If it does, the expression is that
of a tree of combinators, behind a guard if the value may be absent, and the calls at the leaves of
the tree are those of the printers of all schemas reached that have one: each stands inside the
combinators that the steps to its schema tell. -/
theorem printers_exact {required : Bool} {slot : Slot}
    (h : (resolveSlot registry place schema required).result = .ok slot) :
    (slot.hasPrinter = true ↔
      ∃ path node, Schema.Reaches schema path node ∧ TakesPrinter (place ++ path) node) ∧
    (slot.hasPrinter = false → ∀ value imports,
      (slot.toJson value).into imports = .ok (value, imports)) ∧
    (slot.hasPrinter = true → ∃ conversion : Conversion,
      (∀ value, (slot.toJson value).result =
        .ok (guardedText required value (conversion.text value))) ∧
      (∀ path node, Schema.Reaches schema path node → TakesPrinter (place ++ path) node →
        ∃ printer, PrintedBy registry (place ++ path) node printer ∧
          (path, printer) ∈ conversion.calls) ∧
      ∀ path printer, (path, printer) ∈ conversion.calls →
        ∃ node, Schema.Reaches schema path node ∧
          PrintedBy registry (place ++ path) node printer) := by
  obtain ⟨codec, resolved, h⟩ := Noted.bind_eq_ok.mp h
  cases h
  refine ⟨hasPrinter_of_resolve resolved, fun kept value imports => ?_, fun printed => ?_⟩
  · rw [toJson_eq, kept]
    rfl
  · obtain ⟨s, conversion, written⟩ := codec.exists_written
    refine ⟨conversion, fun value => ?_, fun path node reached takes => ?_,
      fun path printer called => ?_⟩
    · rw [toJson_eq, if_pos printed, Noted.bind_of_ok (written.fits.converted printed value),
        written.text]
      exact guardedIfOptional_result ⟨codec, required⟩ value _
    · obtain ⟨part, -, inner⟩ := exists_part_of_reaches resolved reached
      obtain ⟨printer, own⟩ := exists_printedBy inner takes
      rw [written.calls]
      exact ⟨printer, own, (mem_printers_of_resolve resolved).mpr ⟨node, reached, own⟩⟩
    · rw [written.calls] at called
      exact (mem_printers_of_resolve resolved).mp called

/-- A day, a number or an owner. -/
def entry : Value :=
  .map [(.text "oneOf", .list
    [.map [(.text "type", .text "string"), (.text "format", .text "date")],
     .map [(.text "type", .text "integer")], owner])]

/-- Lists of entries by name. -/
def log : Value :=
  .map [(.text "type", .text "object"), (.text "additionalProperties",
    .map [(.text "type", .text "array"), (.text "items", entry)])]

/-- The owners of a log are written, although they stand below a map, a list and a choice. -/
theorem printers_exact_log :
    ∃ slot, (resolveSlot ⟨[("Owner", .object)]⟩ ["Visit", "log"] log false).result = .ok slot ∧
      slot.hasPrinter = true ∧ ∃ conversion : Conversion,
        (∀ value, (slot.toJson value).result =
          .ok (guardedText false value (conversion.text value))) ∧
        ∃ printer, PrintedBy ⟨[("Owner", .object)]⟩
            ["Visit", "log", "additionalProperties", "items", "oneOf[2]"] owner printer ∧
          (["additionalProperties", "items", "oneOf[2]"], printer) ∈ conversion.calls := by
  obtain ⟨slot, resolved⟩ := Except.exists_of_isOk (show
    (resolveSlot ⟨[("Owner", .object)]⟩ ["Visit", "log"] log false).result.isOk = true by
      decide +kernel)
  have values : ("additionalProperties", .map [(.text "type", .text "array"),
      (.text "items", entry)]) ∈ Schema.below log := by
    simp [log, Schema.below, Schema.alternatives, Schema.memberStep, Members.get?, optionSteps]
  have item : ("items", entry) ∈ Schema.below (.map [(.text "type", .text "array"),
      (.text "items", entry)]) := by
    simp [Schema.below, Schema.memberStep, Members.get?]
  have option : ("oneOf[2]", owner) ∈ Schema.below entry := by
    simp [entry, Schema.below, Schema.alternatives, Members.get?, optionSteps,
      show "oneOf[" ++ Nat.repr 2 ++ "]" = "oneOf[2]" from rfl]
  have reached : Schema.Reaches log ["additionalProperties", "items", "oneOf[2]"] owner :=
    .there values (.there item (.there option .here))
  have takes : TakesPrinter ["Visit", "log", "additionalProperties", "items", "oneOf[2]"] owner :=
    .inr (.inr ⟨"#/components/schemas/Owner", _, rfl⟩)
  obtain ⟨converts, -, calls⟩ := printers_exact resolved
  have printed := converts.mpr ⟨_, _, reached, takes⟩
  obtain ⟨conversion, written, each, -⟩ := calls printed
  exact ⟨slot, resolved, printed, conversion, written, each _ _ reached takes⟩

/-- The call of the printer stands inside the functions of the map, the list and the choice. -/
example : (resolveSlot ⟨[("Owner", .object)]⟩ ["Visit", "log"] log false).result.toOption.map
      (fun slot => (slot.toJson "log").result.toOption) =
    some (some ("isUndefined(log) ? undefined : printMap(log, (x) => x.map((x) => printFirst(x, ["
      ++ "(x) => \x7b const json = printDate(x); validateDate(json, []); return json; \x7d, "
      ++ "(x) => validateInteger(x, []), "
      ++ "(x) => \x7b const json = printOwner(x); validateOwner(json, []); return json; \x7d])))"))
    := by
  decide +kernel

end Slot
end Schemas
end TypedApi
