import TypedApi.Proofs.Code.Arguments
import TypedApi.Proofs.Schema.Layout
import TypedApi.Proofs.Schema.Usage

/-! # What conversion expressions do with the texts that they are given

An expression is spliced from the text of a value, the text of a context and pieces that depend on
the schema alone, neither on the two texts nor on where the schema stands (`exists_splice`).  The
value is the first argument of a call, and the context a further one, or the value stands in front
of a method; what is read or written inside a collection is a piece of its own, an argument beside
them that closes every bracket it opens (`Splice.Closed`).  Neither text gets inside an arrow
function, so that it does not matter that all arrow functions bind the same names.
-/
namespace TypedApi
open Code (IsWord IsArgument IsCallee IsCall Goes callText)

/-! ## Pieces of expressions -/

/-- The pieces of an expression that reads JSON: a function, and what stands between and behind
value and context. -/
structure Reading where
  callee : String
  before : List String
  after : List String

namespace Reading

/-- The arguments of the call that reads a value. -/
def arguments (r : Reading) (value context : String) : List String :=
  value :: (r.before ++ context :: r.after)

/-- The expression that reads a value. -/
def text (r : Reading) (value context : String) : String :=
  callText r.callee (r.arguments value context)

/-- The pieces close what they open. -/
structure Closed (r : Reading) : Prop where
  callee : IsCallee r.callee
  before : ∀ a ∈ r.before, IsArgument a
  after : ∀ a ∈ r.after, IsArgument a

theorem Closed.isCall {r : Reading} (h : r.Closed) {value context : String}
    (hv : IsArgument value) (hc : IsArgument context) :
    IsCall (r.text value context) r.callee (r.arguments value context) := by
  refine ⟨rfl, h.callee, List.forall_mem_cons.mpr ⟨hv, List.forall_mem_append.mpr ⟨h.before, ?_⟩⟩⟩
  exact List.forall_mem_cons.mpr ⟨hc, h.after⟩

end Reading

/-- The pieces of an expression that writes JSON: none for the value itself, those of a call, or
the argument of the method that converts the items of a list. -/
inductive Writing where
  | itself
  | call (callee : String) (after : List String)
  | map (converter : String)

namespace Writing

/-- The expression that writes a value. -/
def text : Writing → (value : String) → String
  | .itself, value => value
  | .call callee after, value => callText callee (value :: after)
  | .map converter, value => value ++ ".map(" ++ converter ++ ")"

/-- Whether the value is converted at all. -/
def converts : Writing → Bool
  | .itself => false
  | _ => true

/-- The pieces close what they open. -/
def Closed : Writing → Prop
  | .itself => True
  | .call callee after => IsCallee callee ∧ ∀ a ∈ after, IsArgument a
  | .map converter => IsArgument converter

theorem Closed.isArgument {w : Writing} (h : w.Closed) {value : String} (hv : IsArgument value) :
    IsArgument (w.text value) := by
  cases w with
  | itself => exact hv
  | call callee after =>
    exact IsCall.isArgument ⟨rfl, h.1, List.forall_mem_cons.mpr ⟨hv, h.2⟩⟩
  | map converter =>
    have opens : Goes [] ".map(" [')'] := by decide
    exact Code.isArgument_enclosed (by simp) (hv.closed.append opens) (h.closed.frame [')'])
      (by decide)

theorem text_call (callee value : String) (after : List String) :
    (call callee after).text value = callText callee (value :: after) := rfl

theorem text_map (converter value : String) :
    (map converter).text value = value ++ ".map(" ++ converter ++ ")" := rfl

end Writing

/-- The pieces of the expressions of a schema. -/
structure Splice where
  type : String
  reading : Reading
  writing : Writing

namespace Splice

/-- The arrow function that reads an item. -/
def reader (s : Splice) : String := readerFunction (s.reading.text itemValue itemContext)

/-- The arrow function that writes an item. -/
def printer (s : Splice) : String := printerFunction (s.writing.text itemValue)

/-- The body of the arrow function that writes a value of one of some alternatives and fails for
those of another. -/
def checked (s : Splice) : String :=
  if s.writing.converts then
    "\x7b const json = " ++ s.writing.text itemValue ++ "; "
      ++ s.reading.text "json" emptyContext ++ "; return json; \x7d"
  else s.reading.text itemValue emptyContext

/-- Several arrow functions as one argument. -/
def listed (functions : List String) : String := "[" ++ Text.commaList functions ++ "]"

/-- The pieces for a plain value that a helper checks. -/
def plain (type check : String) (after : List String) (writing : Writing) : Splice :=
  ⟨type, ⟨check, [], after⟩, writing⟩

/-- The pieces for a list. -/
def array (item : Splice) : Splice where
  type := "ReadonlyArray<" ++ item.type ++ ">"
  reading := ⟨"validateArray", [item.reader], []⟩
  writing := if item.writing.converts then .map item.printer else .itself

/-- The pieces for a map. -/
def map (value : Splice) : Splice where
  type := "Readonly<Record<string, " ++ value.type ++ ">>"
  reading := ⟨"validateMap", [value.reader], []⟩
  writing := if value.writing.converts then .call "printMap" [value.printer] else .itself

/-- The pieces for a choice. -/
def union (options : List Splice) : Splice where
  type := " | ".intercalate (options.map type)
  reading :=
    ⟨"validateFirst<" ++ " | ".intercalate (options.map type) ++ ">",
      [listed (options.map reader)], []⟩
  writing :=
    if options.any (·.writing.converts) then
      .call "printFirst" [listed (options.map fun s => printerFunction s.checked)]
    else .itself

section Equations
variable (item : Splice) (options : List Splice)

theorem array_reading : item.array.reading = ⟨"validateArray", [item.reader], []⟩ := rfl

theorem array_writing :
    item.array.writing = if item.writing.converts then .map item.printer else .itself := rfl

theorem map_reading : item.map.reading = ⟨"validateMap", [item.reader], []⟩ := rfl

theorem map_writing : item.map.writing =
    if item.writing.converts then .call "printMap" [item.printer] else .itself := rfl

theorem union_reading : (union options).reading =
    ⟨"validateFirst<" ++ " | ".intercalate (options.map type) ++ ">",
      [listed (options.map reader)], []⟩ := rfl

theorem union_writing : (union options).writing =
    if options.any (·.writing.converts) then
      .call "printFirst" [listed (options.map fun s => printerFunction s.checked)]
    else .itself := rfl

end Equations

/-! ## The texts of calls -/

theorem callText_one (callee argument : String) :
    callText callee [argument] = callee ++ "(" ++ argument ++ ")" := by
  simp [callText, Text.commaList]

theorem callText_two (callee first second : String) :
    callText callee [first, second] = callee ++ "(" ++ (first ++ ", " ++ second) ++ ")" := by
  simp [callText, Text.commaList]

theorem callText_three (callee first second third : String) :
    callText callee [first, second, third] =
      callee ++ "(" ++ (first ++ ", " ++ second ++ ", " ++ third) ++ ")" := by
  simp [callText, Text.commaList, String.append_assoc]

/-! ## Pieces are closed -/

/-- All pieces close what they open, and the type calls nothing. -/
structure Closed (s : Splice) : Prop where
  type : Goes [] s.type []
  uncalled : '(' ∉ s.type.toList
  reading : s.reading.Closed
  writing : s.writing.Closed

section Closed
variable {s : Splice}

theorem isArgument_reader (h : s.Closed) : IsArgument s.reader := by
  have value : IsArgument itemValue := by decide
  have context : IsArgument itemContext := by decide
  have arrow : Goes [] "(x, context) => " [] := by decide
  exact (h.reading.isCall value context).isArgument.behind arrow

theorem isArgument_printerFunction {expression : String} (h : IsArgument expression) :
    IsArgument (printerFunction expression) := by
  have arrow : Goes [] "(x) => " [] := by decide
  exact h.behind arrow

theorem isArgument_printer (h : s.Closed) : IsArgument s.printer := by
  have item : IsArgument itemValue := by decide
  exact isArgument_printerFunction (h.writing.isArgument item)

theorem isArgument_checked (h : s.Closed) : IsArgument (printerFunction s.checked) := by
  have item : IsArgument itemValue := by decide
  have json : IsArgument "json" := by decide
  have check {value : String} (hv : IsArgument value) :
      IsArgument (s.reading.text value emptyContext) :=
    (h.reading.isCall hv (by decide)).isArgument
  refine isArgument_printerFunction ?_
  unfold checked
  split
  · have opens : Goes [] "\x7b const json = " ['\x7d'] := by decide
    have next : Goes ['\x7d'] "; " ['\x7d'] := by decide
    have closes : Goes ['\x7d'] "; return json; \x7d" [] := by decide
    have printed := (h.writing.isArgument item).closed.frame ['\x7d']
    have body := (printed.append next).append ((check json).closed.frame ['\x7d'])
    have block := Code.isArgument_enclosed (by simp) opens body closes
    simpa only [String.append_assoc] using block
  · exact check item

theorem isArgument_listed {functions : List String} (each : ∀ f ∈ functions, IsArgument f) :
    IsArgument (listed functions) := by
  have opens : Goes [] "[" [']'] := by decide
  exact Code.isArgument_enclosed (by simp) opens (Code.goes_commaList each ']' []) (by decide)

theorem closed_plain {type check : String} {after : List String} {writing : Writing}
    (typed : IsWord type) (checked : IsWord check) (each : ∀ a ∈ after, IsArgument a)
    (written : writing.Closed) : (plain type check after writing).Closed :=
  ⟨Code.goes_of_isWord typed [], typed.notMem, ⟨.name checked, List.forall_mem_nil _, each⟩,
    written⟩

theorem closed_kept {type check : String} (typed : IsWord type) (checked : IsWord check) :
    (plain type check [] .itself).Closed :=
  closed_plain typed checked (List.forall_mem_nil _) trivial

theorem closed_printed {type check printer : String} (typed : IsWord type)
    (checked : IsWord check) (printed : IsWord printer) :
    (plain type check [] (.call printer [])).Closed :=
  closed_plain typed checked (List.forall_mem_nil _) ⟨.name printed, List.forall_mem_nil _⟩

/-- The pieces of a collection, whose only function is that of its items. -/
theorem closed_collection {check function : String} (checked : IsWord check)
    (h : IsArgument function) : Reading.Closed ⟨check, [function], []⟩ :=
  ⟨.name checked, List.forall_mem_singleton.mpr h, List.forall_mem_nil _⟩

theorem closed_array (h : s.Closed) : s.array.Closed := by
  have opens : Goes [] "ReadonlyArray<" ['>'] := by decide
  have closes : Goes ['>'] ">" [] := by decide
  have uncalled : '(' ∉ ("ReadonlyArray<" ++ s.type ++ ">").toList := by simp [h.uncalled]
  refine ⟨(opens.append (h.type.frame ['>'])).append closes, uncalled,
    closed_collection (by decide) (isArgument_reader h), ?_⟩
  unfold array
  split
  · exact isArgument_printer h
  · trivial

theorem closed_map (h : s.Closed) : s.map.Closed := by
  have opens : Goes [] "Readonly<Record<string, " ['>', '>'] := by decide
  have closes : Goes ['>', '>'] ">>" [] := by decide
  have uncalled : '(' ∉ ("Readonly<Record<string, " ++ s.type ++ ">>").toList := by
    simp [h.uncalled]
  refine ⟨(opens.append (h.type.frame ['>', '>'])).append closes, uncalled,
    closed_collection (by decide) (isArgument_reader h), ?_⟩
  unfold map
  split
  · exact ⟨.name (by decide), List.forall_mem_singleton.mpr (isArgument_printer h)⟩
  · trivial

theorem uncalled_union {types : List String} (each : ∀ type ∈ types, '(' ∉ type.toList) :
    '(' ∉ (" | ".intercalate types).toList := by
  induction types with
  | nil => simp
  | cons type rest ih =>
    obtain ⟨own, later⟩ := List.forall_mem_cons.mp each
    cases rest with
    | nil => simpa using own
    | cons next more =>
      rw [String.intercalate_cons_cons, String.toList_append, String.toList_append,
        List.mem_append, List.mem_append]
      simpa [own] using ih later

theorem closed_union {options : List Splice} (each : ∀ s ∈ options, s.Closed) :
    (union options).Closed := by
  have type : Goes [] (" | ".intercalate (options.map Splice.type)) [] :=
    Code.goes_intercalate (by decide) (List.forall_mem_map.mpr fun s hs => (each s hs).type)
  have uncalled : '(' ∉ (" | ".intercalate (options.map Splice.type)).toList :=
    uncalled_union (List.forall_mem_map.mpr fun s hs => (each s hs).uncalled)
  have readers : IsArgument (listed (options.map reader)) :=
    isArgument_listed (List.forall_mem_map.mpr fun s hs => isArgument_reader (each s hs))
  have printers : IsArgument (listed (options.map fun s => printerFunction s.checked)) :=
    isArgument_listed (List.forall_mem_map.mpr fun s hs => isArgument_checked (each s hs))
  refine ⟨type, uncalled, ⟨?_, List.forall_mem_singleton.mpr readers, List.forall_mem_nil _⟩, ?_⟩
  · exact IsCallee.typed (show IsWord "validateFirst" by decide) type uncalled
  · unfold union
    split
    · exact ⟨.name (by decide), List.forall_mem_singleton.mpr printers⟩
    · trivial

end Closed

/-! ## What is written with the pieces -/

/-- The expressions of a codec are spliced from the pieces. -/
structure Fits (s : Splice) (codec : Codec) : Prop where
  type : codec.typeName = s.type
  converts : codec.hasPrinter = s.writing.converts
  fromJson : ∀ value context,
    (codec.fromJson value context).result = .ok (s.reading.text value context)
  converted : codec.hasPrinter = true →
    ∀ value, (codec.converted value).result = .ok (s.writing.text value)

theorem text_between (callee function value context : String) :
    Reading.text ⟨callee, [function], []⟩ value context =
      callText callee [value, function, context] := rfl

theorem converts_ite {converts : Bool} {w : Writing} (h : w.converts = true) :
    (if converts then w else .itself).converts = converts := by
  cases converts
  · rfl
  · exact h

section Fits
variable {s : Splice} {codec : Codec} {splices : List Splice} {options : List Codec}

theorem Fits.array (h : s.Fits codec) : s.array.Fits (.array codec) := by
  refine ⟨congrArg (fun type => "ReadonlyArray<" ++ type ++ ">") h.type,
    h.converts.trans (converts_ite rfl).symm, fun value context => ?_, fun printed value => ?_⟩
  · rw [Codec.fromJson, Noted.bind_of_ok (h.fromJson _ _), callHelper_result, array_reading,
      text_between, callText_three]
    rfl
  · replace printed : codec.hasPrinter = true := printed
    rw [Codec.converted, if_pos printed, Noted.bind_of_ok (h.converted printed _), array_writing,
      if_pos (h.converts.symm.trans printed), Writing.text_map]
    rfl

theorem Fits.map (h : s.Fits codec) (place : Place) : s.map.Fits (.map codec place) := by
  refine ⟨congrArg (fun type => "Readonly<Record<string, " ++ type ++ ">>") h.type,
    h.converts.trans (converts_ite rfl).symm, fun value context => ?_, fun printed value => ?_⟩
  · rw [Codec.fromJson, Noted.bind_of_ok (h.fromJson _ _), callHelper_result, map_reading,
      text_between, callText_three]
    rfl
  · replace printed : codec.hasPrinter = true := printed
    rw [Codec.converted, if_pos printed, Noted.bind_of_ok (h.converted printed _),
      callHelper_result, map_writing, if_pos (h.converts.symm.trans printed), Writing.text_call,
      callText_two]
    rfl

/-- The functions that read the alternatives. -/
theorem jsonReaders_result (h : List.Forall₂ Fits splices options) :
    (Codec.jsonReaders options).result = .ok (splices.map reader) := by
  induction h with
  | nil => rfl
  | cons own _ ih =>
    rw [Codec.jsonReaders, Noted.bind_of_ok (own.fromJson _ _), Noted.bind_of_ok ih]
    rfl

theorem Fits.checked (h : s.Fits codec) : codec.checkedPrinter.result = .ok s.checked := by
  rw [Codec.checkedPrinter, Splice.checked, ← h.converts]
  by_cases printed : codec.hasPrinter = true
  · rw [if_pos printed, if_pos printed, Noted.bind_of_ok (h.converted printed _),
      Noted.bind_of_ok (h.fromJson _ _)]
    rfl
  · rw [if_neg printed, if_neg printed]
    exact h.fromJson _ _

/-- The functions that write the alternatives. -/
theorem checkedPrinters_result (h : List.Forall₂ Fits splices options) :
    (Codec.checkedPrinters options).result =
      .ok (splices.map fun s => printerFunction s.checked) := by
  induction h with
  | nil => rfl
  | cons own _ ih =>
    rw [Codec.checkedPrinters_cons, Noted.bind_of_ok own.checked, Noted.bind_of_ok ih]
    rfl

theorem typeNames_eq (h : List.Forall₂ Fits splices options) :
    Codec.typeNames options = splices.map type := by
  induction h with
  | nil => rfl
  | cons own _ ih => exact congrArg₂ List.cons own.type ih

theorem anyPrinter_eq (h : List.Forall₂ Fits splices options) :
    Codec.anyPrinter options = splices.any (·.writing.converts) := by
  induction h with
  | nil => rfl
  | cons own _ ih => exact congrArg₂ Bool.or own.converts ih

theorem Fits.union (h : List.Forall₂ Fits splices options) :
    (union splices).Fits (.union options) := by
  have seam : ", [" = ", " ++ "[" := rfl
  have typed : (Codec.union options).typeName = " | ".intercalate (splices.map Splice.type) :=
    congrArg (fun types => " | ".intercalate types) (typeNames_eq h)
  refine ⟨typed, (anyPrinter_eq h).trans (converts_ite rfl).symm, fun value context => ?_,
    fun printed value => ?_⟩
  · rw [Codec.fromJson, Noted.bind_of_ok (Noted.note_result _),
      Noted.bind_of_ok (jsonReaders_result h), typed, union_reading, text_between,
      callText_three, seam]
    simp only [listed, String.append_assoc]
    rfl
  · replace printed : Codec.anyPrinter options = true := printed
    rw [Codec.converted, Noted.bind_of_ok (Noted.note_result _),
      Noted.bind_of_ok (checkedPrinters_result h), union_writing,
      if_pos ((anyPrinter_eq h).symm.trans printed), Writing.text_call, callText_two, seam]
    simp only [listed, String.append_assoc]
    rfl

/-! ## Plain values and components -/

/-- The options for the bounds of a text. -/
def limitOptions (limits : TextLimits) : List String :=
  (limits.minLength.map fun n => "minLength: " ++ toString n).toList
    ++ (limits.maxLength.map fun n => "maxLength: " ++ toString n).toList
    ++ (if limits.email then ["email: true"] else [])

/-- The bounds of a text as a further argument, if there are any. -/
def limitArguments (limits : TextLimits) : List String :=
  if (limitOptions limits).isEmpty then []
  else ["\x7b " ++ Text.commaList (limitOptions limits) ++ " \x7d"]

theorem isArgument_limits (limits : TextLimits) : ∀ a ∈ limitArguments limits, IsArgument a := by
  have bound {label : String} (hl : Goes [] label []) {n? : Option Nat} :
      ∀ option ∈ (n?.map fun n => label ++ toString n).toList, IsArgument option := by
    intro option ho
    cases n? with
    | none => cases ho
    | some n =>
      rw [List.mem_singleton.mp ho]
      exact (IsArgument.of_isWord (isWord_toString n)).behind hl
  have options : ∀ option ∈ limitOptions limits, IsArgument option := by
    unfold limitOptions
    refine List.forall_mem_append.mpr
      ⟨List.forall_mem_append.mpr ⟨bound (by decide), bound (by decide)⟩, ?_⟩
    split
    · exact List.forall_mem_singleton.mpr (by decide)
    · exact List.forall_mem_nil _
  unfold limitArguments
  split
  · exact List.forall_mem_nil _
  · have opens : Goes [] "\x7b " ['\x7d'] := by decide
    exact List.forall_mem_singleton.mpr (Code.isArgument_enclosed (by simp) opens
      (Code.goes_commaList options '\x7d' []) (by decide))

/-- The pieces for a text within limits. -/
def text (limits : TextLimits) : Splice :=
  plain "string" "validateString" (limitArguments limits) .itself

theorem closed_text (limits : TextLimits) : (text limits).Closed :=
  closed_plain (by decide) (by decide) (isArgument_limits limits) trivial

theorem argument_eq (limits : TextLimits) (value context : String) :
    value ++ ", " ++ context ++ limits.argument =
      Text.commaList (value :: context :: limitArguments limits) := by
  have whole : limits.argument = if (limitOptions limits).isEmpty then ""
      else ", \x7b " ++ Text.commaList (limitOptions limits) ++ " \x7d" := rfl
  have seam : ", \x7b " = ", " ++ "\x7b " := rfl
  rw [whole, limitArguments]
  split
  · simp [Text.commaList]
  · simp only [Text.commaList, String.intercalate_cons_cons, String.intercalate_singleton, seam,
      String.append_assoc]

theorem fits_text (limits : TextLimits) : (text limits).Fits (.text limits) := by
  refine ⟨rfl, rfl, fun value context => ?_, fun printed => by cases printed⟩
  rw [Codec.fromJson, callHelper_result, argument_eq]
  rfl

/-- A value that is checked and not converted. -/
theorem fits_kept (codec : Codec) (check : String) (kept : codec.hasPrinter = false)
    (read : ∀ value context, (codec.fromJson value context).result =
      .ok (check ++ "(" ++ (value ++ ", " ++ context) ++ ")")) :
    (plain codec.typeName check [] .itself).Fits codec := by
  refine ⟨rfl, kept, fun value context => ?_, fun printed => by simp [kept] at printed⟩
  rw [read, ← callText_two]
  rfl

/-- A value that is checked and converted. -/
theorem fits_printed (codec : Codec) (check printer : String) (printed : codec.hasPrinter = true)
    (read : ∀ value context, (codec.fromJson value context).result =
      .ok (check ++ "(" ++ (value ++ ", " ++ context) ++ ")"))
    (converted : ∀ value, (codec.converted value).result = .ok (printer ++ "(" ++ value ++ ")")) :
    (plain codec.typeName check [] (.call printer [])).Fits codec := by
  refine ⟨rfl, printed, fun value context => ?_, fun _ value => ?_⟩
  · rw [read, ← callText_two]
    rfl
  · rw [converted, ← callText_one]
    rfl

end Fits

end Splice

/-! ## Schemas -/

section Schemas
variable {registry : Registry} {place : Place} {schema : Value}

theorem classify_congr {shape : Shape} (h : classify place schema = .ok shape) (place' : Place) :
    classify place' schema = .ok shape :=
  Schema.classify_eq_ok_iff.mpr (Schema.classify_eq_ok_iff.mp h)

/-- The pieces are those of the codec, wherever the schema stands. -/
def Splice.Suits (registry : Registry) (schema : Value) (s : Splice) : Prop :=
  s.Closed ∧ ∀ place codec, (resolve registry place schema).result = .ok codec → s.Fits codec

/-- A schema without parts, whose codec does not tell where it stands. -/
theorem suits_of_plain {s : Splice} {plain : Codec} (closed : s.Closed) (fits : s.Fits plain)
    (resolved : ∀ place, resolve registry place schema = pure plain) : s.Suits registry schema := by
  refine ⟨closed, fun place codec h => ?_⟩
  rw [resolved] at h
  cases h
  exact fits

/-- The pieces for a component. -/
def Splice.component (name : Identifier) : ComponentKind → Splice
  | .enumeration => .plain name.upperCamel name.validator [] (.call name.validator [])
  | .object => .plain name.upperCamel name.validator [] (.call name.printer [])

/-- A reference has the pieces of the component that it names. -/
theorem suits_of_reference {text : String} {name : Identifier} {kind : ComponentKind}
    (found : classify place schema = .ok (.reference text name))
    (known : registry.kind? name.upperCamel = some kind) :
    (Splice.component name kind).Suits registry schema := by
  have knows : ∀ other ∈ [name], registry.Knows other :=
    List.forall_mem_singleton.mpr ⟨⟨text, parseReference_of_classify found⟩, kind, known⟩
  have word : IsWord name.upperCamel := Codec.Spelled.word (spelled_of_known knows)
  refine ⟨?_, fun place' codec h => ?_⟩
  · cases kind with
    | enumeration =>
      exact Splice.closed_printed word (Codec.validator_isWord word) (Codec.validator_isWord word)
    | object =>
      exact Splice.closed_printed word (Codec.validator_isWord word) (Codec.printer_isWord word)
  · rw [resolve_of_reference (classify_congr found place')] at h
    obtain ⟨kind', known', rfl, -⟩ := resolveReference_eq_ok h
    obtain rfl := Option.some.inj (known.symm.trans known')
    cases kind with
    | enumeration =>
      exact Splice.fits_printed (.enumeration name) name.validator name.validator rfl
        (fun _ _ => rfl) fun _ => rfl
    | object =>
      exact Splice.fits_printed (.object name place') name.validator name.printer rfl
        (fun _ _ => rfl) fun _ => rfl

theorem Splice.Suits.array {s : Splice} {items : Value} (h : s.Suits registry items)
    (found : classify place schema = .ok (.array items)) : s.array.Suits registry schema := by
  refine ⟨closed_array h.1, fun place' codec resolved => ?_⟩
  rw [resolve_of_array (classify_congr found place')] at resolved
  obtain ⟨item, own, resolved⟩ := Noted.bind_eq_ok.mp resolved
  cases resolved
  exact (h.2 _ item own).array

theorem Splice.Suits.map {s : Splice} {values : Value} (h : s.Suits registry values)
    (found : classify place schema = .ok (.map values)) : s.map.Suits registry schema := by
  refine ⟨closed_map h.1, fun place' codec resolved => ?_⟩
  rw [resolve_of_map (classify_congr found place')] at resolved
  obtain ⟨value, own, resolved⟩ := Noted.bind_eq_ok.mp resolved
  cases resolved
  exact (h.2 _ value own).map place'

section Options
variable {splices : List Splice} {options : List Value}

theorem closed_of_suit (h : List.Forall₂ (Splice.Suits registry) options splices) :
    ∀ s ∈ splices, s.Closed := by
  induction h with
  | nil => exact List.forall_mem_nil _
  | cons own _ ih => exact List.forall_mem_cons.mpr ⟨own.1, ih⟩

theorem fit_of_suit (h : List.Forall₂ (Splice.Suits registry) options splices) :
    ∀ place index codecs, (resolveOptions registry place index options).result = .ok codecs →
      List.Forall₂ Splice.Fits splices codecs := by
  induction h with
  | nil =>
    intro place index codecs resolved
    rw [resolveOptions] at resolved
    cases resolved
    exact .nil
  | cons own _ ih =>
    intro place index codecs resolved
    rw [resolveOptions] at resolved
    obtain ⟨first, resolvedFirst, resolved⟩ := Noted.bind_eq_ok.mp resolved
    obtain ⟨later, resolvedLater, resolved⟩ := Noted.bind_eq_ok.mp resolved
    cases resolved
    exact .cons (own.2 _ first resolvedFirst) (ih _ _ later resolvedLater)

/-- A choice has the pieces of what is chosen from. -/
theorem suits_of_options (h : List.Forall₂ (Splice.Suits registry) options splices)
    (found : classify place schema = .ok (.oneOf options)) :
    (Splice.union splices).Suits registry schema := by
  refine ⟨Splice.closed_union (closed_of_suit h), fun place' codec resolved => ?_⟩
  rw [resolve_of_oneOf (classify_congr found place')] at resolved
  obtain ⟨codecs, each, resolved⟩ := Noted.bind_eq_ok.mp resolved
  cases resolved
  exact .union (fit_of_suit h place' 0 codecs each)

end Options

/-- **Schemas that resolve have pieces** that are the same wherever they stand. -/
theorem exists_splice (registry : Registry) :
    (∀ place schema, ∀ codec, (resolve registry place schema).result = .ok codec →
      ∃ s : Splice, s.Suits registry schema) ∧
    ∀ place index options, ∀ codecs,
      (resolveOptions registry place index options).result = .ok codecs →
      ∃ splices, List.Forall₂ (Splice.Suits registry) options splices := by
  refine resolve.mutual_induct
    (fun place schema => ∀ codec, (resolve registry place schema).result = .ok codec →
      ∃ s : Splice, s.Suits registry schema)
    (fun place index options => ∀ codecs,
      (resolveOptions registry place index options).result = .ok codecs →
      ∃ splices, List.Forall₂ (Splice.Suits registry) options splices)
    ?error ?reference ?oneOf ?boolean ?number ?date ?dateTime ?text ?map ?array ?enumeration
    ?object ?nil ?cons
  case error =>
    intro place schema e found codec h
    rw [resolve_of_error found] at h
    cases h
  case reference =>
    intro place schema text name found codec h
    rw [resolve_of_reference found] at h
    obtain ⟨kind, known, -, -⟩ := resolveReference_eq_ok h
    exact ⟨_, suits_of_reference found known⟩
  case oneOf =>
    intro place schema options found _ ih codec h
    rw [resolve_of_oneOf found] at h
    obtain ⟨codecs, resolved, -⟩ := Noted.bind_eq_ok.mp h
    obtain ⟨splices, suit⟩ := ih codecs resolved
    exact ⟨_, suits_of_options suit found⟩
  case map =>
    intro place schema values found _ ih codec h
    rw [resolve_of_map found] at h
    obtain ⟨value, resolved, -⟩ := Noted.bind_eq_ok.mp h
    obtain ⟨s, suits⟩ := ih value resolved
    exact ⟨_, suits.map found⟩
  case array =>
    intro place schema items found _ ih codec h
    rw [resolve_of_array found] at h
    obtain ⟨item, resolved, -⟩ := Noted.bind_eq_ok.mp h
    obtain ⟨s, suits⟩ := ih item resolved
    exact ⟨_, suits.array found⟩
  case boolean =>
    intro place schema found codec h
    exact ⟨_, suits_of_plain (Splice.closed_kept (by decide) (by decide))
      (Splice.fits_kept _ "validateBoolean" rfl fun _ _ => rfl)
      fun place' => resolve_of_boolean (classify_congr found place')⟩
  case number =>
    intro place schema integer found codec h
    cases integer with
    | true =>
      exact ⟨_, suits_of_plain (Splice.closed_kept (by decide) (by decide))
        (Splice.fits_kept _ "validateInteger" rfl fun _ _ => rfl)
        fun place' => resolve_of_number (classify_congr found place')⟩
    | false =>
      exact ⟨_, suits_of_plain (Splice.closed_kept (by decide) (by decide))
        (Splice.fits_kept _ "validateNumber" rfl fun _ _ => rfl)
        fun place' => resolve_of_number (classify_congr found place')⟩
  case date =>
    intro place schema found codec h
    exact ⟨_, suits_of_plain (Splice.closed_printed (by decide) (by decide) (by decide))
      (Splice.fits_printed _ "validateDate" "printDate" rfl (fun _ _ => rfl) fun _ => rfl)
      fun place' => resolve_of_date (classify_congr found place')⟩
  case dateTime =>
    intro place schema found codec h
    exact ⟨_, suits_of_plain (Splice.closed_printed (by decide) (by decide) (by decide))
      (Splice.fits_printed _ "validateDateTime" "printDateTime" rfl (fun _ _ => rfl) fun _ => rfl)
      fun place' => resolve_of_dateTime (classify_congr found place')⟩
  case text =>
    intro place schema limits found codec h
    exact ⟨_, suits_of_plain (Splice.closed_text limits) (Splice.fits_text limits)
      fun place' => resolve_of_text (classify_congr found place')⟩
  case enumeration =>
    intro place schema values found codec h
    rw [resolve_of_enumeration found] at h
    cases h
  case object =>
    intro place schema properties required found codec h
    rw [resolve_of_object found] at h
    cases h
  case nil =>
    intro place index codecs h
    exact ⟨[], .nil⟩
  case cons =>
    intro place index option rest ih ihs codecs h
    rw [resolveOptions] at h
    obtain ⟨first, resolved, h⟩ := Noted.bind_eq_ok.mp h
    obtain ⟨later, resolvedLater, -⟩ := Noted.bind_eq_ok.mp h
    obtain ⟨s, suits⟩ := ih first resolved
    obtain ⟨splices, suit⟩ := ihs later resolvedLater
    exact ⟨s :: splices, .cons suits suit⟩

/-! ## Values that may be absent -/

/-- An expression behind a guard for absent values, if the value may be absent. -/
def guardedText (required : Bool) (value expression : String) : String :=
  if required then expression else "isUndefined(" ++ value ++ ") ? undefined : " ++ expression

/-- How the expressions of a schema are spliced, wherever it stands and whether or not a value has
to be there. -/
structure Spliced (registry : Registry) (schema : Value) (s : Splice) : Prop where
  closed : s.Closed
  reads : ∀ place required slot, (resolveSlot registry place schema required).result = .ok slot →
    ∀ value context, (slot.fromJson value context).result =
      .ok (guardedText required value (s.reading.text value context))
  kept : ∀ place required slot, (resolveSlot registry place schema required).result = .ok slot →
    s.writing = .itself → slot.hasPrinter = false ∧
      ∀ value, (slot.toJson value).result = .ok value
  writes : ∀ place required slot, (resolveSlot registry place schema required).result = .ok slot →
    s.writing ≠ .itself → slot.hasPrinter = true ∧
      ∀ value, (slot.toJson value).result =
        .ok (guardedText required value (s.writing.text value))
  /-- What reads a value is one call, of it first and of the context later. -/
  call : ∀ value context, IsArgument value → IsArgument context → ∀ callee args,
    IsCall (s.reading.text value context) callee args ↔ callee = s.reading.callee ∧
      args = value :: (s.reading.before ++ context :: s.reading.after)
  /-- What converts a value is one call, of it first, or a method of it. -/
  writtenCall : ∀ printer after, s.writing = .call printer after → ∀ value, IsArgument value →
    ∀ callee args, IsCall (s.writing.text value) callee args ↔
      callee = printer ∧ args = value :: after
  writtenMethod : ∀ converter, s.writing = .map converter → IsArgument converter ∧
    ∀ value, s.writing.text value = value ++ ".map(" ++ converter ++ ")"

theorem guardedIfOptional_result (slot : Slot) (value expression : String) :
    (slot.guardedIfOptional value expression).result =
      .ok (guardedText slot.required value expression) := by
  unfold Slot.guardedIfOptional guardedText
  split <;> rfl

theorem converts_eq_false_iff {w : Writing} : w.converts = false ↔ w = .itself := by
  cases w <;> simp [Writing.converts]

theorem spliced_of_suits {s : Splice} (h : s.Suits registry schema) :
    Spliced registry schema s := by
  obtain ⟨closed, fits⟩ := h
  have fit {place : Place} {required : Bool} {slot : Slot}
      (resolved : (resolveSlot registry place schema required).result = .ok slot) :
      s.Fits slot.codec ∧ slot.required = required := by
    obtain ⟨codec, hc, h⟩ := Noted.bind_eq_ok.mp resolved
    cases h
    exact ⟨fits place codec hc, rfl⟩
  refine ⟨closed, fun place required slot resolved value context => ?_,
    fun place required slot resolved itself => ?_, fun place required slot resolved some_ => ?_,
    fun value context hv hc _ _ => (closed.reading.isCall hv hc).iff,
    fun printer after written value hv _ _ => ?_, fun converter written => ?_⟩
  · obtain ⟨own, rfl⟩ := fit resolved
    rw [Slot.fromJson_eq, Noted.bind_of_ok (own.fromJson value context)]
    exact guardedIfOptional_result slot value _
  · obtain ⟨own, rfl⟩ := fit resolved
    have kept : slot.hasPrinter = false := own.converts.trans (converts_eq_false_iff.mpr itself)
    refine ⟨kept, fun value => ?_⟩
    rw [Slot.toJson_eq, kept]
    rfl
  · obtain ⟨own, rfl⟩ := fit resolved
    have printed : slot.hasPrinter = true := by
      refine own.converts.trans ?_
      rw [← Bool.not_eq_false, converts_eq_false_iff]
      exact some_
    refine ⟨printed, fun value => ?_⟩
    rw [Slot.toJson_eq, if_pos printed, Noted.bind_of_ok (own.converted printed value)]
    exact guardedIfOptional_result slot value _
  · have pieces := closed.writing
    rw [written] at pieces ⊢
    exact IsCall.iff ⟨rfl, pieces.1, List.forall_mem_cons.mpr ⟨hv, pieces.2⟩⟩
  · have pieces := closed.writing
    rw [written] at pieces ⊢
    exact ⟨pieces, fun value => rfl⟩

/-- **Nothing is captured.**  A schema that resolves determines the pieces of its expressions, and
what it is given stands beside them: as an argument of the outermost call or in front of the
method, and never inside an arrow function. -/
theorem exists_spliced {codec : Codec} (h : (resolve registry place schema).result = .ok codec) :
    (∀ required, (resolveSlot registry place schema required).result = .ok ⟨codec, required⟩) ∧
      ∃ s, Spliced registry schema s := by
  obtain ⟨s, suits⟩ := (exists_splice registry).1 place schema codec h
  refine ⟨fun required => ?_, s, spliced_of_suits suits⟩
  rw [resolveSlot, Noted.bind_of_ok h]
  rfl

/-- A day or an owner. -/
def dayOrOwner : Value :=
  .map [(.text "oneOf", .list
    [.map [(.text "type", .text "string"), (.text "format", .text "date")],
     .map [(.text "$ref", .text "#/components/schemas/Owner")]])]

/-- Several values that are a day or an owner. -/
def daysOrOwners : Value := .map [(.text "type", .text "array"), (.text "items", dayOrOwner)]

theorem exists_spliced_daysOrOwners :
    ∃ codec, (resolve ⟨[("Owner", .object)]⟩ ["Visit", "by"] daysOrOwners).result = .ok codec ∧
      (∀ required, (resolveSlot ⟨[("Owner", .object)]⟩ ["Visit", "by"] daysOrOwners
        required).result = .ok ⟨codec, required⟩) ∧
      ∃ s, Spliced ⟨[("Owner", .object)]⟩ daysOrOwners s := by
  obtain ⟨codec, resolved⟩ := Except.exists_of_isOk (show
    (resolve ⟨[("Owner", .object)]⟩ ["Visit", "by"] daysOrOwners).result.isOk = true by
      decide +kernel)
  exact ⟨codec, resolved, exists_spliced resolved⟩

/-- Given the names that arrow functions bind, the expression still uses them outside of all arrow
functions. -/
example : (resolveSlot ⟨[("Owner", .object)]⟩ ["Visit", "by"] daysOrOwners true).result.toOption.map
      (fun slot => (slot.toJson "x").result.toOption) =
    some (some ("x.map((x) => printFirst(x, [(x) => \x7b const json = printDate(x); "
      ++ "validateDate(json, []); return json; \x7d, (x) => \x7b const json = printOwner(x); "
      ++ "validateOwner(json, []); return json; \x7d]))")) := by
  decide +kernel

end Schemas
end TypedApi
