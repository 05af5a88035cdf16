import TypedApi.Proofs.Code.Words
import TypedApi.Proofs.Schema.References
import TypedApi.Schema.Conversion

/-! # The words of types and expressions

The words of a static type are the components that the codec refers to and the built-in types of its
parts (`Codec.mem_words_typeName`).  An expression calls the functions that are written into it and
what its parts call, one equation for each form that expressions have.
-/
namespace TypedApi
open Code (IsWord IsSeam wordsBefore opens anything)

/-! ## The words of a static type -/

namespace Codec

mutual

/-- The built-in types in the static type of a codec. -/
def builtins : Codec → List String
  | .boolean => ["boolean"]
  | .number _ => ["number"]
  | .text _ => ["string"]
  | .date | .dateTime => ["Date"]
  | .enumeration _ | .object _ _ => []
  | .union options => allBuiltins options
  | .array item => "ReadonlyArray" :: item.builtins
  | .map value _ => "Readonly" :: "Record" :: "string" :: value.builtins

/-- The built-in types in the static types of some alternatives. -/
def allBuiltins : List Codec → List String
  | [] => []
  | option :: rest => option.builtins ++ allBuiltins rest

end

/-- The type names of some components are words. -/
def Spelled (names : List Identifier) : Prop := ∀ name ∈ names, IsWord name.upperCamel

theorem Spelled.left {names others : List Identifier} (h : Spelled (names ++ others)) :
    Spelled names := fun name hn => h name (List.mem_append_left _ hn)

theorem Spelled.right {names others : List Identifier} (h : Spelled (names ++ others)) :
    Spelled others := fun name hn => h name (List.mem_append_right _ hn)

theorem Spelled.word {name : Identifier} (h : Spelled [name]) : IsWord name.upperCamel :=
  h name (List.mem_singleton_self name)

theorem mem_words_builtin {name : String} (h : IsWord name) (word : String) :
    word ∈ wordsBefore anything name ↔
      (∃ component ∈ ([] : List Identifier), word = component.upperCamel) ∨ word ∈ [name] := by
  simp [Code.words_of_isWord h]

theorem mem_words_component {name : Identifier} (h : Spelled [name]) (word : String) :
    word ∈ wordsBefore anything name.upperCamel ↔
      (∃ component ∈ [name], word = component.upperCamel) ∨ word ∈ ([] : List String) := by
  simp [Code.words_of_isWord h.word]

mutual

/-- **The words of a static type** are the components that the codec refers to and the built-in
types of its parts. -/
theorem mem_words_typeName : ∀ (codec : Codec), Spelled codec.references → ∀ word,
    word ∈ wordsBefore anything codec.typeName ↔
      (∃ name ∈ codec.references, word = name.upperCamel) ∨ word ∈ codec.builtins
  | .boolean, _, word => mem_words_builtin (show IsWord "boolean" by decide) word
  | .number _, _, word => mem_words_builtin (show IsWord "number" by decide) word
  | .text _, _, word => mem_words_builtin (show IsWord "string" by decide) word
  | .date, _, word | .dateTime, _, word => mem_words_builtin (show IsWord "Date" by decide) word
  | .enumeration _, h, word | .object _ _, h, word => mem_words_component h word
  | .union options, h, word => by
    show word ∈ wordsBefore anything (" | ".intercalate (typeNames options)) ↔ _
    rw [Code.wordsBefore_intercalate (by decide)]
    exact mem_words_typeNames options h word
  | .array item, h, word => by
    have own : wordsBefore anything "ReadonlyArray<" = ["ReadonlyArray"] := by decide
    have close : wordsBefore anything ">" = [] := by decide
    show word ∈ wordsBefore anything ("ReadonlyArray<" ++ item.typeName ++ ">") ↔ _
    rw [Code.wordsBefore_append_of_starts (by decide),
      Code.wordsBefore_append_of_ends (by decide), own, close, List.append_nil, List.mem_append,
      item.mem_words_typeName h]
    simp only [references, builtins, List.mem_cons, List.not_mem_nil, or_false]
    exact or_left_comm
  | .map value _, h, word => by
    have own : wordsBefore anything "Readonly<Record<string, " =
        ["Readonly", "Record", "string"] := by decide
    have close : wordsBefore anything ">>" = [] := by decide
    show word ∈ wordsBefore anything
      ("Readonly<Record<string, " ++ value.typeName ++ ">>") ↔ _
    rw [Code.wordsBefore_append_of_starts (by decide),
      Code.wordsBefore_append_of_ends (by decide), own, close, List.append_nil, List.mem_append,
      value.mem_words_typeName h]
    simp only [references, builtins, List.mem_cons, List.not_mem_nil, or_false]
    rw [or_left_comm, or_assoc, or_assoc]

theorem mem_words_typeNames : ∀ (options : List Codec), Spelled (allReferences options) →
    ∀ word, word ∈ (typeNames options).flatMap (wordsBefore anything) ↔
      (∃ name ∈ allReferences options, word = name.upperCamel) ∨ word ∈ allBuiltins options
  | [], _, word => by
    show word ∈ ([] : List String) ↔ _
    simp [allReferences, allBuiltins]
  | option :: rest, h, word => by
    show word ∈ (option.typeName :: typeNames rest).flatMap (wordsBefore anything) ↔ _
    rw [List.flatMap_cons, List.mem_append, option.mem_words_typeName h.left,
      mem_words_typeNames rest h.right]
    simp only [allReferences, allBuiltins, List.mem_append, or_and_right, exists_or]
    exact or_or_or_comm

end

theorem validator_isWord {name : Identifier} (h : IsWord name.upperCamel) :
    IsWord name.validator :=
  IsWord.append (by decide) h

theorem printer_isWord {name : Identifier} (h : IsWord name.upperCamel) : IsWord name.printer :=
  IsWord.append (by decide) h

/-- The words of static types that type arguments follow. -/
def generics : List String := ["ReadonlyArray", "Readonly", "Record"]

mutual

/-- What looks called in a static type is a type with arguments. -/
theorem calls_typeName : ∀ (codec : Codec), Spelled codec.references →
    ∀ word ∈ wordsBefore opens codec.typeName, word ∈ generics
  | .boolean, _, word, hw => by
    have none : wordsBefore opens "boolean" = [] := by decide
    cases none ▸ hw
  | .number _, _, word, hw => by
    have none : wordsBefore opens "number" = [] := by decide
    cases none ▸ hw
  | .text _, _, word, hw => by
    have none : wordsBefore opens "string" = [] := by decide
    cases none ▸ hw
  | .date, _, word, hw | .dateTime, _, word, hw => by
    have none : wordsBefore opens "Date" = [] := by decide
    cases none ▸ hw
  | .enumeration name, h, word, hw | .object name _, h, word, hw => by
    have none : wordsBefore opens name.upperCamel = [] := Code.calls_of_isWord h.word
    cases none ▸ hw
  | .union options, h, word, hw => by
    replace hw : word ∈ wordsBefore opens (" | ".intercalate (typeNames options)) := hw
    rw [Code.wordsBefore_intercalate (by decide)] at hw
    exact calls_typeNames options h word hw
  | .array item, h, word, hw => by
    have own : wordsBefore opens "ReadonlyArray<" = ["ReadonlyArray"] := by decide
    have close : wordsBefore opens ">" = [] := by decide
    replace hw : word ∈ wordsBefore opens ("ReadonlyArray<" ++ item.typeName ++ ">") := hw
    rw [Code.wordsBefore_append_of_starts (by decide),
      Code.wordsBefore_append_of_ends (by decide), own, close, List.append_nil,
      List.mem_append, List.mem_singleton] at hw
    rcases hw with rfl | hw
    · decide
    · exact item.calls_typeName h word hw
  | .map value _, h, word, hw => by
    have own : wordsBefore opens "Readonly<Record<string, " = ["Readonly", "Record"] := by decide
    have close : wordsBefore opens ">>" = [] := by decide
    have listed : ∀ word ∈ ["Readonly", "Record"], word ∈ generics := by decide
    replace hw : word ∈ wordsBefore opens
      ("Readonly<Record<string, " ++ value.typeName ++ ">>") := hw
    rw [Code.wordsBefore_append_of_starts (by decide),
      Code.wordsBefore_append_of_ends (by decide), own, close, List.append_nil,
      List.mem_append] at hw
    exact hw.elim (listed word) (value.calls_typeName h word)

theorem calls_typeNames : ∀ (options : List Codec), Spelled (allReferences options) →
    ∀ word ∈ (typeNames options).flatMap (wordsBefore opens), word ∈ generics
  | [], _, _, hw => by cases hw
  | option :: rest, h, word, hw => by
    replace hw : word ∈ (option.typeName :: typeNames rest).flatMap (wordsBefore opens) := hw
    rw [List.flatMap_cons, List.mem_append] at hw
    exact hw.elim (option.calls_typeName h.left word) (calls_typeNames rest h.right word)

end

end Codec

namespace Slot

/-- The built-in types in the static type of a slot. -/
def builtins (slot : Slot) : List String :=
  if slot.required then slot.codec.builtins else "undefined" :: slot.codec.builtins

theorem mem_words_typeName {slot : Slot} (h : Codec.Spelled slot.references) (word : String) :
    word ∈ wordsBefore anything slot.typeName ↔
      (∃ name ∈ slot.references, word = name.upperCamel) ∨ word ∈ slot.builtins := by
  have own := slot.codec.mem_words_typeName h word
  unfold typeName builtins
  by_cases required : slot.required = true
  · rw [if_pos required, if_pos required, own]
    rfl
  · have absent : wordsBefore anything " | undefined" = ["undefined"] := by decide
    rw [if_neg required, if_neg required, Code.wordsBefore_append_of_starts (by decide), absent,
      List.mem_append, own, List.mem_singleton, List.mem_cons, or_assoc, or_comm (a := word ∈ _)]
    rfl

end Slot

/-! ## The calls in an expression -/

theorem calls_comma (first second : String) :
    wordsBefore opens (first ++ ", " ++ second) =
      wordsBefore opens first ++ wordsBefore opens second :=
  Code.wordsBefore_seam (by decide) first second

theorem calls_commaList (texts : List String) :
    wordsBefore opens (Text.commaList texts) = texts.flatMap (wordsBefore opens) :=
  Code.wordsBefore_intercalate (by decide) texts

theorem calls_readerFunction (expression : String) :
    wordsBefore opens (readerFunction expression) = wordsBefore opens expression := by
  have none : wordsBefore opens "(x, context) => " = [] := by decide
  show wordsBefore opens ("(x, context) => " ++ expression) = _
  rw [Code.wordsBefore_append_of_ends (by decide), none, List.nil_append]

theorem calls_printerFunction (expression : String) :
    wordsBefore opens (printerFunction expression) = wordsBefore opens expression := by
  have none : wordsBefore opens "(x) => " = [] := by decide
  show wordsBefore opens ("(x) => " ++ expression) = _
  rw [Code.wordsBefore_append_of_ends (by decide), none, List.nil_append]

theorem isWord_toString (n : Nat) : IsWord (toString n) := by
  rw [Nat.toString_eq_repr]
  refine ⟨fun h => ?_, fun c hc => ?_⟩
  · exact Nat.repr_ne_empty (String.toList_inj.mp h)
  · rw [Nat.toList_repr] at hc
    have digit : c.isDigit = true := Nat.isDigit_of_mem_toDigits (by decide) (by decide) hc
    simp [Code.isNamePart, Char.isAlphanum, digit]

/-- A bound of a text calls nothing. -/
theorem calls_bound {label : String} (hl : Code.ends label.toList = true)
    (none : wordsBefore opens label = []) {bound : Option Nat} :
    ∀ option ∈ (bound.map fun n => label ++ toString n).toList, wordsBefore opens option = [] := by
  intro option ho
  cases bound with
  | none => cases ho
  | some n =>
    rw [List.mem_singleton.mp ho, Code.wordsBefore_append_of_ends hl, none,
      Code.calls_of_isWord (isWord_toString n)]
    rfl

/-- The argument for the bounds of a text calls nothing. -/
theorem calls_limits (expression : String) (limits : TextLimits) :
    wordsBefore opens (expression ++ limits.argument) = wordsBefore opens expression := by
  unfold TextLimits.argument
  generalize ho : (limits.minLength.map fun n => "minLength: " ++ toString n).toList
    ++ (limits.maxLength.map fun n => "maxLength: " ++ toString n).toList
    ++ (if limits.email then ["email: true"] else []) = options
  -- the options are labels with numbers, and no label is called
  have silent : ∀ option ∈ options, wordsBefore opens option = [] := by
    rw [← ho]
    intro option hm
    rcases List.mem_append.mp hm with hm | hm
    · rcases List.mem_append.mp hm with hm | hm
      · exact calls_bound (by decide) (by decide) option hm
      · exact calls_bound (by decide) (by decide) option hm
    · split at hm
      · rw [List.mem_singleton.mp hm]
        decide
      · cases hm
  by_cases none : options.isEmpty = true
  · simp [none]
  · have close : wordsBefore opens " \x7d" = [] := by decide
    simp only [none, Bool.false_eq_true, if_false]
    rw [← String.append_assoc, ← String.append_assoc, Code.wordsBefore_append_of_starts (by decide),
      Code.wordsBefore_seam (by decide), calls_commaList, close, List.flatMap_eq_nil_iff.mpr silent,
      List.append_nil, List.append_nil]

/-- The reading of a choice calls the function for choices, and what its parts call. -/
theorem calls_first (type value context : String) (readers : List String) :
    wordsBefore opens ("validateFirst<" ++ type ++ ">(" ++ value ++ ", ["
      ++ Text.commaList readers ++ "], " ++ context ++ ")") =
    "validateFirst" :: (wordsBefore opens type ++ wordsBefore opens value
      ++ readers.flatMap (wordsBefore opens) ++ wordsBefore opens context) := by
  have own : wordsBefore opens "validateFirst<" = ["validateFirst"] := by decide
  rw [Code.calls_close, Code.wordsBefore_seam (by decide), Code.wordsBefore_seam (by decide),
    Code.wordsBefore_seam (by decide), Code.wordsBefore_append_of_ends (by decide), own,
    calls_commaList]
  rfl

theorem calls_paramArray (value reader context : String) :
    wordsBefore opens ("validateParamArray(" ++ value ++ ", " ++ reader ++ ", " ++ context ++ ")") =
      "validateParamArray" :: (wordsBefore opens value ++ wordsBefore opens reader
        ++ wordsBefore opens context) := by
  have own : wordsBefore opens "validateParamArray(" = ["validateParamArray"] := by decide
  rw [Code.calls_close, calls_comma, calls_comma, Code.wordsBefore_append_of_ends (by decide), own]
  rfl

theorem calls_printFirst (value : String) (printers : List String) :
    wordsBefore opens ("printFirst(" ++ value ++ ", [" ++ Text.commaList printers ++ "])") =
      "printFirst" :: (wordsBefore opens value ++ printers.flatMap (wordsBefore opens)) := by
  have own : wordsBefore opens "printFirst(" = ["printFirst"] := by decide
  have close : wordsBefore opens "])" = [] := by decide
  rw [Code.wordsBefore_append_of_starts (by decide), close, List.append_nil,
    Code.wordsBefore_seam (by decide), Code.wordsBefore_append_of_ends (by decide), own,
    calls_commaList]
  rfl

theorem calls_map (value printer : String) :
    wordsBefore opens (value ++ ".map(" ++ printer ++ ")") =
      wordsBefore opens value ++ "map" :: wordsBefore opens printer := by
  have own : wordsBefore opens ".map(" = ["map"] := by decide
  rw [Code.calls_close, Code.wordsBefore_append_of_ends (Code.ends_append (by decide) value),
    Code.wordsBefore_append_of_starts (by decide), own, List.append_assoc]
  rfl

theorem calls_checked (printed check : String) :
    wordsBefore opens ("\x7b const json = " ++ printed ++ "; " ++ check ++ "; return json; \x7d") =
      wordsBefore opens printed ++ wordsBefore opens check := by
  have own : wordsBefore opens "\x7b const json = " = [] := by decide
  have close : wordsBefore opens "; return json; \x7d" = [] := by decide
  rw [Code.wordsBefore_append_of_starts (by decide), close, List.append_nil,
    Code.wordsBefore_seam (by decide), Code.wordsBefore_append_of_ends (by decide), own,
    List.nil_append]

theorem calls_guarded (value expression : String) :
    wordsBefore opens ("isUndefined(" ++ value ++ ") ? undefined : " ++ expression) =
      "isUndefined" :: (wordsBefore opens value ++ wordsBefore opens expression) := by
  have own : wordsBefore opens "isUndefined(" = ["isUndefined"] := by decide
  rw [Code.wordsBefore_seam (by decide), Code.wordsBefore_append_of_ends (by decide), own]
  rfl

end TypedApi
