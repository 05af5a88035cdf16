import TypedApi.Code.Name
import TypedApi.Text.Order

/-! # The words of an expression

A word of generated code is a longest run of characters of names.  A word that an opening bracket
of arguments or of type arguments follows is called.  Both are read off the text by one scan, and
the scan of a sequence is that of its parts wherever no word goes across the seam
(`scan_append_of_starts`, `scan_append_of_ends`).
-/
namespace TypedApi.Code

/-- The word that ends before `next`, if there is one and `next` may follow it. -/
def wordBefore (follows : Option Char → Bool) (next : Option Char) (word : List Char) :
    List String :=
  if !word.isEmpty && follows next then [String.ofList word] else []

/-- The words of a text that only certain characters follow, after the start of a first word. -/
def scan (follows : Option Char → Bool) (word : List Char) : List Char → List String
  | [] => wordBefore follows none word
  | c :: rest =>
    if isNamePart c then scan follows (word ++ [c]) rest
    else wordBefore follows (some c) word ++ scan follows [] rest

/-- The words of a text that only certain characters follow. -/
def wordsBefore (follows : Option Char → Bool) (text : String) : List String :=
  scan follows [] text.toList

/-- An opening bracket of arguments or of type arguments. -/
def opens (next : Option Char) : Bool := next == some '(' || next == some '<'

/-- Anything at all. -/
def anything (_ : Option Char) : Bool := true

/-- The words of a text. -/
abbrev words (text : String) : List String := wordsBefore anything text

/-- The words that are called in a text. -/
abbrev calls (text : String) : List String := wordsBefore opens text

/-! ## Seams -/

/-- No word goes on into the text, whatever stands before it. -/
def starts (p : Option Char → Bool) (text : List Char) : Bool :=
  text.head?.all fun c => !isNamePart c && p (some c) == p none

/-- No word goes on after the text. -/
def ends (text : List Char) : Bool :=
  text.getLast?.any fun c => !isNamePart c

section Scan
variable {p : Option Char → Bool}

theorem wordBefore_nil (next : Option Char) : wordBefore p next [] = [] := rfl

theorem scan_cons_of_namePart {c : Char} (h : isNamePart c = true) (word rest : List Char) :
    scan p word (c :: rest) = scan p (word ++ [c]) rest := by
  rw [scan, if_pos h]

theorem scan_cons_of_not_namePart {c : Char} (h : isNamePart c = false) (word rest : List Char) :
    scan p word (c :: rest) = wordBefore p (some c) word ++ scan p [] rest := by
  rw [scan, if_neg (by simp [h])]

/-- A word ends where the other text starts. -/
theorem scan_of_starts {text : List Char} (h : starts p text = true) (word : List Char) :
    scan p word text = wordBefore p none word ++ scan p [] text := by
  cases text with
  | nil => simp [scan, wordBefore_nil]
  | cons c rest =>
    simp only [starts, List.head?_cons, Option.all_some, Bool.and_eq_true, Bool.not_eq_true',
      beq_iff_eq] at h
    obtain ⟨stops, same⟩ := h
    rw [scan_cons_of_not_namePart stops, scan_cons_of_not_namePart stops, wordBefore_nil,
      List.nil_append, wordBefore, same, wordBefore]

/-- The scan goes apart before a text that continues no word. -/
theorem scan_append_of_starts {text : List Char} (h : starts p text = true)
    (word before : List Char) :
    scan p word (before ++ text) = scan p word before ++ scan p [] text := by
  induction before generalizing word with
  | nil => rw [List.nil_append, scan_of_starts h, scan]
  | cons c rest ih =>
    rw [List.cons_append]
    by_cases part : isNamePart c = true
    · rw [scan_cons_of_namePart part, scan_cons_of_namePart part, ih]
    · have stops : isNamePart c = false := by simpa using part
      rw [scan_cons_of_not_namePart stops, scan_cons_of_not_namePart stops, ih, List.append_assoc]

/-- The scan goes apart after a text whose last word is over. -/
theorem scan_append_of_ends {before : List Char} (h : ends before = true)
    (word text : List Char) :
    scan p word (before ++ text) = scan p word before ++ scan p [] text := by
  induction before generalizing word with
  | nil => cases h
  | cons c rest ih =>
    rw [List.cons_append]
    by_cases part : isNamePart c = true
    · rw [scan_cons_of_namePart part, scan_cons_of_namePart part]
      -- a character of a name is not the last one
      cases rest with
      | nil => simp [ends, part] at h
      | cons d later => exact ih (by simpa [ends] using h) (word ++ [c])
    · have stops : isNamePart c = false := by simpa using part
      rw [scan_cons_of_not_namePart stops, scan_cons_of_not_namePart stops, List.append_assoc]
      cases rest with
      | nil => rfl
      | cons d later => rw [ih (by simpa [ends] using h)]

/-- A word is read as one. -/
theorem scan_word {word : List Char} (h : ∀ c ∈ word, isNamePart c = true)
    (before rest : List Char) : scan p before (word ++ rest) = scan p (before ++ word) rest := by
  induction word generalizing before with
  | nil => rw [List.nil_append, List.append_nil]
  | cons c later ih =>
    obtain ⟨part, parts⟩ := List.forall_mem_cons.mp h
    rw [List.cons_append, scan_cons_of_namePart part, ih parts, List.append_assoc]
    rfl

end Scan

/-! ## Parts of a text -/

section Texts
variable {p : Option Char → Bool} {text : String}

theorem wordsBefore_append_of_starts (h : starts p text.toList = true) (before : String) :
    wordsBefore p (before ++ text) = wordsBefore p before ++ wordsBefore p text := by
  rw [wordsBefore, String.toList_append, scan_append_of_starts h]
  rfl

theorem wordsBefore_append_of_ends {before : String} (h : ends before.toList = true)
    (text : String) :
    wordsBefore p (before ++ text) = wordsBefore p before ++ wordsBefore p text := by
  rw [wordsBefore, String.toList_append, scan_append_of_ends h]
  rfl

theorem ends_append (h : ends text.toList = true) (before : String) :
    ends (before ++ text).toList = true := by
  obtain ⟨c, last, stops⟩ := (Option.any_eq_true _ _).mp h
  rw [String.toList_append, ends, List.getLast?_append, last, Option.some_or, Option.any_some]
  exact stops

/-- A text between two others that continues no word of theirs and holds no words itself. -/
structure IsSeam (p : Option Char → Bool) (text : String) : Prop where
  starts : starts p text.toList = true
  ends : ends text.toList = true
  empty : wordsBefore p text = []

instance : Decidable (IsSeam p text) :=
  decidable_of_iff (Code.starts p text.toList = true ∧ Code.ends text.toList = true ∧
      wordsBefore p text = [])
    ⟨fun ⟨s, e, w⟩ => ⟨s, e, w⟩, fun ⟨s, e, w⟩ => ⟨s, e, w⟩⟩

theorem wordsBefore_seam (h : IsSeam p text) (before after : String) :
    wordsBefore p (before ++ text ++ after) = wordsBefore p before ++ wordsBefore p after := by
  rw [wordsBefore_append_of_ends (ends_append h.ends before),
    wordsBefore_append_of_starts h.starts, h.empty, List.append_nil]

theorem wordsBefore_intercalate (h : IsSeam p text) (parts : List String) :
    wordsBefore p (text.intercalate parts) = parts.flatMap (wordsBefore p) := by
  induction parts with
  | nil => rfl
  | cons part rest ih =>
    cases rest with
    | nil => simp
    | cons next later =>
      rw [String.intercalate_cons_cons, wordsBefore_seam h, ih]
      rfl

/-- A name that is one word. -/
structure IsWord (name : String) : Prop where
  nonempty : name.toList ≠ []
  parts : ∀ c ∈ name.toList, isNamePart c = true

instance (name : String) : Decidable (IsWord name) :=
  decidable_of_iff (name.toList ≠ [] ∧ name.toList.all isNamePart = true)
    ⟨fun ⟨n, h⟩ => ⟨n, List.all_eq_true.mp h⟩, fun ⟨n, h⟩ => ⟨n, List.all_eq_true.mpr h⟩⟩

theorem IsWord.append {first second : String} (hf : IsWord first) (hs : IsWord second) :
    IsWord (first ++ second) := by
  refine ⟨fun h => ?_, fun c hc => ?_⟩
  · rw [String.toList_append, List.append_eq_nil_iff] at h
    exact hf.nonempty h.1
  · rw [String.toList_append, List.mem_append] at hc
    exact hc.elim (hf.parts c) (hs.parts c)

theorem words_of_isWord {name : String} (h : IsWord name) : wordsBefore anything name = [name] := by
  have whole := scan_word (p := anything) h.parts [] []
  rw [List.append_nil, List.nil_append] at whole
  rw [wordsBefore, whole, scan, wordBefore]
  simp [h.nonempty, anything]

theorem calls_of_isWord {name : String} (h : IsWord name) : wordsBefore opens name = [] := by
  have whole := scan_word (p := opens) h.parts [] []
  rw [List.append_nil, List.nil_append] at whole
  rw [wordsBefore, whole, scan, wordBefore]
  simp [opens]

/-- An opening bracket makes a word one that is called. -/
theorem calls_open {name bracket : String} (h : IsWord name) (hb : bracket ∈ ["(", "<"])
    (rest : String) :
    wordsBefore opens (name ++ bracket ++ rest) = name :: wordsBefore opens rest := by
  obtain ⟨c, split, opening, stops⟩ : ∃ c, bracket.toList = [c] ∧ opens (some c) = true ∧
      isNamePart c = false := by
    rcases List.mem_cons.mp hb with rfl | hb
    · exact ⟨'(', rfl, rfl, rfl⟩
    · rw [List.mem_singleton.mp hb]
      exact ⟨'<', rfl, rfl, rfl⟩
  have closed : ends (name ++ bracket).toList = true := by
    rw [String.toList_append, split, ends, List.getLast?_concat, Option.any_some, stops]
    rfl
  have own : wordsBefore opens (name ++ bracket) = [name] := by
    rw [wordsBefore, String.toList_append, split, scan_word h.parts, List.nil_append,
      scan_cons_of_not_namePart stops, wordBefore]
    simp [h.nonempty, opening, scan, wordBefore_nil]
  rw [wordsBefore_append_of_ends closed, own]
  rfl

theorem calls_close (text : String) :
    wordsBefore opens (text ++ ")") = wordsBefore opens text := by
  have none : wordsBefore opens ")" = [] := by decide
  rw [wordsBefore_append_of_starts (by decide), none, List.append_nil]

/-- A call calls the function and what its arguments call. -/
theorem calls_call {name : String} (h : IsWord name) (arguments : String) :
    wordsBefore opens (name ++ "(" ++ arguments ++ ")") = name :: wordsBefore opens arguments := by
  rw [calls_close, calls_open h (by decide)]

end Texts
end TypedApi.Code
