import TypedApi.Proofs.Text.Literal
import TypedApi.Text.Order

/-! # Arrays of strings as JSON

An array that is written with commas between string literals is JSON: `Json.array?` reads it by the
grammar of JSON and finds exactly the texts that were written, in order (`array?_stringArray`).  The
units of a literal come together to characters again (`ofUtf16?_utf16`), and a literal ends at its
own quote, so that commas and brackets inside a text separate nothing.  All of it is printable
ASCII, whatever the texts are (`isPrintable_stringArray`).
-/
namespace TypedApi.Text

/-! ## Characters from UTF-16 -/

/-- The character with the given number. Halves of surrogate pairs are none. -/
def charOf? (n : Nat) : Option Char := if n.isValidChar then some (Char.ofNat n) else none

/-- Two units that are one character together. -/
def IsPair (high low : Nat) : Prop :=
  (0xD800 ≤ high ∧ high < 0xDC00) ∧ 0xDC00 ≤ low ∧ low < 0xE000

instance (high low : Nat) : Decidable (IsPair high low) := inferInstanceAs (Decidable (_ ∧ _))

/-- The characters that some UTF-16 units stand for, if no half of a pair is left alone. -/
def ofUtf16? : List Nat → Option (List Char)
  | [] => some []
  | [unit] => (charOf? unit).map ([·])
  | unit :: next :: rest =>
    if IsPair unit next then
      (charOf? (0x10000 + (unit - 0xD800) * 0x400 + (next - 0xDC00))).bind fun c =>
        (ofUtf16? rest).map (c :: ·)
    else (charOf? unit).bind fun c => (ofUtf16? (next :: rest)).map (c :: ·)

theorem charOf?_toNat (c : Char) : charOf? c.toNat = some c := by
  rw [charOf?, if_pos (show c.toNat.isValidChar from c.valid), Char.ofNat_toNat]

/-- The units of a character come together to the character, whatever follows. -/
theorem ofUtf16?_units (c : Char) (rest : List Nat) :
    ofUtf16? (units c ++ rest) = (ofUtf16? rest).map (c :: ·) := by
  have valid := not_surrogate c
  unfold units
  split
  · have single (next : Nat) : ¬IsPair c.toNat next := fun h => by
      unfold IsPair at h
      omega
    cases rest with
    | nil => simp [ofUtf16?, charOf?_toNat]
    | cons next rest =>
      rw [List.cons_append, List.nil_append, ofUtf16?, if_neg (single next), charOf?_toNat,
        Option.bind_some]
  · have pair : IsPair (0xD800 + (c.toNat - 0x10000) / 0x400)
        (0xDC00 + (c.toNat - 0x10000) % 0x400) := by
      unfold IsPair
      omega
    have whole : 0x10000 + (0xD800 + (c.toNat - 0x10000) / 0x400 - 0xD800) * 0x400
        + (0xDC00 + (c.toNat - 0x10000) % 0x400 - 0xDC00) = c.toNat := by omega
    rw [List.cons_append, List.cons_append, List.nil_append, ofUtf16?, if_pos pair, whole,
      charOf?_toNat, Option.bind_some]

/-- **The units of a text stand for it.** -/
theorem ofUtf16?_utf16 (cs : List Char) : ofUtf16? (utf16 cs) = some cs := by
  induction cs with
  | nil => rfl
  | cons c cs ih => rw [utf16_cons, ofUtf16?_units, ih, Option.map_some]

namespace Literal

theorem behind_eq_some {first read : List Nat} {rest : List Char}
    {r : Option (List Nat × List Char)} (h : behind first r = some (read, rest)) :
    ∃ later, r = some (later, rest) := by
  obtain ⟨⟨later, rest⟩, inner, same⟩ := Option.map_eq_some_iff.mp h
  cases same
  exact ⟨later, inner⟩

/-- What is left behind a literal is shorter than what was read. -/
theorem length_readUnits {cs rest : List Char} {read : List Nat}
    (h : readUnits cs = some (read, rest)) : rest.length < cs.length := by
  fun_induction readUnits cs generalizing read rest with
  | case1 =>
    cases h
    exact Nat.lt_succ_self _
  | case2 a b c d tail ih =>
    obtain ⟨_, -, h⟩ := Option.bind_eq_some_iff.mp h
    obtain ⟨later, inner⟩ := behind_eq_some h
    have := ih inner
    simp only [List.length_cons]
    omega
  | case3 e tail _ ih =>
    obtain ⟨_, -, h⟩ := Option.bind_eq_some_iff.mp h
    obtain ⟨later, inner⟩ := behind_eq_some h
    have := ih inner
    simp only [List.length_cons]
    omega
  | case4 => cases h
  | case5 c tail _ _ _ _ ih =>
    obtain ⟨later, inner⟩ := behind_eq_some h
    exact Nat.lt_succ_of_lt (ih inner)
  | case6 => cases h

end Literal

/-! ## Reading arrays -/

namespace Json

/-- White space between the tokens of JSON. -/
def isSpace (c : Char) : Bool := c == ' ' || c == '\t' || c == '\n' || c == '\r'

/-- A text without the white space that it starts with. -/
def skip (cs : List Char) : List Char := cs.dropWhile isSpace

/-- Reads a string, and what follows it. -/
def string? : List Char → Option (String × List Char)
  | '"' :: rest => do
    let (read, later) ← Literal.readUnits rest
    return (.ofList (← ofUtf16? read), later)
  | _ => none

theorem length_string? {cs rest : List Char} {text : String}
    (h : string? cs = some (text, rest)) : rest.length < cs.length := by
  unfold string? at h
  split at h
  · obtain ⟨⟨read, later⟩, inner, h⟩ := Option.bind_eq_some_iff.mp h
    obtain ⟨chars, -, h⟩ := Option.bind_eq_some_iff.mp h
    cases h
    exact Nat.lt_succ_of_lt (Literal.length_readUnits inner)
  · cases h

/-- Reads a string that may have white space around it, and what follows it. -/
def item? (cs : List Char) : Option (String × List Char) :=
  (string? (skip cs)).map fun (text, rest) => (text, skip rest)

theorem length_skip (cs : List Char) : (skip cs).length ≤ cs.length :=
  (List.dropWhile_sublist _).length_le

theorem length_item? {cs rest : List Char} {text : String}
    (h : item? cs = some (text, rest)) : rest.length < cs.length := by
  obtain ⟨⟨_, later⟩, read, h⟩ := Option.map_eq_some_iff.mp h
  cases h
  calc (skip later).length ≤ later.length := length_skip later
    _ < (skip cs).length := length_string? read
    _ ≤ cs.length := length_skip cs

/-- Reads strings with commas between them, up to the bracket that closes their array, and what
follows it. -/
def strings? (cs : List Char) : Option (List String × List Char) :=
  match _ : item? cs with
  | some (text, ',' :: rest) => (strings? rest).map fun (texts, rest) => (text :: texts, rest)
  | some (text, ']' :: rest) => some ([text], rest)
  | _ => none
termination_by cs.length
decreasing_by
  have shorter := length_item? ‹item? cs = some _›
  rw [List.length_cons] at shorter
  omega

/-- Reads an array behind the bracket that opens it, and what follows it. -/
def elements? (cs : List Char) : Option (List String × List Char) :=
  match skip cs with
  | ']' :: rest => some ([], rest)
  | _ => strings? cs

/-- The texts of which a text is an array. -/
def array? (text : String) : Option (List String) :=
  match skip text.toList with
  | '[' :: inside => do
    let (texts, rest) ← elements? inside
    if skip rest = [] then some texts else none
  | _ => none

/-- White space, other escapes and capital digits are read as well. -/
example : array? " [ \"\\u0041\\/\" ,\"\\uD83D\\uDE42\"]\n" = some ["A/", "🙂"] := by
  decide +kernel

/-! ## Arrays that are written -/

section Reading
variable {cs rest : List Char} {text : String}

theorem strings?_comma (h : item? cs = some (text, ',' :: rest)) :
    strings? cs = (strings? rest).map fun (texts, rest) => (text :: texts, rest) := by
  rw [strings?]
  split
  · next found =>
    cases found.symm.trans h
    rfl
  · next found => cases found.symm.trans h
  · next other _ => exact absurd h (other _ _)

theorem strings?_bracket (h : item? cs = some (text, ']' :: rest)) :
    strings? cs = some ([text], rest) := by
  rw [strings?]
  split
  · next found => cases found.symm.trans h
  · next found =>
    cases found.symm.trans h
    rfl
  · next _ other => exact absurd h (other _ _)

theorem skip_of_not_space {c : Char} (h : isSpace c = false) (rest : List Char) :
    skip (c :: rest) = c :: rest :=
  List.dropWhile_cons_of_neg (by simp [h])

/-- A literal is read as its text, whatever follows it. -/
theorem string?_literal (text : String) (rest : List Char) :
    string? ((literal text).toList ++ rest) = some (text, rest) := by
  have spelled : (literal text).toList ++ rest =
      '"' :: (Literal.encode text.toList ++ '"' :: rest) := by simp [literal]
  rw [spelled, string?, Literal.readUnits_encode]
  simp [ofUtf16?_utf16]

/-- A literal behind white space is an item. -/
theorem item?_literal {lead : List Char} (blank : lead.all isSpace = true) (text : String)
    (rest : List Char) :
    item? (lead ++ (literal text).toList ++ rest) = some (text, skip rest) := by
  have quote : skip ((literal text).toList ++ rest) = (literal text).toList ++ rest := by
    rw [literal, String.toList_ofList, List.cons_append]
    exact skip_of_not_space (by decide) _
  rw [item?, skip, List.append_assoc, List.dropWhile_append_of_pos (List.all_eq_true.mp blank),
    ← skip, quote, string?_literal, Option.map_some]

end Reading

end Json

/-- Some texts as an array of string literals. -/
def stringArray (texts : List String) : String := "[" ++ commaList (texts.map literal) ++ "]"

namespace Json

theorem strings?_literals {lead : List Char} (blank : lead.all isSpace = true) (text : String)
    (texts : List String) (rest : List Char) :
    strings? (lead ++ ((commaList ((text :: texts).map literal)).toList ++ ']' :: rest)) =
      some (text :: texts, rest) := by
  induction texts generalizing lead text with
  | nil =>
    have alone : commaList ([text].map literal) = literal text := by simp [commaList]
    have bracket : skip (']' :: rest) = ']' :: rest := skip_of_not_space (by decide) rest
    refine strings?_bracket ?_
    rw [alone, ← List.append_assoc, item?_literal blank, bracket]
  | cons next texts ih =>
    have comma (more : List Char) : skip (',' :: more) = ',' :: more :=
      skip_of_not_space (by decide) more
    have whole : (commaList ((text :: next :: texts).map literal)).toList ++ ']' :: rest =
        (literal text).toList ++ ',' ::
          ([' '] ++ ((commaList ((next :: texts).map literal)).toList ++ ']' :: rest)) := by
      simp [commaList, String.intercalate_cons_cons]
    rw [whole, ← List.append_assoc, strings?_comma (by rw [item?_literal blank, comma]),
      ih (by decide), Option.map_some]

/-- **An array of literals is an array of their texts**, in the same order. -/
theorem array?_stringArray (texts : List String) : array? (stringArray texts) = some texts := by
  have spelled : (stringArray texts).toList =
      '[' :: ((commaList (texts.map literal)).toList ++ [']']) := by simp [stringArray]
  have inside : elements? ((commaList (texts.map literal)).toList ++ [']']) = some (texts, []) := by
    cases texts with
    | nil =>
      rw [elements?, List.map_nil, commaList, String.intercalate_nil, String.toList_empty,
        List.nil_append, skip_of_not_space (by decide)]
      rfl
    | cons text texts =>
      obtain ⟨later, quoted⟩ : ∃ later,
          (commaList ((text :: texts).map literal)).toList ++ [']'] = '"' :: later := by
        cases texts <;> simp [commaList, literal, String.intercalate_cons_cons]
      have read := strings?_literals List.all_nil text texts []
      rw [List.nil_append, quoted] at read
      rw [quoted, elements?, skip_of_not_space (by decide)]
      simp [read]
  rw [array?, spelled, skip_of_not_space (by decide)]
  simp only [inside, Option.bind_eq_bind, Option.bind_some]
  exact if_pos rfl

end Json

/-! ## Printable characters -/

/-- A character of printable ASCII. -/
def IsPrintable (c : Char) : Prop := 0x20 ≤ c.toNat ∧ c.toNat < 0x7F

instance (c : Char) : Decidable (IsPrintable c) := inferInstanceAs (Decidable (_ ∧ _))

theorem isPrintable_of_all {cs : List Char} (h : (cs.all fun c => IsPrintable c) = true) :
    ∀ c ∈ cs, IsPrintable c :=
  fun c hc => of_decide_eq_true (List.all_eq_true.mp h c hc)

theorem isPrintable_hexDigit {n : Nat} (h : n < 16) : IsPrintable (hexDigit n) := by
  have all : ∀ n < 16, IsPrintable (hexDigit n) := by decide
  exact all n h

theorem isPrintable_hexDigits (width n : Nat) : ∀ c ∈ hexDigits width n, IsPrintable c := by
  induction width generalizing n with
  | zero => exact List.forall_mem_nil _
  | succ width ih =>
    have last : IsPrintable (hexDigit (n % 16)) :=
      isPrintable_hexDigit (Nat.mod_lt n (by decide))
    exact List.forall_mem_append.mpr ⟨ih (n / 16), List.forall_mem_singleton.mpr last⟩

theorem isPrintable_unitEscape (n : Nat) : ∀ c ∈ Literal.unitEscape n, IsPrintable c :=
  List.forall_mem_append.mpr
    ⟨isPrintable_of_all (show List.all ['\\', 'u'] _ = true by decide), isPrintable_hexDigits 4 n⟩

/-- Whatever a character is, it is written in printable characters. -/
theorem isPrintable_encodeChar (c : Char) : ∀ d ∈ Literal.encodeChar c, IsPrintable d := by
  unfold Literal.encodeChar
  split_ifs with quote backslash feed carriage tab backspace page control printable basic
  any_goals exact isPrintable_of_all rfl
  · exact isPrintable_unitEscape _
  · exact List.forall_mem_singleton.mpr ⟨by omega, printable⟩
  · exact isPrintable_unitEscape _
  · exact List.forall_mem_append.mpr ⟨isPrintable_unitEscape _, isPrintable_unitEscape _⟩

theorem isPrintable_literal (text : String) : ∀ c ∈ (literal text).toList, IsPrintable c := by
  rw [literal, String.toList_ofList]
  refine List.forall_mem_cons.mpr ⟨by decide, List.forall_mem_append.mpr
    ⟨fun c hc => ?_, isPrintable_of_all rfl⟩⟩
  obtain ⟨d, -, hc⟩ := List.mem_flatMap.mp hc
  exact isPrintable_encodeChar d c hc

theorem isPrintable_commaList {texts : List String}
    (each : ∀ text ∈ texts, ∀ c ∈ text.toList, IsPrintable c) :
    ∀ c ∈ (commaList texts).toList, IsPrintable c := by
  induction texts with
  | nil => exact List.forall_mem_nil _
  | cons text rest ih =>
    obtain ⟨own, later⟩ := List.forall_mem_cons.mp each
    cases rest with
    | nil =>
      rw [commaList, String.intercalate_singleton]
      exact own
    | cons next more =>
      rw [commaList, String.intercalate_cons_cons, String.toList_append, String.toList_append]
      exact List.forall_mem_append.mpr ⟨List.forall_mem_append.mpr
        ⟨own, isPrintable_of_all (by decide)⟩, ih later⟩

/-- An array is printable, whatever its texts are. -/
theorem isPrintable_stringArray (texts : List String) :
    ∀ c ∈ (stringArray texts).toList, IsPrintable c := by
  have elements : ∀ c ∈ (commaList (texts.map literal)).toList, IsPrintable c :=
    isPrintable_commaList (List.forall_mem_map.mpr fun text _ => isPrintable_literal text)
  rw [stringArray, String.toList_append, String.toList_append]
  exact List.forall_mem_append.mpr ⟨List.forall_mem_append.mpr
    ⟨isPrintable_of_all (by decide), elements⟩, isPrintable_of_all (by decide)⟩

end TypedApi.Text
