import Mathlib
import TypedApi.Text.Blank
import TypedApi.Text.Word

/-! # Words and what stands around them

A word of a class may have a line feed behind it (`isWordOf_iff`), which is not read as a part of it
(`takeWhile_of_isWord`).  No character of a word is blank, so that trimming leaves words as they are
(`trim_of_isWordChar`), as it leaves every text that has no blank at its ends
(`trim_of_visibleEnds`).
-/
namespace TypedApi.Text

variable {p : Char → Bool} {cs word : List Char}

/-- What is read of a word stops in front of the line feed. -/
theorem takeWhile_of_isWord (feed : p '\n' = false) (all : ∀ c ∈ word, p c = true)
    (h : cs = word ∨ cs = word ++ ['\n']) : cs.takeWhile p = word := by
  rcases h with rfl | rfl
  · exact List.takeWhile_eq_self_iff.mpr all
  · rw [List.takeWhile_append_of_pos all, List.takeWhile_cons_of_neg (by simp [feed]),
      List.append_nil]

theorem isWordOf_iff (feed : p '\n' = false) :
    isWordOf p cs = true ↔
      ∃ word, word ≠ [] ∧ (∀ c ∈ word, p c = true) ∧ (cs = word ∨ cs = word ++ ['\n']) := by
  simp only [isWordOf, Bool.and_eq_true, Bool.not_eq_true', List.isEmpty_eq_false_iff,
    Bool.or_eq_true, beq_iff_eq]
  constructor
  · rintro ⟨nonempty, rest⟩
    have split := List.takeWhile_append_dropWhile (p := p) (l := cs)
    refine ⟨_, nonempty, fun c hc => List.mem_takeWhile_imp hc,
      rest.imp (fun none_ => ?_) fun behind => ?_⟩
    · rw [none_, List.append_nil] at split
      exact split.symm
    · rw [behind] at split
      exact split.symm
  · rintro ⟨word, nonempty, all, h⟩
    refine ⟨(takeWhile_of_isWord feed all h).symm ▸ nonempty, ?_⟩
    rcases h with rfl | rfl
    · exact .inl (List.dropWhile_eq_nil_iff.mpr all)
    · rw [List.dropWhile_append_of_pos all, List.dropWhile_cons_of_neg (by simp [feed])]
      exact .inr rfl

theorem isWordChar_lineFeed : isWordChar '\n' = false := by decide +kernel

/-! ## Blanks -/

/-- The code points of the blank characters, as inclusive ranges. -/
def blankRanges : List (Nat × Nat) :=
  [(9, 13), (28, 32), (0x85, 0x85), (0xA0, 0xA0), (0x1680, 0x1680), (0x2000, 0x200A),
   (0x2028, 0x2029), (0x202F, 0x202F), (0x205F, 0x205F), (0x3000, 0x3000)]

theorem inRanges_of_isBlank {c : Char} (h : isBlank c = true) :
    inRanges blankRanges c.toNat = true := by
  simp only [isBlank, Bool.or_eq_true, Bool.and_eq_true, decide_eq_true_eq, beq_iff_eq] at h
  simp only [inRanges, blankRanges, List.any_cons, List.any_nil, Bool.or_eq_true,
    Bool.and_eq_true, decide_eq_true_eq]
  omega

/-- The code points of the letters, digits and the underscore of ASCII. -/
def plainRanges : List (Nat × Nat) :=
  [(48, 57), (65, 90), (95, 95), (97, 122)]

theorem inRanges_of_isPlainWordChar {c : Char} (h : isPlainWordChar c = true) :
    inRanges plainRanges c.toNat = true := by
  simp only [isPlainWordChar, Char.isAlphanum, Char.isAlpha, Char.isUpper, Char.isLower,
    Char.isDigit, Bool.or_eq_true, Bool.and_eq_true, decide_eq_true_eq, beq_iff_eq,
    UInt32.le_iff_toNat_le] at h
  simp only [inRanges, plainRanges, List.any_cons, List.any_nil, Bool.or_eq_true,
    Bool.and_eq_true, decide_eq_true_eq]
  rcases h with ((⟨low, high⟩ | ⟨low, high⟩) | ⟨low, high⟩) | rfl
  · exact .inr (.inl ⟨low, high⟩)
  · exact .inr (.inr (.inr (.inl ⟨low, high⟩)))
  · exact .inl ⟨low, high⟩
  · exact .inr (.inr (.inl ⟨Nat.le_refl _, Nat.le_refl _⟩))

/-- Letters, digits and the underscore of ASCII are word characters of any script. -/
theorem isWordChar_of_plain {c : Char} (h : isPlainWordChar c = true) : isWordChar c = true := by
  have inside := inRanges_of_isPlainWordChar h
  simp only [inRanges, plainRanges, List.any_cons, List.any_nil, Bool.or_eq_true,
    Bool.and_eq_true, decide_eq_true_eq, Bool.false_eq_true, or_false] at inside
  exact isWordChar_of_isPlainWordChar h (by omega)

/-- Ranges that lie apart have no number in common. -/
theorem inRanges_eq_false {ranges others : List (Nat × Nat)} {n : Nat}
    (apart : ∀ r ∈ ranges, ∀ o ∈ others, r.2 < o.1 ∨ o.2 < r.1)
    (h : inRanges ranges n = true) : inRanges others n = false := by
  simp only [inRanges, List.any_eq_true, Bool.and_eq_true, decide_eq_true_eq] at h
  obtain ⟨r, hr, low, high⟩ := h
  rw [inRanges, List.any_eq_false]
  intro o ho inside
  rw [Bool.and_eq_true, decide_eq_true_eq, decide_eq_true_eq] at inside
  have := apart r hr o ho
  omega

theorem not_isBlank_of_isWordChar {c : Char} (h : isWordChar c = true) : isBlank c = false := by
  cases blank : isBlank c with
  | false => rfl
  | true =>
    have inside := inRanges_of_isBlank blank
    unfold isWordChar at h
    split at h
    · have := inRanges_of_isPlainWordChar h
      rw [inRanges_eq_false (by decide) inside] at this
      cases this
    · rw [inRanges_eq_false (by decide +kernel) inside] at h
      cases h

/-! ## Trimming -/

/-- A text that neither starts nor ends with a blank. -/
structure VisibleEnds (cs : List Char) : Prop where
  start : ∀ c ∈ cs.head?, isBlank c = false
  last : ∀ c ∈ cs.getLast?, isBlank c = false

theorem getLast?_trimEnd (cs : List Char) : ∀ c ∈ (trimEnd cs).getLast?, isBlank c = false := by
  induction cs with
  | nil =>
    intro c hc
    cases hc
  | cons d rest ih =>
    intro c hc
    rw [trimEnd] at hc
    cases kept : trimEnd rest with
    | nil =>
      rw [kept] at hc
      simp only at hc
      split at hc
      · cases hc
      · next visible =>
        cases hc
        simpa using visible
    | cons e later =>
      rw [kept] at hc ih
      exact ih c (by rwa [List.getLast?_cons_cons] at hc)

theorem head?_trimStart (cs : List Char) : ∀ c ∈ (trimStart cs).head?, isBlank c = false := by
  intro c hc
  have := List.head?_dropWhile_not isBlank cs
  rw [trimStart] at hc
  rw [hc] at this
  simpa using this

/-- Trimming leaves no blank at the ends. -/
theorem visibleEnds_trim (s : String) : VisibleEnds (trim s).toList := by
  rw [trim, String.toList_ofList]
  refine ⟨fun c hc => ?_, getLast?_trimEnd _⟩
  obtain ⟨blanks, split, -⟩ := trimEnd_append (trimStart s.toList)
  refine head?_trimStart s.toList c ?_
  rw [split, List.head?_append, Option.mem_def.mp hc]
  rfl

/-- **Trimming only affects the ends.** -/
theorem trim_of_visibleEnds (h : VisibleEnds cs) : trim (.ofList cs) = .ofList cs := by
  have start : trimStart cs = cs := by
    cases cs with
    | nil => rfl
    | cons c rest => exact List.dropWhile_cons_of_neg (by simp [h.start c rfl])
  have ending : trimEnd cs = cs := by
    obtain ⟨blanks, split, blank⟩ := trimEnd_append cs
    rcases List.eq_nil_or_concat' blanks with rfl | ⟨front, c, rfl⟩
    · rw [List.append_nil] at split
      exact split.symm
    · -- the last one of the blanks would be the end of the text
      have last := h.last c (by rw [split, ← List.append_assoc]; exact List.getLast?_concat)
      rw [blank c (by simp)] at last
      cases last
  rw [trim, String.toList_ofList, start, ending]

theorem visibleEnds_of_not_isBlank (h : ∀ c ∈ cs, isBlank c = false) : VisibleEnds cs :=
  ⟨fun c hc => h c (List.mem_of_mem_head? hc), fun c hc => h c (List.mem_of_mem_getLast? hc)⟩

/-- A text without blanks is left as it is. -/
theorem trim_of_isWordChar (h : ∀ c ∈ cs, isWordChar c = true) :
    trim (.ofList cs) = .ofList cs :=
  trim_of_visibleEnds (visibleEnds_of_not_isBlank fun c hc => not_isBlank_of_isWordChar (h c hc))

end TypedApi.Text
