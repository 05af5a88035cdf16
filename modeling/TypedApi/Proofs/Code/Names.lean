import TypedApi.Proofs.Code.Words
import TypedApi.Proofs.Text.Word
import TypedApi.Text.Literal

/-! # Identifiers in generated code

A name counts as an identifier with a line feed behind it as well.  Written in a declaration it then
binds the identifier in front of the line feed (`boundName`).  Such names, and string literals of
them, hold no bracket, so that nothing in them looks called (`calls_eq_nil`, `calls_literal`).
-/
namespace TypedApi.Code

/-! ## Names that are bound -/

/-- The identifier that a written name binds. -/
def boundName (name : String) : String := .ofList (name.toList.takeWhile isNamePart)

theorem boundName_toList (name : String) :
    (boundName name).toList = name.toList.takeWhile isNamePart := String.toList_ofList

theorem isNamePart_of_isNameStart {c : Char} (h : isNameStart c = true) : isNamePart c = true := by
  simp only [isNameStart, isNamePart, Char.isAlphanum, Bool.or_eq_true] at h ⊢
  rcases h with (letter | underscore) | dollar
  · exact .inl (.inl (.inl letter))
  · exact .inl (.inr underscore)
  · exact .inr dollar

/-- An identifier is written with a line feed behind it or with nothing. -/
theorem isIdentifier_split {name : String} (h : isIdentifier name = true) :
    IsWord (boundName name) ∧ (name = boundName name ∨ name = boundName name ++ "\n") := by
  unfold isIdentifier at h
  split at h
  · cases h
  · rename_i c rest spelled
    obtain ⟨start, ending⟩ := Bool.and_eq_true_iff.mp h
    have bound : (boundName name).toList = c :: rest.takeWhile isNamePart := by
      rw [boundName_toList, spelled, List.takeWhile_cons_of_pos (isNamePart_of_isNameStart start)]
    have whole : name.toList = (boundName name).toList ++ rest.dropWhile isNamePart := by
      rw [bound, spelled, List.cons_append, List.takeWhile_append_dropWhile]
    refine ⟨⟨by rw [bound]; exact List.cons_ne_nil _ _, fun d hd => ?_⟩, ?_⟩
    · rw [boundName_toList] at hd
      exact List.mem_takeWhile_imp hd
    · rw [Bool.or_eq_true, beq_iff_eq, beq_iff_eq] at ending
      refine ending.imp (fun noFeed => ?_) fun feed => ?_
      · rw [noFeed, List.append_nil] at whole
        exact String.toList_inj.mp whole
      · rw [feed] at whole
        exact String.toList_inj.mp (by rw [whole, String.toList_append]; rfl)

theorem boundName_of_no_feed {name : String} (h : isIdentifier name = true)
    (noFeed : '\n' ∉ name.toList) : boundName name = name := by
  rcases (isIdentifier_split h).2 with same | feed
  · exact same.symm
  · rw [feed, String.toList_append] at noFeed
    exact absurd (List.mem_append_right _ (by decide)) noFeed

/-- What follows behind the identifier does not change what is bound. -/
theorem boundName_append {name rest : String} (h : rest.toList.takeWhile isNamePart = []) :
    boundName (name ++ rest) = boundName name := by
  have same : ∀ cs : List Char,
      (cs ++ rest.toList).takeWhile isNamePart = cs.takeWhile isNamePart := by
    intro cs
    induction cs with
    | nil => exact h
    | cons c later ih => rw [List.cons_append, List.takeWhile_cons, List.takeWhile_cons, ih]
  rw [boundName, boundName, String.toList_append, same]

/-! ## Texts that call nothing -/

/-- A text of characters of names and line feeds. -/
def Tame (text : String) : Prop := ∀ c ∈ text.toList, isNamePart c = true ∨ c = '\n'

theorem tame_of_isIdentifier {name : String} (h : isIdentifier name = true) : Tame name := by
  intro c hc
  obtain ⟨word, written⟩ := isIdentifier_split h
  rcases written with same | feed
  · rw [same] at hc
    exact .inl (word.parts c hc)
  · rw [feed, String.toList_append, List.mem_append] at hc
    exact hc.imp (word.parts c) List.mem_singleton.mp

theorem scan_eq_nil {word text : List Char} (h : ∀ c ∈ text, c ≠ '(' ∧ c ≠ '<') :
    scan opens word text = [] := by
  induction text generalizing word with
  | nil => simp [scan, wordBefore, opens]
  | cons c rest ih =>
    obtain ⟨⟨noArguments, noTypes⟩, later⟩ := List.forall_mem_cons.mp h
    by_cases part : isNamePart c = true
    · rw [scan_cons_of_namePart part]
      exact ih later
    · rw [scan_cons_of_not_namePart (by simpa using part), ih later]
      simp [wordBefore, opens, noArguments, noTypes]

/-- Without an opening bracket nothing is called. -/
theorem calls_eq_nil {text : String} (h : ∀ c ∈ text.toList, c ≠ '(' ∧ c ≠ '<') :
    wordsBefore opens text = [] := scan_eq_nil h

theorem not_opening_of_tame {c : Char} (h : isNamePart c = true ∨ c = '\n') :
    c ≠ '(' ∧ c ≠ '<' := by
  rcases h with part | rfl
  · constructor <;> rintro rfl <;> exact absurd part (by decide)
  · decide

/-- Characters of names are printable ASCII, without the quote and the backslash. -/
theorem toNat_of_isNamePart {c : Char} (h : isNamePart c = true) :
    34 < c.toNat ∧ c.toNat < 127 ∧ c.toNat ≠ 92 := by
  rcases Bool.or_eq_true_iff.mp h with plain | dollar
  · have inside := Text.inRanges_of_isPlainWordChar plain
    simp only [Text.inRanges, Text.plainRanges, List.any_cons, List.any_nil, Bool.or_eq_true,
      Bool.and_eq_true, decide_eq_true_eq, Bool.false_eq_true, or_false] at inside
    omega
  · rw [beq_iff_eq.mp dollar]
    decide

/-- In a string literal a character of a name stands for itself. -/
theorem encodeChar_of_isNamePart {c : Char} (h : isNamePart c = true) :
    Text.Literal.encodeChar c = [c] := by
  obtain ⟨low, high, other⟩ := toNat_of_isNamePart h
  have ne : ∀ d : Char, c.toNat ≠ d.toNat → ¬ (c == d) = true := by
    intro d different same
    exact different (congrArg Char.toNat (beq_iff_eq.mp same))
  have quote : ('"' : Char).toNat = 34 := rfl
  have backslash : ('\\' : Char).toNat = 92 := rfl
  have feed : ('\n' : Char).toNat = 10 := rfl
  have carriage : ('\r' : Char).toNat = 13 := rfl
  have tab : ('\t' : Char).toNat = 9 := rfl
  rw [Text.Literal.encodeChar, if_neg (ne _ (by omega)), if_neg (ne _ (by omega)),
    if_neg (ne _ (by omega)), if_neg (ne _ (by omega)), if_neg (ne _ (by omega)),
    if_neg (by rw [beq_iff_eq]; omega), if_neg (by rw [beq_iff_eq]; omega), if_neg (by omega),
    if_pos high]

theorem calls_literal {text : String} (h : Tame text) :
    wordsBefore opens (Text.literal text) = [] := by
  refine calls_eq_nil fun c hc => ?_
  rw [Text.literal, String.toList_ofList, List.mem_cons, List.mem_append, List.mem_singleton] at hc
  rcases hc with rfl | hc | rfl
  · decide
  · obtain ⟨d, hd, hc⟩ := List.mem_flatMap.mp hc
    rcases h d hd with part | rfl
    · rw [encodeChar_of_isNamePart part, List.mem_singleton] at hc
      exact hc ▸ not_opening_of_tame (.inl part)
    · have escape : Text.Literal.encodeChar '\n' = ['\\', 'n'] := rfl
      rw [escape, List.mem_cons, List.mem_singleton] at hc
      rcases hc with rfl | rfl <;> decide
  · decide

end TypedApi.Code
