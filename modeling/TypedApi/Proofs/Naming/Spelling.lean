import TypedApi.Proofs.Code.Import
import TypedApi.Proofs.Naming.Casing
import TypedApi.Proofs.Output.TagFiles

/-! # The characters of accepted names

The words of an accepted name consist of letters, digits and underscores, and no spelling starts at
a digit.  A word may have a line feed behind it, though.  In a tag name the line feed would be a
blank between two words, and at the end of a name it is trimmed off, but inside a schema name it
stays in front of the capital at which the next word starts.  So tag names are always clean, and a
schema name is clean exactly if it has no line feed inside (`Identifier.clean_iff`).
-/
namespace TypedApi

/-- An identifier over a class of characters: not empty, and with no digit in front. -/
structure IsIdentifierOver (p : Char → Bool) (text : String) : Prop where
  start : ∃ c rest, text.toList = c :: rest ∧ c.isDigit = false
  chars : ∀ c ∈ text.toList, p c = true

/-- Nonempty words over a class of characters in lower case, with hyphens between them. -/
def IsHyphenatedOver (p : Char → Bool) (text : String) : Prop :=
  ∃ words : List (List Char), words ≠ [] ∧ text.toList = ['-'].intercalate words ∧
    ∀ word ∈ words, word ≠ [] ∧ ∀ c ∈ word, p c = true ∧ c.isUpper = false

theorem IsIdentifierOver.append {p : Char → Bool} {text ending : String}
    (h : IsIdentifierOver p text) (more : ∀ c ∈ ending.toList, p c = true) :
    IsIdentifierOver p (text ++ ending) := by
  obtain ⟨c, rest, split, start⟩ := h.start
  refine ⟨⟨c, rest ++ ending.toList, ?_, start⟩, fun d hd => ?_⟩
  · rw [String.toList_append, split, List.cons_append]
  · rw [String.toList_append, List.mem_append] at hd
    exact hd.elim (h.chars d) (more d)

theorem IsHyphenatedOver.chars {p : Char → Bool} {text : String} (h : IsHyphenatedOver p text) :
    ∀ c ∈ text.toList, p c = true ∨ c = '-' := by
  obtain ⟨words, -, split, spelled⟩ := h
  intro c hc
  rw [split] at hc
  rcases Identifier.mem_intercalate hc with hc | ⟨word, hw, hc⟩
  · exact .inr (List.mem_singleton.mp hc)
  · exact .inl ((spelled word hw).2 c hc).1

namespace Identifier

/-- The spellings of a name in generated code are over a class of characters, and so are the names
that are made of them. -/
structure SpelledOver (p : Char → Bool) (name : Identifier) : Prop where
  lowerCamel : IsIdentifierOver p name.lowerCamel
  upperCamel : IsIdentifierOver p name.upperCamel
  kebab : IsHyphenatedOver p name.kebab
  functions : ∀ lead ∈ ["values", "print", "validate"],
    IsIdentifierOver p (lead ++ name.upperCamel)
  classes : ∀ mode, IsIdentifierOver p (Index.classImport mode name).name
  paths : ∀ folder, ∀ c ∈ (Code.modulePath folder name.kebab).toList,
    p c = true ∨ c ∈ ['-', '/', '.']

/-- All that is written of a name consists of letters, digits and underscores. -/
abbrev Clean (name : Identifier) : Prop := name.SpelledOver Text.isPlainWordChar

/-- A letter, a digit, an underscore or a line feed. -/
def isPlainOrFeed (c : Char) : Bool := Text.isPlainWordChar c || c == '\n'

/-! ## Casing and classes -/

/-- The class holds the letters, digits and underscores, and is closed under casing. -/
structure IsCasedClass (p : Char → Bool) : Prop where
  plain : ∀ c, Text.isPlainWordChar c = true → p c = true
  toLower : ∀ c, p c.toLower = p c
  toUpper : ∀ c, p c.toUpper = p c

theorem isCasedClass_plain : IsCasedClass Text.isPlainWordChar :=
  ⟨fun _ h => h, isPlainWordChar_toLower, isPlainWordChar_toUpper⟩

theorem isPlainOrFeed_toLower (c : Char) : isPlainOrFeed c.toLower = isPlainOrFeed c := by
  by_cases upper : c.isUpper = true
  · have plain : Text.isPlainWordChar c = true := by
      simp [Text.isPlainWordChar, Char.isAlphanum, Char.isAlpha, upper]
    rw [isPlainOrFeed, isPlainOrFeed, isPlainWordChar_toLower, plain, Bool.true_or, Bool.true_or]
  · rw [Char.toLower_eq_of_not_isUpper upper]

theorem isCasedClass_plainOrFeed : IsCasedClass isPlainOrFeed := by
  refine ⟨fun c h => by rw [isPlainOrFeed, h, Bool.true_or], isPlainOrFeed_toLower, fun c => ?_⟩
  rw [← isPlainOrFeed_toLower, Char.toLower_toUpper_eq_toLower, isPlainOrFeed_toLower]

theorem not_isDigit_of_isAlpha {c : Char} (h : c.isAlpha = true) : c.isDigit = false := by
  simp only [Char.isAlpha, Char.isUpper, Char.isLower, Bool.or_eq_true, Bool.and_eq_true,
    decide_eq_true_eq, UInt32.le_iff_toNat_le, ge_iff_le] at h
  rw [Bool.eq_false_iff]
  intro digit
  simp only [Char.isDigit, Bool.and_eq_true, decide_eq_true_eq, UInt32.le_iff_toNat_le,
    ge_iff_le] at digit
  have capital : (65 : Nat) = 'A'.val.toNat := rfl
  have small : (97 : Nat) = 'a'.val.toNat := rfl
  have last : '9'.val.toNat = 57 := rfl
  omega

theorem isDigit_toLower (c : Char) : c.toLower.isDigit = c.isDigit := by
  by_cases upper : c.isUpper = true
  · have alpha : c.isAlpha = true := by rw [Char.isAlpha, upper, Bool.true_or]
    rw [not_isDigit_of_isAlpha alpha, not_isDigit_of_isAlpha]
    rw [Char.isAlpha_toLower_eq_isAlpha, alpha]
  · rw [Char.toLower_eq_of_not_isUpper upper]

theorem isDigit_toUpper (c : Char) : c.toUpper.isDigit = c.isDigit := by
  rw [← isDigit_toLower, Char.toLower_toUpper_eq_toLower, isDigit_toLower]

/-! ## Spellings of accepted words -/

section Spellings
variable {p : Char → Bool} {words : List (List Char)} {name : Identifier}

theorem SpelledOver.of_spellings (class_ : IsCasedClass p)
    (lowerCamel : IsIdentifierOver p name.lowerCamel)
    (upperCamel : IsIdentifierOver p name.upperCamel) (kebab : IsHyphenatedOver p name.kebab) :
    name.SpelledOver p := by
  have plain : ∀ text : String, text.toList.all Text.isPlainWordChar = true →
      ∀ c ∈ text.toList, p c = true := fun text h c hc =>
    class_.plain c (List.all_eq_true.mp h c hc)
  refine ⟨lowerCamel, upperCamel, kebab, fun lead hl => ?_, fun mode => ?_, fun folder c hc => ?_⟩
  · have leads : ∀ lead ∈ ["values", "print", "validate"],
        lead.toList.all Text.isPlainWordChar = true ∧
          (lead.toList.head?.any fun c => !c.isDigit) = true := by decide
    obtain ⟨letters, start⟩ := leads lead hl
    obtain ⟨c, first, digit⟩ := (Option.any_eq_true _ _).mp start
    obtain ⟨rest, split⟩ := List.head?_eq_some_iff.mp first
    exact IsIdentifierOver.append ⟨⟨c, rest, split, by simpa using digit⟩, plain lead letters⟩
      upperCamel.chars
  · cases mode with
    | api => exact upperCamel.append (plain "Api" (by decide))
    | client => exact upperCamel.append (plain "Client" (by decide))
  · -- around the file name stand the folder and the extension
    have frame : ∀ text : String,
        (text.toList.all fun c => Text.isPlainWordChar c || c == '/' || c == '.') = true →
        c ∈ text.toList → p c = true ∨ c ∈ ['-', '/', '.'] := by
      intro text h hc
      have := List.all_eq_true.mp h c hc
      simp only [Bool.or_eq_true, beq_iff_eq] at this
      rcases this with (letter | rfl) | rfl
      · exact .inl (class_.plain c letter)
      · exact .inr (by decide)
      · exact .inr (by decide)
    have file : c ∈ name.kebab.toList → p c = true ∨ c ∈ ['-', '/', '.'] := fun hc =>
      (kebab.chars c hc).imp_right fun hyphen => by rw [hyphen]; decide
    have below : c ∈ (name.kebab ++ ".ts").toList → p c = true ∨ c ∈ ['-', '/', '.'] := by
      intro hc
      rw [String.toList_append, List.mem_append] at hc
      exact hc.elim file (frame ".ts" (by decide))
    cases folder with
    | none => exact below hc
    | some folder =>
      rw [Code.modulePath, String.append_assoc, String.toList_append, List.mem_append] at hc
      refine hc.elim (frame _ ?_) below
      cases folder <;> decide

/-- The words of a name without those characters are spelled without them. -/
theorem spelledOver_spell (class_ : IsCasedClass p) (accepted : Accepted words)
    (inside : ∀ word ∈ words, ∀ c ∈ word, p c = true) : (spell words).SpelledOver p := by
  have lowered_inside : ∀ word ∈ words, ∀ c ∈ lowered word, p c = true := by
    intro word hw c hc
    obtain ⟨d, hd, rfl⟩ := mem_lowered hc
    rw [class_.toLower]
    exact inside word hw d hd
  have capitalized_inside : ∀ word ∈ words, ∀ c ∈ capitalized word, p c = true := by
    intro word hw c hc
    obtain ⟨d, hd, rfl | rfl⟩ := mem_capitalized hc
    · rw [class_.toLower]
      exact inside word hw d hd
    · rw [class_.toUpper]
      exact inside word hw d hd
  have nonempty : ∀ word ∈ words, word ≠ [] := by
    rintro word hw rfl
    cases accepted.named [] hw
  obtain ⟨c, rest, later, split, digit⟩ := accepted.start
  have first : c :: rest ∈ words := split ▸ List.mem_cons_self
  have variable_start : (spell words).lowerCamel.toList =
      c.toLower :: (lowered rest ++ later.flatMap capitalized) := by
    simp [spell, split, lowered]
  have type_start : (spell words).upperCamel.toList =
      c.toUpper :: (lowered rest ++ later.flatMap capitalized) := by
    simp [spell, split, capitalized_cons]
  refine .of_spellings class_
    ⟨⟨_, _, variable_start, by rw [isDigit_toLower, digit]⟩, fun d hd => ?_⟩
    ⟨⟨_, _, type_start, by rw [isDigit_toUpper, digit]⟩, fun d hd => ?_⟩
    ⟨words.map lowered, by simp [split], toList_kebab words, fun part hp => ?_⟩
  · rw [spell, String.toList_ofList, List.mem_append] at hd
    rcases hd with hd | hd
    · rw [split, List.headD_cons] at hd
      exact lowered_inside _ first d hd
    · obtain ⟨word, hw, hd⟩ := List.mem_flatMap.mp hd
      exact capitalized_inside word (List.mem_of_mem_tail hw) d hd
  · rw [spell, String.toList_ofList] at hd
    obtain ⟨word, hw, hd⟩ := List.mem_flatMap.mp hd
    exact capitalized_inside word hw d hd
  · obtain ⟨word, hw, rfl⟩ := List.mem_map.mp hp
    refine ⟨fun empty => nonempty word hw (List.map_eq_nil_iff.mp empty), fun d hd => ?_⟩
    exact ⟨lowered_inside word hw d hd, small_lowered word d hd⟩

end Spellings

/-! ## Tag names and schema names -/

/-- A word has no other characters than letters, digits, underscores and a line feed. -/
theorem isPlainOrFeed_of_isNameWord {word : List Char} (h : isNameWord word = true) {c : Char}
    (hc : c ∈ word) : isPlainOrFeed c = true := by
  by_cases feed : c = '\n'
  · rw [feed]
    decide
  · rw [isPlainOrFeed, plain_of_isNameWord h hc feed, Bool.true_or]

/-- The words of an accepted name are clean if no line feed is left in them. -/
theorem clean_of_accepted {words : List (List Char)} (accepted : Accepted words)
    (feed : ∀ word ∈ words, '\n' ∉ word) : (spell words).Clean := by
  refine spelledOver_spell isCasedClass_plain accepted fun word hw c hc => ?_
  exact plain_of_isNameWord (accepted.named word hw) hc fun h => feed word hw (h ▸ hc)

/-- A line feed in a word stays in the type name. -/
theorem feed_mem_upperCamel {words : List (List Char)} {word : List Char} (hw : word ∈ words)
    (feed : '\n' ∈ word) : '\n' ∈ (spell words).upperCamel.toList := by
  rw [spell, String.toList_ofList]
  refine List.mem_flatMap.mpr ⟨word, hw, ?_⟩
  obtain ⟨c, rest, rfl⟩ := List.exists_cons_of_ne_nil (List.ne_nil_of_mem feed)
  rw [capitalized_cons]
  rcases List.mem_cons.mp feed with rfl | feed
  · exact List.mem_cons_self
  · exact List.mem_cons_of_mem _ (List.mem_map.mpr ⟨'\n', feed, rfl⟩)

/-- **Clean names.**  An accepted tag name is clean.  An accepted schema name is spelled in letters,
digits, underscores and line feeds, and it is clean exactly if it has no line feed between its
ends. -/
theorem clean_iff {raw : String} {name : Identifier} :
    (ofSpaced raw = .ok name → name.Clean) ∧
    (ofHumped raw = .ok name → name.SpelledOver isPlainOrFeed ∧
      (name.Clean ↔ '\n' ∉ (Text.trim raw).toList)) := by
  constructor
  · intro h
    obtain ⟨rfl, accepted⟩ := ofSpaced_eq_ok h
    refine clean_of_accepted accepted fun word hw hc => ?_
    -- a line feed is blank, and tag names are split at blanks
    have visible := not_isBlank_of_mem_wordsFrom (List.forall_mem_nil _) hw hc
    exact absurd visible (by decide)
  · intro h
    obtain ⟨cs, trimmed, rfl, accepted⟩ := ofHumped_eq_ok h
    refine ⟨spelledOver_spell isCasedClass_plainOrFeed accepted fun word hw c hc =>
      isPlainOrFeed_of_isNameWord (accepted.named word hw) hc,
      fun clean feed => ?_, fun none_ => ?_⟩
    · rw [← trimmed, ← flatten_humps cs] at feed
      obtain ⟨word, hw, hc⟩ := List.mem_flatten.mp feed
      exact absurd (clean.upperCamel.chars _ (feed_mem_upperCamel hw hc)) (by decide)
    · refine clean_of_accepted accepted fun word hw hc => none_ ?_
      rw [← trimmed]
      exact mem_of_mem_humps hw hc

/-- Blanks of any kind are only allowed between the words of a tag name. -/
theorem clean_iff_petStore :
    ∃ tag schema, ofSpaced " pet\nstore" = .ok tag ∧ ofHumped " petStore2\n" = .ok schema ∧
      tag.Clean ∧ schema.Clean := by
  have tag : ofSpaced " pet\nstore" = .ok (spell ["pet".toList, "store".toList]) :=
    Except.eq_ok_of_toOption (by decide +kernel)
  have schema : ofHumped " petStore2\n" = .ok (spell ["pet".toList, "Store2".toList]) :=
    Except.eq_ok_of_toOption (by decide +kernel)
  exact ⟨_, _, tag, schema, clean_iff.1 tag, (clean_iff.2 schema).2.mpr (by decide +kernel)⟩

/-- A line feed in front of a capital gets into all spellings. -/
theorem not_clean_fooBar :
    ∃ name, ofHumped "foo\nBar" = .ok name ∧ name.lowerCamel = "foo\nBar" ∧
      name.upperCamel = "Foo\nBar" ∧ name.kebab = "foo\n-bar" ∧ ¬ name.Clean := by
  have accepted : ofHumped "foo\nBar" = .ok (spell ["foo\n".toList, "Bar".toList]) :=
    Except.eq_ok_of_toOption (by decide +kernel)
  refine ⟨_, accepted, by decide +kernel, by decide +kernel, by decide +kernel, fun clean => ?_⟩
  exact absurd (clean.upperCamel.chars '\n' (by decide +kernel)) (by decide)

end Identifier
end TypedApi
