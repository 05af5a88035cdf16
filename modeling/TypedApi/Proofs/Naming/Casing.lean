import Mathlib
import TypedApi.Code.Name
import TypedApi.Naming.Identifier
import TypedApi.Schema.Classify

/-! # The casings of a name

An accepted name is a list of words, and every spelling but the displayed one is computed from the
words in lower case.  In the camel casings each word after the first starts at a capital and has no
other one, so that the words can be found again: two schema names with the same type name have the
same file name (`kebab_eq_of_upperCamel_eq`).  The type name starts at a capital or an underscore
(`upperCamel_start`), and a name that a reference or a tag spells is written in letters, digits and
underscores, with hyphens in the file name only (`Plain`).
-/
namespace TypedApi
namespace Identifier

/-! ## Words that start at capitals -/

/-- No capital among the characters. -/
def Small (cs : List Char) : Prop := ∀ c ∈ cs, c.isUpper = false

/-- A capital and nothing but small characters after it. -/
def Capitalized (word : List Char) : Prop :=
  ∃ c rest, word = c :: rest ∧ c.isUpper = true ∧ Small rest

/-- **Capitals are boundaries.**  A small start and capitalized words after it are found again in
their concatenation. -/
theorem eq_of_append_flatten_eq {words others : List (List Char)}
    (hw : ∀ word ∈ words, Capitalized word) (ho : ∀ word ∈ others, Capitalized word)
    {start first : List Char} (hs : Small start) (hf : Small first)
    (h : start ++ words.flatten = first ++ others.flatten) :
    start = first ∧ words = others := by
  induction words generalizing start first others with
  | nil =>
    cases others with
    | nil => simpa using h
    | cons other rest =>
      obtain ⟨c, cs, rfl, hc, -⟩ := ho other List.mem_cons_self
      -- the capital of the other word would stand in the small start
      have : c ∈ start := by
        rw [List.flatten_nil, List.append_nil] at h
        simp [h]
      rw [hs c this] at hc
      cases hc
  | cons word words ih =>
    obtain ⟨c, cs, rfl, hc, hcs⟩ := hw word List.mem_cons_self
    cases others with
    | nil =>
      have : c ∈ first := by
        rw [List.flatten_nil, List.append_nil] at h
        simp [← h]
      rw [hf c this] at hc
      cases hc
    | cons other rest =>
      obtain ⟨d, ds, rfl, hd, hds⟩ := ho other List.mem_cons_self
      -- both starts are what stands before the first capital
      have hstart : start = first := by
        have cut : ∀ {l : List Char} (e : Char) (tail : List Char), Small l →
            e.isUpper = true → (l ++ e :: tail).takeWhile (fun x => !x.isUpper) = l := by
          intro l e tail hl he
          rw [List.takeWhile_append_of_pos fun x hx => by rw [hl x hx]; rfl,
            List.takeWhile_cons_of_neg (by simp [he]), List.append_nil]
        have := congrArg (List.takeWhile fun x => !x.isUpper) h
        rw [List.flatten_cons, List.flatten_cons, List.cons_append, List.cons_append,
          cut c _ hs hc, cut d _ hf hd] at this
        exact this
      subst hstart
      rw [List.append_cancel_left_eq, List.flatten_cons, List.flatten_cons, List.cons_append,
        List.cons_append, List.cons.injEq] at h
      obtain ⟨rfl, h⟩ := h
      obtain ⟨rfl, rfl⟩ := ih (fun w m => hw w (List.mem_cons_of_mem _ m))
        (fun w m => ho w (List.mem_cons_of_mem _ m)) hcs hds h
      exact ⟨rfl, rfl⟩

/-! ## The words of a schema name -/

theorem humps_cons (c : Char) (cs : List Char) :
    ∃ rest words, humps (c :: cs) = (c :: rest) :: words := by
  cases cs with
  | nil => exact ⟨[], [], rfl⟩
  | cons d cs =>
    rw [humps]
    split
    · exact ⟨[], _, rfl⟩
    · cases humps (d :: cs) with
      | nil => exact ⟨[], [], rfl⟩
      | cons word words => exact ⟨word, words, rfl⟩

/-- Each word after the first starts at a capital. -/
theorem tail_humps (cs : List Char) :
    ∀ word ∈ (humps cs).tail, ∃ c rest, word = c :: rest ∧ c.isUpper = true := by
  fun_induction humps cs with
  | case1 => simp
  | case2 c => simp
  | case3 c d rest boundary ih =>
    intro word hw
    obtain ⟨cs, words, split⟩ := humps_cons d rest
    rw [split] at ih hw
    rcases List.mem_cons.mp hw with rfl | hw
    · simp only [Bool.and_eq_true] at boundary
      exact ⟨d, cs, rfl, boundary.2⟩
    · exact ih word hw
  | case4 c d rest _ ih =>
    obtain ⟨cs, words, split⟩ := humps_cons d rest
    rw [split] at ih ⊢
    exact ih

/-! ## Names that are accepted -/

/-- The words of an accepted name: each is one, and the first starts at no digit. -/
structure Accepted (words : List (List Char)) : Prop where
  named : ∀ word ∈ words, isNameWord word = true
  start : ∃ c rest later, words = (c :: rest) :: later ∧ c.isDigit = false

theorem ofWords_eq_ok {raw : String} {words : List (List Char)} {name : Identifier}
    (h : ofWords raw words = .ok name) : name = spell words ∧ Accepted words := by
  unfold ofWords at h
  split at h
  · cases h
  · rename_i found
    have all : ∀ word ∈ words, isNameWord word = true := fun word hw => by
      simpa using List.find?_eq_none.mp found word hw
    split at h
    · rename_i c rest later
      split at h
      · cases h
      · rename_i digit
        cases h
        exact ⟨rfl, all, c, rest, later, rfl, by simpa using digit⟩
    · cases h

theorem ofWords_of_accepted (raw : String) {words : List (List Char)} (h : Accepted words) :
    ofWords raw words = .ok (spell words) := by
  have found : words.find? (fun word => !isNameWord word) = none :=
    List.find?_eq_none.mpr fun word hw => by simp [h.named word hw]
  obtain ⟨c, rest, later, rfl, letter⟩ := h.start
  unfold ofWords
  simp only [found, letter]
  rfl

theorem ofHumped_eq_ok {raw : String} {name : Identifier} (h : ofHumped raw = .ok name) :
    ∃ cs, cs = (Text.trim raw).toList ∧ name = spell (humps cs) ∧ Accepted (humps cs) := by
  simp only [ofHumped] at h
  split at h
  · cases h
  · exact ⟨_, rfl, ofWords_eq_ok h⟩

theorem ofSpaced_eq_ok {raw : String} {name : Identifier} (h : ofSpaced raw = .ok name) :
    name = spell (Text.blankSeparated raw) ∧ Accepted (Text.blankSeparated raw) := by
  unfold ofSpaced at h
  split at h
  · cases h
  · exact ofWords_eq_ok h

/-! ## One type name, one file name -/

theorem small_lowered (word : List Char) : Small (lowered word) := by
  intro c hc
  obtain ⟨d, -, rfl⟩ := List.mem_map.mp hc
  exact d.isUpper_toLower_eq_false

theorem capitalized_cons (c : Char) (rest : List Char) :
    capitalized (c :: rest) = c.toUpper :: lowered rest := by
  simp [capitalized, lowered]

/-- A word in lower case is found again in the word with a capital in front. -/
theorem lowered_capitalized (word : List Char) : lowered (capitalized word) = lowered word := by
  cases word with
  | nil => rfl
  | cons c rest => simp [capitalized_cons, lowered]

theorem capitalized_of_isUpper {c : Char} (rest : List Char) (h : c.isUpper = true) :
    Capitalized (capitalized (c :: rest)) := by
  refine ⟨c.toUpper, lowered rest, capitalized_cons c rest, ?_, small_lowered rest⟩
  rw [Char.isUpper_toUpper_eq_isAlpha, Char.isAlpha, h, Bool.true_or]

theorem capitalized_of_mem_tail_humps {cs word : List Char} (h : word ∈ (humps cs).tail) :
    Capitalized (capitalized word) := by
  obtain ⟨c, rest, rfl, hc⟩ := tail_humps cs word h
  exact capitalized_of_isUpper rest hc

/-- A capitalized word starts at a capital or has none. -/
theorem capitalized_cases (c : Char) (rest : List Char) :
    (c.toUpper.isUpper = true ∧ Capitalized (capitalized (c :: rest))) ∨
      (c.toUpper.isUpper = false ∧ Small (capitalized (c :: rest))) := by
  rw [capitalized_cons]
  cases hc : c.toUpper.isUpper with
  | true => exact .inl ⟨rfl, _, _, rfl, hc, small_lowered rest⟩
  | false => exact .inr ⟨rfl, List.forall_mem_cons.mpr ⟨hc, small_lowered rest⟩⟩

/-- The words of a name are found again in its type name, up to their casing. -/
theorem map_capitalized_eq {cs ds : List Char} (hc : cs ≠ []) (hd : ds ≠ [])
    (h : (humps cs).flatMap capitalized = (humps ds).flatMap capitalized) :
    (humps cs).map capitalized = (humps ds).map capitalized := by
  obtain ⟨c, cs, rfl⟩ := List.exists_cons_of_ne_nil hc
  obtain ⟨d, ds, rfl⟩ := List.exists_cons_of_ne_nil hd
  obtain ⟨r, words, split⟩ := humps_cons c cs
  obtain ⟨q, others, split'⟩ := humps_cons d ds
  have hw : ∀ word ∈ words.map capitalized, Capitalized word := by
    intro word hm
    obtain ⟨w, hw, rfl⟩ := List.mem_map.mp hm
    exact capitalized_of_mem_tail_humps (by rw [split]; exact hw)
  have ho : ∀ word ∈ others.map capitalized, Capitalized word := by
    intro word hm
    obtain ⟨w, hw, rfl⟩ := List.mem_map.mp hm
    exact capitalized_of_mem_tail_humps (by rw [split']; exact hw)
  rw [split, split', List.flatMap_def, List.flatMap_def, List.map_cons, List.map_cons] at h
  have first : c.toUpper = d.toUpper := by
    simp only [capitalized_cons, List.flatten_cons, List.cons_append, List.cons.injEq] at h
    exact h.1
  rw [split, split', List.map_cons, List.map_cons]
  -- the first words start alike, so both are capitalized or neither is
  have hf := capitalized_cases d q
  rw [← first] at hf
  rcases capitalized_cases c r with ⟨upper, start⟩ | ⟨lower, start⟩
  · -- the first words are capitalized like the others: nothing stands before them
    obtain ⟨-, start'⟩ := hf.resolve_right fun h => by simp [upper] at h
    exact (eq_of_append_flatten_eq (List.forall_mem_cons.mpr ⟨start, hw⟩)
      (List.forall_mem_cons.mpr ⟨start', ho⟩) (List.forall_mem_nil _) (List.forall_mem_nil _) h).2
  · obtain ⟨-, start'⟩ := hf.resolve_left fun h => by simp [lower] at h
    obtain ⟨same, rest⟩ := eq_of_append_flatten_eq hw ho start start' h
    rw [same, rest]

theorem ne_nil_of_accepted_humps {cs : List Char} (h : Accepted (humps cs)) : cs ≠ [] := by
  rintro rfl
  obtain ⟨c, rest, later, nonempty, -⟩ := h.start
  cases nonempty

/-- **One type name, one file name.**  Two schema names with the same type name have the same file
name, however they are spelled. -/
theorem kebab_eq_of_upperCamel_eq {raw raw' : String} {name other : Identifier}
    (h : ofHumped raw = .ok name) (h' : ofHumped raw' = .ok other)
    (same : name.upperCamel = other.upperCamel) : name.kebab = other.kebab := by
  obtain ⟨cs, -, rfl, accepted⟩ := ofHumped_eq_ok h
  obtain ⟨ds, -, rfl, accepted'⟩ := ofHumped_eq_ok h'
  have types := map_capitalized_eq (ne_nil_of_accepted_humps accepted)
    (ne_nil_of_accepted_humps accepted') (String.ofList_injective same)
  have words := congrArg (List.map lowered) types
  simp only [List.map_map, Function.comp_def, lowered_capitalized] at words
  show "-".intercalate ((humps cs).map fun word => String.ofList (lowered word)) =
    "-".intercalate ((humps ds).map fun word => String.ofList (lowered word))
  have texts := congrArg (List.map String.ofList) words
  simp only [List.map_map, Function.comp_def] at texts
  rw [texts]

/-! ## The characters of a name -/

theorem isPlainWordChar_toLower (c : Char) :
    Text.isPlainWordChar c.toLower = Text.isPlainWordChar c := by
  by_cases h : c.isUpper = true
  · have upper : c.isAlpha = true := by rw [Char.isAlpha, h, Bool.true_or]
    simp [Text.isPlainWordChar, Char.isAlphanum, upper]
  · rw [Char.toLower_eq_of_not_isUpper h]

theorem isPlainWordChar_toUpper (c : Char) :
    Text.isPlainWordChar c.toUpper = Text.isPlainWordChar c := by
  rw [← isPlainWordChar_toLower c.toUpper, Char.toLower_toUpper_eq_toLower,
    isPlainWordChar_toLower]

/-- The characters of a name word are those of names, but for a line feed. -/
theorem plain_of_isNameWord {word : List Char} (h : isNameWord word = true) {c : Char}
    (hc : c ∈ word) (feed : c ≠ '\n') : Text.isPlainWordChar c = true := by
  simp only [isNameWord, Text.isWordOf, Bool.and_eq_true, Bool.or_eq_true, beq_iff_eq] at h
  rw [← List.takeWhile_append_dropWhile (p := Text.isPlainWordChar) (l := word)] at hc
  rcases List.mem_append.mp hc with hc | hc
  · exact List.mem_takeWhile_imp hc
  · rcases h.2 with rest | rest
    · rw [rest] at hc
      cases hc
    · rw [rest, List.mem_singleton] at hc
      exact absurd hc feed

/-- A name whose type name consists of letters, digits and underscores, and whose file name may
have hyphens besides. -/
structure Plain (name : Identifier) : Prop where
  upperCamel : ∀ c ∈ name.upperCamel.toList, Text.isPlainWordChar c = true
  kebab : ∀ c ∈ name.kebab.toList, Text.isPlainWordChar c = true ∨ c = '-'
  kebab_ne_nil : name.kebab.toList ≠ []

theorem isNamePart_of_plain {c : Char} (h : Text.isPlainWordChar c = true) :
    Code.isNamePart c = true := by
  rw [Code.isNamePart, ← Text.isPlainWordChar, h, Bool.true_or]

theorem Plain.nameParts {name : Identifier} (plain : name.Plain) :
    ∀ c ∈ name.upperCamel.toList, Code.isNamePart c = true :=
  fun c hc => isNamePart_of_plain (plain.upperCamel c hc)

theorem mem_intercalate {sep : List Char} {parts : List (List Char)} {c : Char}
    (h : c ∈ sep.intercalate parts) : c ∈ sep ∨ ∃ part ∈ parts, c ∈ part := by
  induction parts with
  | nil => cases h
  | cons part rest ih =>
    cases rest with
    | nil =>
      rw [List.intercalate_singleton] at h
      exact .inr ⟨part, List.mem_singleton_self part, h⟩
    | cons next later =>
      rw [List.intercalate_cons_cons, List.append_assoc, List.mem_append, List.mem_append] at h
      rcases h with h | h | h
      · exact .inr ⟨part, List.mem_cons_self, h⟩
      · exact .inl h
      · exact (ih h).imp_right fun ⟨p, hp, hc⟩ => ⟨p, List.mem_cons_of_mem part hp, hc⟩

theorem mem_lowered {word : List Char} {c : Char} (h : c ∈ lowered word) :
    ∃ d ∈ word, c = d.toLower := by
  obtain ⟨d, hd, rfl⟩ := List.mem_map.mp h
  exact ⟨d, hd, rfl⟩

theorem mem_capitalized {word : List Char} {c : Char} (h : c ∈ capitalized word) :
    ∃ d ∈ word, c = d.toLower ∨ c = d.toUpper := by
  cases word with
  | nil => cases h
  | cons e rest =>
    rw [capitalized_cons] at h
    rcases List.mem_cons.mp h with rfl | h
    · exact ⟨e, List.mem_cons_self, .inr rfl⟩
    · obtain ⟨d, hd, rfl⟩ := mem_lowered h
      exact ⟨d, List.mem_cons_of_mem e hd, .inl rfl⟩

theorem toList_kebab (words : List (List Char)) :
    (spell words).kebab.toList = ['-'].intercalate (words.map lowered) := by
  simp [spell, String.toList_intercalate, Function.comp_def]

/-- The spellings of words without line feeds are plain. -/
theorem plain_spell {words : List (List Char)} (accepted : Accepted words)
    (feed : ∀ word ∈ words, '\n' ∉ word) : Plain (spell words) := by
  have plain : ∀ word ∈ words, ∀ c ∈ word, Text.isPlainWordChar c = true := fun word hw c hc =>
    plain_of_isNameWord (accepted.named word hw) hc fun h => feed word hw (h ▸ hc)
  refine ⟨fun c hc => ?_, fun c hc => ?_, fun h => ?_⟩
  · rw [spell, String.toList_ofList] at hc
    obtain ⟨word, hw, hc⟩ := List.mem_flatMap.mp hc
    obtain ⟨d, hd, rfl | rfl⟩ := mem_capitalized hc
    · rw [isPlainWordChar_toLower]
      exact plain word hw d hd
    · rw [isPlainWordChar_toUpper]
      exact plain word hw d hd
  · rw [toList_kebab] at hc
    rcases mem_intercalate hc with hc | ⟨part, hp, hc⟩
    · exact .inr (List.mem_singleton.mp hc)
    · obtain ⟨word, hw, rfl⟩ := List.mem_map.mp hp
      obtain ⟨d, hd, rfl⟩ := mem_lowered hc
      exact .inl ((isPlainWordChar_toLower d).trans (plain word hw d hd))
  · rw [toList_kebab] at h
    obtain ⟨c, rest, later, rfl, -⟩ := accepted.start
    cases later with
    | nil => simp [lowered] at h
    | cons _ _ => simp [lowered, List.intercalate_cons_cons] at h

theorem mem_of_mem_trim {raw : String} {c : Char} (h : c ∈ (Text.trim raw).toList) :
    c ∈ raw.toList := by
  rw [Text.trim, String.toList_ofList] at h
  obtain ⟨blanks, split, -⟩ := Text.trimEnd_append (Text.trimStart raw.toList)
  have : c ∈ Text.trimStart raw.toList := by
    rw [split]
    exact List.mem_append_left blanks h
  exact (List.dropWhile_sublist _).mem this

theorem mem_of_mem_humps {cs word : List Char} {c : Char} (hw : word ∈ humps cs) (hc : c ∈ word) :
    c ∈ cs := by
  rw [← flatten_humps cs]
  exact List.mem_flatten.mpr ⟨word, hw, hc⟩

theorem ofHumped_of_parseReference {reference : String} {name : Identifier}
    (h : parseReference reference = .ok name) : ∃ raw, ofHumped raw = .ok name := by
  simp only [parseReference] at h
  split at h
  · exact ⟨_, h⟩
  · cases h

/-- A name that a reference spells is plain. -/
theorem plain_of_parseReference {reference : String} {name : Identifier}
    (h : parseReference reference = .ok name) : name.Plain := by
  simp only [parseReference] at h
  split at h
  · obtain ⟨cs, trimmed, rfl, accepted⟩ := ofHumped_eq_ok h
    refine plain_spell accepted fun word hw hc => ?_
    have feed := mem_of_mem_humps hw hc
    rw [trimmed] at feed
    have := mem_of_mem_trim feed
    -- what a reference names is read up to the first character that no word has
    rw [String.toList_ofList] at this
    exact absurd (List.mem_takeWhile_imp this) (by decide)
  · cases h

theorem not_isBlank_of_mem_wordsFrom {word cs part : List Char} {c : Char}
    (hw : ∀ d ∈ word, Text.isBlank d = false) (hp : part ∈ Text.wordsFrom word cs)
    (hc : c ∈ part) : Text.isBlank c = false := by
  fun_induction Text.wordsFrom word cs with
  | case1 word empty => cases hp
  | case2 word nonempty =>
    rw [List.mem_singleton] at hp
    exact hw c (List.mem_reverse.mp (hp ▸ hc))
  | case3 word d rest blank empty ih => exact ih (List.forall_mem_nil _) hp
  | case4 word d rest blank nonempty ih =>
    rcases List.mem_cons.mp hp with rfl | hp
    · exact hw c (List.mem_reverse.mp hc)
    · exact ih (List.forall_mem_nil _) hp
  | case5 word d rest letter ih =>
    exact ih (List.forall_mem_cons.mpr ⟨by simpa using letter, hw⟩) hp

/-- A tag name is plain. -/
theorem plain_of_ofSpaced {raw : String} {name : Identifier} (h : ofSpaced raw = .ok name) :
    name.Plain := by
  obtain ⟨rfl, accepted⟩ := ofSpaced_eq_ok h
  refine plain_spell accepted fun word hw hc => ?_
  exact absurd (not_isBlank_of_mem_wordsFrom (List.forall_mem_nil _) hw hc) (by decide)

/-! ## One file name, one type name -/

/-- No word of a name has a character like a hyphen or a slash. -/
theorem notMem_lowered {word : List Char} (h : isNameWord word = true) {c : Char}
    (special : Text.isPlainWordChar c = false) (visible : c ≠ '\n') : c ∉ lowered word := by
  intro hm
  obtain ⟨d, hd, rfl⟩ := mem_lowered hm
  -- a word may end in a line feed, which is no such character either
  by_cases feed : d = '\n'
  · subst feed
    exact visible (by decide)
  · rw [isPlainWordChar_toLower, plain_of_isNameWord h hd feed] at special
    cases special

theorem splitOn_kebab {words : List (List Char)} (accepted : Accepted words) :
    (spell words).kebab.toList.splitOn '-' = words.map lowered := by
  obtain ⟨c, rest, later, rfl, -⟩ := accepted.start
  rw [toList_kebab, List.splitOn_intercalate]
  · intro part hp
    obtain ⟨word, hw, rfl⟩ := List.mem_map.mp hp
    exact notMem_lowered (accepted.named word hw) (by decide) (by decide)
  · simp

theorem capitalized_of_lowered {word other : List Char} (h : lowered word = lowered other) :
    capitalized word = capitalized other := by
  rw [capitalized, h, capitalized]

/-- The type name of words is known from the words in lower case. -/
theorem map_capitalized_of_map_lowered {words others : List (List Char)}
    (h : words.map lowered = others.map lowered) :
    words.map capitalized = others.map capitalized := by
  induction words generalizing others with
  | nil =>
    cases others with
    | nil => rfl
    | cons other rest => cases h
  | cons word words ih =>
    cases others with
    | nil => cases h
    | cons other rest =>
      obtain ⟨first, later⟩ := List.cons.inj h
      rw [List.map_cons, List.map_cons, capitalized_of_lowered first, ih later]

/-- **One file name, one type name.**  Two schema names with the same file name have the same type
name. -/
theorem upperCamel_eq_of_kebab_eq {raw raw' : String} {name other : Identifier}
    (h : ofHumped raw = .ok name) (h' : ofHumped raw' = .ok other)
    (same : name.kebab = other.kebab) : name.upperCamel = other.upperCamel := by
  obtain ⟨cs, -, rfl, accepted⟩ := ofHumped_eq_ok h
  obtain ⟨ds, -, rfl, accepted'⟩ := ofHumped_eq_ok h'
  have words := splitOn_kebab accepted
  rw [same, splitOn_kebab accepted'] at words
  have types := map_capitalized_of_map_lowered words
  show String.ofList ((humps cs).flatMap capitalized) =
    String.ofList ((humps ds).flatMap capitalized)
  rw [List.flatMap_def, List.flatMap_def, types]

/-! ## The first character of a type name -/

/-- The type name of accepted words starts at a capital or an underscore. -/
theorem upperCamel_start {words : List (List Char)} (accepted : Accepted words) :
    ∃ c rest, (spell words).upperCamel.toList = c :: rest ∧ (c.isUpper = true ∨ c = '_') := by
  obtain ⟨c, rest, later, rfl, digit⟩ := accepted.start
  refine ⟨c.toUpper, lowered rest ++ later.flatMap capitalized, ?_, ?_⟩
  · rw [spell, String.toList_ofList, List.flatMap_cons, capitalized_cons, List.cons_append]
  · have named := accepted.named (c :: rest) List.mem_cons_self
    have plain : Text.isPlainWordChar c = true := by
      by_cases hc : Text.isPlainWordChar c = true
      · exact hc
      · rw [isNameWord, Text.isWordOf, List.takeWhile_cons_of_neg hc] at named
        simp at named
    rw [Char.isUpper_toUpper_eq_isAlpha]
    -- a word character that is neither a letter nor a digit
    by_cases alpha : c.isAlpha = true
    · exact .inl alpha
    · refine .inr ?_
      have : c = '_' := by
        simpa [Text.isPlainWordChar, Char.isAlphanum, digit, alpha] using plain
      subst this
      rfl

/-! ## The variable of a name -/

/-- A word with an ASCII capital in front. -/
def raised : List Char → List Char
  | [] => []
  | c :: rest => c.toUpper :: rest

/-- The type name is the variable with a capital in front. -/
theorem upperCamel_eq_raised {words : List (List Char)} (accepted : Accepted words) :
    (spell words).upperCamel.toList = raised (spell words).lowerCamel.toList := by
  obtain ⟨c, rest, later, rfl, -⟩ := accepted.start
  simp [spell, raised, capitalized_cons, lowered]

/-- The variable of accepted words starts at no capital. -/
theorem lowerCamel_start {words : List (List Char)} (accepted : Accepted words) :
    ∃ c rest, (spell words).lowerCamel.toList = c :: rest ∧ c.isUpper = false := by
  obtain ⟨c, rest, later, rfl, -⟩ := accepted.start
  refine ⟨c.toLower, lowered rest ++ later.flatMap capitalized, ?_, c.isUpper_toLower_eq_false⟩
  simp [spell, lowered]

/-! ## File names beside type names -/

/-- File names are in lower case. -/
theorem small_kebab {words : List (List Char)} : Small (spell words).kebab.toList := by
  intro c hc
  rw [toList_kebab] at hc
  rcases mem_intercalate hc with hc | ⟨part, hp, hc⟩
  · rw [List.mem_singleton.mp hc]
    decide
  · obtain ⟨word, -, rfl⟩ := List.mem_map.mp hp
    exact small_lowered word c hc

/-- A file name is one segment of a path. -/
theorem slash_notMem_kebab {words : List (List Char)} (accepted : Accepted words) :
    '/' ∉ (spell words).kebab.toList := by
  intro hm
  rw [toList_kebab] at hm
  rcases mem_intercalate hm with hm | ⟨part, hp, hm⟩
  · exact absurd hm (by decide)
  · obtain ⟨word, hw, rfl⟩ := List.mem_map.mp hp
    exact notMem_lowered (accepted.named word hw) (by decide) (by decide) hm

/-- **A file name that is a type name.**  If the file of one tag is called like the type of another,
the name is a word behind an underscore, which no casing changes: the two types have one name. -/
theorem upperCamel_eq_of_kebab_eq_upperCamel {raw raw' : String} {name other : Identifier}
    (h : ofSpaced raw = .ok name) (h' : ofSpaced raw' = .ok other)
    (same : name.kebab = other.upperCamel) : name.upperCamel = other.upperCamel := by
  have plain := plain_of_ofSpaced h'
  obtain ⟨rfl, accepted⟩ := ofSpaced_eq_ok h
  obtain ⟨rfl, accepted'⟩ := ofSpaced_eq_ok h'
  -- a type name has no hyphen, so that the file name is one word
  have hyphen : '-' ∉ (spell (Text.blankSeparated raw)).kebab.toList := fun hm => by
    rw [same] at hm
    exact absurd (plain.upperCamel _ hm) (by decide)
  have words := splitOn_kebab accepted
  rw [List.splitOn_eq_singleton hyphen] at words
  obtain ⟨c, rest, later, split, -⟩ := accepted.start
  rw [split, List.map_cons, List.cons.injEq] at words
  obtain ⟨word, none⟩ := words
  cases List.map_eq_nil_iff.mp none.symm
  obtain ⟨d, tail, first, start⟩ := upperCamel_start accepted'
  rw [← split, same, first, lowered, List.map_cons, List.cons.injEq] at word
  obtain ⟨rfl, rfl⟩ := word
  have underscore : c.toLower = '_' :=
    start.resolve_left (by simp [c.isUpper_toLower_eq_false])
  have upper : c.toUpper = c.toLower := by
    rw [← Char.toUpper_toLower_eq_toUpper, underscore]
    rfl
  refine String.toList_injective ?_
  rw [first, split, spell, String.toList_ofList]
  simp [capitalized_cons, upper, lowered]

end Identifier
end TypedApi
