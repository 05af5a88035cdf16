import TypedApi.Proofs.Naming.Spelling
import TypedApi.Proofs.Text.Word

/-! # The casings of schema names determine each other

All spellings of a name but the displayed one are computed from its words in lower case, and the
words of a schema name can be read off each of these spellings.  So two schema names agree in one
casing exactly if they agree in all of them.  The variable of a name can even be split again: the
words begin at its capitals, as no word but the last ends at one, so that the variable is a name of
its own with the same casings (`Identifier.ofHumped_casings`).  The type name cannot: the type of
`aB` is `AB`, which is one word.
-/
namespace TypedApi
namespace Identifier

/-! ## Words in lower case -/

/-- Two names are cased alike: they may differ in what is displayed. -/
structure CasedAlike (name other : Identifier) : Prop where
  lowerCamel : name.lowerCamel = other.lowerCamel
  upperCamel : name.upperCamel = other.upperCamel
  kebab : name.kebab = other.kebab

theorem lowered_lowered (word : List Char) : lowered (lowered word) = lowered word := by
  simp [lowered]

/-- **The words in lower case decide.**  Names whose words differ in capitals only are cased
alike. -/
theorem casedAlike_of_map_lowered {words others : List (List Char)}
    (h : words.map lowered = others.map lowered) : CasedAlike (spell words) (spell others) := by
  have types := map_capitalized_of_map_lowered h
  refine ⟨?variable_, ?type, String.toList_injective (by rw [toList_kebab, toList_kebab, h])⟩
  case variable_ =>
    have first : lowered (words.headD []) = lowered (others.headD []) := by
      have := congrArg (fun parts : List (List Char) => parts.headD []) h
      cases words <;> cases others <;> simp_all [lowered]
    have later := congrArg List.tail types
    rw [← List.map_tail, ← List.map_tail] at later
    simp only [spell, List.flatMap_def, first, later]
  case type => simp only [spell, List.flatMap_def, types]

/-! ## Reading the words off a spelling -/

section Readings
variable {words others : List (List Char)} {cs ds : List Char}

theorem map_lowered_of_map_capitalized (h : words.map capitalized = others.map capitalized) :
    words.map lowered = others.map lowered := by
  have := congrArg (List.map lowered) h
  simpa only [List.map_map, Function.comp_def, lowered_capitalized] using this

/-- The words of a schema name are read off its type name. -/
theorem upperCamel_eq_iff (h : Accepted (humps cs)) (h' : Accepted (humps ds)) :
    (spell (humps cs)).upperCamel = (spell (humps ds)).upperCamel ↔
      (humps cs).map lowered = (humps ds).map lowered :=
  ⟨fun same => map_lowered_of_map_capitalized (map_capitalized_eq (ne_nil_of_accepted_humps h)
      (ne_nil_of_accepted_humps h') (String.ofList_injective same)),
    fun same => (casedAlike_of_map_lowered same).upperCamel⟩

/-- The words of a schema name are read off its variable. -/
theorem lowerCamel_eq_iff (h : Accepted (humps cs)) (h' : Accepted (humps ds)) :
    (spell (humps cs)).lowerCamel = (spell (humps ds)).lowerCamel ↔
      (humps cs).map lowered = (humps ds).map lowered := by
  refine ⟨fun same => (upperCamel_eq_iff h h').mp (String.toList_injective ?_),
    fun same => (casedAlike_of_map_lowered same).lowerCamel⟩
  rw [upperCamel_eq_raised h, upperCamel_eq_raised h', same]

/-- The words of a name are read off its file name. -/
theorem kebab_eq_iff (h : Accepted words) (h' : Accepted others) :
    (spell words).kebab = (spell others).kebab ↔ words.map lowered = others.map lowered :=
  ⟨fun same => by rw [← splitOn_kebab h, same, splitOn_kebab h'],
    fun same => (casedAlike_of_map_lowered same).kebab⟩

end Readings

/-! ## Splitting a variable again -/

/-- A word with small letters behind its first character is not split. -/
theorem humps_of_small {c : Char} {rest : List Char} (small : Small rest) :
    humps (c :: rest) = [c :: rest] := by
  induction rest generalizing c with
  | nil => rfl
  | cons d rest ih =>
    obtain ⟨first, later⟩ := List.forall_mem_cons.mp small
    rw [humps, first, Bool.and_false, if_neg Bool.false_ne_true, ih later, intoFirst]

/-- A word is split off in front of a capital, unless it is itself a single one. -/
theorem humps_append_capital {c d : Char} {rest : List Char} (small : Small rest)
    (ends : rest = [] → c.isUpper = false) (capital : d.isUpper = true) (tail : List Char) :
    humps (c :: rest ++ d :: tail) = (c :: rest) :: humps (d :: tail) := by
  induction rest generalizing c with
  | nil => rw [List.singleton_append, humps, ends rfl, capital]; rfl
  | cons e rest ih =>
    obtain ⟨first, later⟩ := List.forall_mem_cons.mp small
    have inside : (!c.isUpper && e.isUpper) = false := by rw [first, Bool.and_false]
    rw [List.cons_append, List.cons_append, humps, inside, if_neg Bool.false_ne_true,
      ← List.cons_append, ih later fun _ => first, intoFirst]

/-- No word but the last ends at a capital. -/
theorem getLast?_of_mem_dropLast_humps (cs : List Char) :
    ∀ word ∈ (humps cs).dropLast, ∀ c ∈ word.getLast?, c.isUpper = false := by
  fun_induction humps cs with
  | case1 => simp
  | case2 c => simp
  | case3 c d rest boundary ih =>
    obtain ⟨tail, words, split⟩ := humps_cons d rest
    rw [split] at ih ⊢
    rw [List.dropLast_cons_cons]
    simp only [Bool.and_eq_true, Bool.not_eq_true'] at boundary
    refine List.forall_mem_cons.mpr ⟨fun e he => ?_, ih⟩
    cases he
    exact boundary.1
  | case4 c d rest _ ih =>
    obtain ⟨tail, words, split⟩ := humps_cons d rest
    rw [split] at ih ⊢
    cases words with
    | nil => exact List.forall_mem_nil _
    | cons word words =>
      -- the character in front of the first word leaves its end as it is
      rw [List.dropLast_cons_cons] at ih
      rw [intoFirst, List.dropLast_cons_cons]
      obtain ⟨first, later⟩ := List.forall_mem_cons.mp ih
      exact List.forall_mem_cons.mpr
        ⟨fun e he => first e (by rwa [List.getLast?_cons_cons] at he), later⟩

/-- Words that start at capitals, with none at the end of a word but perhaps of the last one, are
found again behind a small start. -/
theorem humps_append_flatMap {later : List (List Char)}
    (capital : ∀ word ∈ later, ∃ c rest, word = c :: rest ∧ c.isUpper = true)
    (ends : ∀ word ∈ later.dropLast, ∀ c ∈ word.getLast?, c.isUpper = false)
    {c : Char} {rest : List Char} (small : Small rest)
    (first : later ≠ [] → rest = [] → c.isUpper = false) :
    humps (c :: rest ++ later.flatMap capitalized) = (c :: rest) :: later.map capitalized := by
  induction later generalizing c rest with
  | nil => rw [List.flatMap_nil, List.append_nil, humps_of_small small, List.map_nil]
  | cons word later ih =>
    obtain ⟨⟨d, tail, rfl, upper⟩, further⟩ := List.forall_mem_cons.mp capital
    have raised : d.toUpper.isUpper = true := by
      rw [Char.isUpper_toUpper_eq_isAlpha, Char.isAlpha, upper, Bool.true_or]
    have ends' : ∀ word ∈ later.dropLast, ∀ c ∈ word.getLast?, c.isUpper = false := by
      intro word hw
      cases later with
      | nil => cases hw
      | cons next later => exact ends word (by rw [List.dropLast_cons_cons]; exact .tail _ hw)
    have last : later ≠ [] → lowered tail = [] → d.toUpper.isUpper = false := by
      intro more single
      obtain ⟨next, later, rfl⟩ := List.exists_cons_of_ne_nil more
      rw [List.map_eq_nil_iff.mp single, List.dropLast_cons_cons] at ends
      -- a word of one capital ends at it, so that it is the last one
      have := ends [d] List.mem_cons_self d rfl
      rw [upper] at this
      cases this
    rw [List.flatMap_cons, capitalized_cons, @List.cons_append _ _ (lowered tail),
      humps_append_capital small (first (List.cons_ne_nil _ _)) raised, ← List.cons_append,
      ih further ends' (small_lowered tail) last, List.map_cons, capitalized_cons]

/-- The words of the variable of a schema name are the words of the name. -/
theorem humps_lowerCamel {cs : List Char} (accepted : Accepted (humps cs)) :
    (humps (spell (humps cs)).lowerCamel.toList).map lowered = (humps cs).map lowered := by
  obtain ⟨c, rest, later, split, -⟩ := accepted.start
  have capital := tail_humps cs
  have ends := getLast?_of_mem_dropLast_humps cs
  rw [split] at capital ends ⊢
  have found : humps (spell ((c :: rest) :: later)).lowerCamel.toList =
      lowered (c :: rest) :: later.map capitalized := by
    obtain ⟨first, small⟩ := List.forall_mem_cons.mp (small_lowered (c :: rest))
    rw [spell, String.toList_ofList, List.headD_cons, List.tail_cons]
    refine humps_append_flatMap capital (fun word hw => ends word ?_) small fun _ _ => first
    cases later with
    | nil => cases hw
    | cons next later => exact List.mem_cons_of_mem _ hw
  rw [found, List.map_cons, lowered_lowered, List.map_cons, List.map_map, Function.comp_def]
  simp only [lowered_capitalized]

/-! ## The variable as a name -/

theorem toLower_eq_lineFeed {c : Char} : c.toLower = '\n' ↔ c = '\n' := by
  by_cases upper : c.isUpper = true
  · have letter : c.toLower.isAlpha = true := by
      rw [Char.isAlpha_toLower_eq_isAlpha, Char.isAlpha, upper, Bool.true_or]
    constructor <;> rintro same
    · rw [same] at letter
      cases letter
    · rw [same] at upper
      cases upper
  · rw [Char.toLower_eq_of_not_isUpper upper]

/-- Casing does not decide what is a word. -/
theorem isNameWord_lowered (word : List Char) : isNameWord (lowered word) = isNameWord word := by
  have same : Text.isPlainWordChar ∘ Char.toLower = Text.isPlainWordChar :=
    funext isPlainWordChar_toLower
  have feed : ∀ cs : List Char, (cs.map Char.toLower == ['\n']) = (cs == ['\n']) := by
    intro cs
    rw [Bool.eq_iff_iff, beq_iff_eq, beq_iff_eq, List.map_eq_singleton_iff]
    simp [toLower_eq_lineFeed]
  have empty : ∀ cs : List Char, (cs.map Char.toLower == []) = (cs == []) := by
    intro cs
    cases cs <;> rfl
  rw [isNameWord, isNameWord, Text.isWordOf, Text.isWordOf, lowered, List.takeWhile_map,
    List.dropWhile_map, same, List.isEmpty_map, feed, empty]

/-- Casing does not decide which words are accepted. -/
theorem Accepted.of_map_lowered {words others : List (List Char)} (accepted : Accepted words)
    (h : others.map lowered = words.map lowered) : Accepted others := by
  refine ⟨fun other ho => ?named, ?start⟩
  case named =>
    have : lowered other ∈ words.map lowered := h ▸ List.mem_map_of_mem ho
    obtain ⟨word, hw, same⟩ := List.mem_map.mp this
    rw [← isNameWord_lowered, ← same, isNameWord_lowered]
    exact accepted.named word hw
  case start =>
    obtain ⟨c, rest, later, rfl, digit⟩ := accepted.start
    cases others with
    | nil => cases h
    | cons first others =>
      obtain ⟨same, -⟩ := List.cons.inj h
      cases first with
      | nil => cases same
      | cons d tail =>
        refine ⟨d, tail, others, rfl, ?_⟩
        obtain ⟨start, -⟩ := List.cons.inj same
        rw [← isDigit_toLower, start, isDigit_toLower, digit]

theorem isBlank_toLower (c : Char) : Text.isBlank c.toLower = Text.isBlank c := by
  by_cases upper : c.isUpper = true
  · have letter : c.isAlpha = true := by rw [Char.isAlpha, upper, Bool.true_or]
    have plain : Text.isPlainWordChar c = true := by
      simp [Text.isPlainWordChar, Char.isAlphanum, letter]
    rw [Text.not_isBlank_of_isWordChar (Text.isWordChar_of_plain plain),
      Text.not_isBlank_of_isWordChar
        (Text.isWordChar_of_plain ((isPlainWordChar_toLower c).trans plain))]
  · rw [Char.toLower_eq_of_not_isUpper upper]

/-- Casing does not decide what is trimmed. -/
theorem visibleEnds_of_lowered {cs ds : List Char} (h : lowered ds = lowered cs)
    (visible : Text.VisibleEnds cs) : Text.VisibleEnds ds := by
  refine ⟨fun d hd => ?_, fun d hd => ?_⟩
  · have ends := congrArg List.head? h
    rw [lowered, lowered, List.head?_map, List.head?_map, hd] at ends
    obtain ⟨c, hc, same⟩ := Option.map_eq_some_iff.mp ends.symm
    rw [← isBlank_toLower, ← same, isBlank_toLower]
    exact visible.start c hc
  · have ends := congrArg List.getLast? h
    rw [lowered, lowered, List.getLast?_map, List.getLast?_map, hd] at ends
    obtain ⟨c, hc, same⟩ := Option.map_eq_some_iff.mp ends.symm
    rw [← isBlank_toLower, ← same, isBlank_toLower]
    exact visible.last c hc

theorem lowered_flatten (words : List (List Char)) :
    lowered words.flatten = (words.map lowered).flatten := by
  rw [lowered, List.map_flatten]
  rfl

/-- **The variable of a name is a name**, with the same casings. -/
theorem ofHumped_lowerCamel {raw : String} {name : Identifier} (h : ofHumped raw = .ok name) :
    ∃ again, ofHumped name.lowerCamel = .ok again ∧ again.CasedAlike name := by
  obtain ⟨cs, trimmed, rfl, accepted⟩ := ofHumped_eq_ok h
  have same := humps_lowerCamel accepted
  have visible : Text.VisibleEnds (spell (humps cs)).lowerCamel.toList := by
    refine visibleEnds_of_lowered ?_ (trimmed ▸ Text.visibleEnds_trim raw)
    rw [← flatten_humps (spell (humps cs)).lowerCamel.toList, lowered_flatten, same,
      ← lowered_flatten, flatten_humps]
  have kept := Text.trim_of_visibleEnds visible
  rw [String.ofList_toList] at kept
  refine ⟨_, ?_, casedAlike_of_map_lowered same⟩
  have nonempty : (spell (humps cs)).lowerCamel.toList.isEmpty = false := by
    obtain ⟨c, rest, start, -⟩ := lowerCamel_start accepted
    rw [start, List.isEmpty_cons]
  rw [ofHumped, kept, nonempty, if_neg Bool.false_ne_true,
    ofWords_of_accepted _ (accepted.of_map_lowered same)]

/-- **The casings of schema names determine each other.**  Two schema names have the same type name
exactly if they have the same variable, and exactly if they have the same file name.  The variable
of a name, taken as a name, is accepted and has the same casings. -/
theorem ofHumped_casings {raw raw' : String} {name other : Identifier}
    (h : ofHumped raw = .ok name) (h' : ofHumped raw' = .ok other) :
    (name.upperCamel = other.upperCamel ↔ name.lowerCamel = other.lowerCamel) ∧
      (name.lowerCamel = other.lowerCamel ↔ name.kebab = other.kebab) ∧
      ∃ again, ofHumped name.lowerCamel = .ok again ∧ again.CasedAlike name := by
  have normal := ofHumped_lowerCamel h
  obtain ⟨cs, -, rfl, accepted⟩ := ofHumped_eq_ok h
  obtain ⟨ds, -, rfl, accepted'⟩ := ofHumped_eq_ok h'
  have types := upperCamel_eq_iff accepted accepted'
  have names := lowerCamel_eq_iff accepted accepted'
  have files := kebab_eq_iff accepted accepted'
  exact ⟨types.trans names.symm, names.trans files.symm, normal⟩

/-- An acronym and a word with a line feed behind it: the names differ, their casings do not. -/
theorem ofHumped_casings_acronym :
    ∃ name other, ofHumped " get\nHTTPUrl2_a" = .ok name ∧ ofHumped "Get\nHttpurl2_a" = .ok other ∧
      name.lowerCamel = "get\nHttpurl2_a" ∧ name.display ≠ other.display ∧
      name.upperCamel = other.upperCamel ∧ name.kebab = other.kebab ∧
      ∃ again, ofHumped name.lowerCamel = .ok again ∧ again.CasedAlike name := by
  have acronym : ofHumped " get\nHTTPUrl2_a" = .ok (spell ["get\n".toList, "HTTPUrl2_a".toList]) :=
    Except.eq_ok_of_toOption (by decide +kernel)
  have word : ofHumped "Get\nHttpurl2_a" = .ok (spell ["Get\n".toList, "Httpurl2_a".toList]) :=
    Except.eq_ok_of_toOption (by decide +kernel)
  obtain ⟨types, files, normal⟩ := ofHumped_casings acronym word
  have same : (spell ["get\n".toList, "HTTPUrl2_a".toList]).lowerCamel =
    (spell ["Get\n".toList, "Httpurl2_a".toList]).lowerCamel := by decide +kernel
  exact ⟨_, _, acronym, word, by decide +kernel, by decide +kernel, types.mpr same, files.mp same,
    normal⟩

/-- The type name is no normal form: as a name it may have fewer words. -/
example : (ofHumped "aB").toOption.map (·.upperCamel) = some "AB" ∧
    (ofHumped "AB").toOption.map (·.upperCamel) = some "Ab" := by
  decide +kernel

end Identifier
end TypedApi
