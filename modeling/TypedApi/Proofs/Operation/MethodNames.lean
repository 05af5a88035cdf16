import TypedApi.Proofs.Code.Names
import TypedApi.Proofs.Naming.Spelling
import TypedApi.Proofs.Operation.Parameters

/-! # The names of methods

An operation ID may start with the name of its tag, as a variable or as a type, and go on with a
point, an underscore or a capital.  At most one character can follow the tag's name in an ID, because
the two forms differ in their first character only (`Signature.goesOn_unique`); so the name of the
method is read off the ID in exactly one way (`Signature.withoutTag_eq_iff`).  IDs are trimmed, and
a name that is accepted is an identifier without a line feed behind it.
-/
namespace TypedApi

/-- The identifiers of generated code: letters, digits, underscores and dollar signs of ASCII, with
no digit in front. -/
abbrev IsPlainIdentifier (name : String) : Prop := IsIdentifierOver Code.isNamePart name

namespace Code

theorem not_isDigit_of_isNameStart {c : Char} (h : isNameStart c = true) : c.isDigit = false := by
  simp only [isNameStart, Bool.or_eq_true, beq_iff_eq] at h
  rcases h with (letter | rfl) | rfl
  · exact Identifier.not_isDigit_of_isAlpha letter
  · decide
  · decide

theorem isNameStart_of_not_isDigit {c : Char} (h : isNamePart c = true)
    (digit : c.isDigit = false) : isNameStart c = true := by
  simpa [isNamePart, isNameStart, Char.isAlphanum, digit] using h

/-- An identifier with nothing blank at its end is a plain one. -/
theorem isIdentifier_iff_of_visible {name : String}
    (visible : ∀ c ∈ name.toList.getLast?, Text.isBlank c = false) :
    isIdentifier name = true ↔ IsPlainIdentifier name := by
  constructor
  · intro h
    obtain ⟨word, written⟩ := isIdentifier_split h
    have same : name = boundName name := by
      refine written.resolve_right fun feed => ?_
      have last : name.toList.getLast? = some '\n' := by
        rw [feed, String.toList_append]
        exact List.getLast?_concat
      exact absurd (visible '\n' last) (by decide)
    refine ⟨?_, fun c hc => word.parts c (same ▸ hc)⟩
    unfold isIdentifier at h
    split at h
    · cases h
    · next c rest spelled =>
      exact ⟨c, rest, spelled, not_isDigit_of_isNameStart (Bool.and_eq_true_iff.mp h).1⟩
  · rintro ⟨⟨c, rest, spelled, digit⟩, parts⟩
    rw [spelled] at parts
    obtain ⟨first, later⟩ := List.forall_mem_cons.mp parts
    rw [isIdentifier, spelled]
    simp [isNameStart_of_not_isDigit first digit, List.dropWhile_eq_nil_iff.mpr later]

end Code

namespace Signature

/-! ## What follows the name of a tag -/

/-- The forms of the name of a tag that may stand in front of an operation ID. -/
def tagForms (tag : Identifier) : List String := [tag.lowerCamel, tag.upperCamel]

/-- The ID starts with the name of the tag and goes on with the given characters. -/
def GoesOn (tag : Identifier) (id : String) (c : Char) (rest : List Char) : Prop :=
  ∃ form ∈ tagForms tag, id.toList = form.toList ++ c :: rest

theorem restAfter?_eq_some {form id : String} {c : Char} {rest : List Char} :
    restAfter? form id = some (c, rest) ↔ id.toList = form.toList ++ c :: rest := by
  unfold restAfter?
  constructor
  · intro h
    split at h
    · next starts =>
      obtain ⟨behind, spelled⟩ := List.isPrefixOf_iff_prefix.mp starts
      rw [← spelled, List.drop_left] at h
      split at h
      · cases h
      · cases h
        exact spelled.symm
    · cases h
  · intro h
    have starts : form.toList.isPrefixOf id.toList = true :=
      List.isPrefixOf_iff_prefix.mpr ⟨_, h.symm⟩
    rw [if_pos starts, h, List.drop_left]

section Tag
variable {tag : Identifier} {raw id method : String} {c d : Char} {rest tail : List Char}

/-- The two forms of the name of a tag are equally long. -/
theorem length_tagForms (named : Identifier.ofSpaced raw = .ok tag) :
    ∀ form ∈ tagForms tag, form.toList.length = tag.lowerCamel.toList.length := by
  obtain ⟨rfl, accepted⟩ := Identifier.ofSpaced_eq_ok named
  have same : (Identifier.spell (Text.blankSeparated raw)).upperCamel.toList.length =
      (Identifier.spell (Text.blankSeparated raw)).lowerCamel.toList.length := by
    rw [Identifier.upperCamel_eq_raised accepted]
    cases (Identifier.spell (Text.blankSeparated raw)).lowerCamel.toList <;> rfl
  simp [tagForms, same]

/-- **An ID goes on in one way.** -/
theorem goesOn_unique (named : Identifier.ofSpaced raw = .ok tag) (h : GoesOn tag id c rest)
    (h' : GoesOn tag id d tail) : c = d ∧ rest = tail := by
  obtain ⟨form, hf, spelled⟩ := h
  obtain ⟨form', hf', spelled'⟩ := h'
  have long := (length_tagForms named form hf).trans (length_tagForms named form' hf').symm
  obtain ⟨-, behind⟩ := List.append_inj (spelled.symm.trans spelled') long
  exact List.cons.inj behind

/-- What is found behind the name of a tag. -/
theorem rest_eq_some_iff (named : Identifier.ofSpaced raw = .ok tag) :
    (restAfter? tag.lowerCamel id).or (restAfter? tag.upperCamel id) = some (c, rest) ↔
      GoesOn tag id c rest := by
  constructor
  · intro h
    rcases Option.or_eq_some_iff.mp h with found | ⟨-, found⟩
    · exact ⟨_, List.mem_cons_self, restAfter?_eq_some.mp found⟩
    · exact ⟨_, List.mem_cons_of_mem _ List.mem_cons_self, restAfter?_eq_some.mp found⟩
  · intro h
    cases found : (restAfter? tag.lowerCamel id).or (restAfter? tag.upperCamel id) with
    | none =>
      obtain ⟨noVariable, noType⟩ := Option.or_eq_none_iff.mp found
      obtain ⟨form, hf, spelled⟩ := h
      have after := restAfter?_eq_some.mpr spelled
      simp only [tagForms, List.mem_cons, List.not_mem_nil, or_false] at hf
      rcases hf with rfl | rfl
      · cases noVariable.symm.trans after
      · cases noType.symm.trans after
    | some behind =>
      obtain ⟨d, tail⟩ := behind
      have own : GoesOn tag id d tail := by
        rcases Option.or_eq_some_iff.mp found with after | ⟨-, after⟩
        · exact ⟨_, List.mem_cons_self, restAfter?_eq_some.mp after⟩
        · exact ⟨_, List.mem_cons_of_mem _ List.mem_cons_self, restAfter?_eq_some.mp after⟩
      obtain ⟨rfl, rfl⟩ := goesOn_unique named h own
      rfl

/-! ## Reading the name of a method off an ID -/

/-- The name of a method, as it is read off an operation ID in a tag. -/
inductive ReadOff (tag : Identifier) (id : String) : String → Prop where
  /-- A point or an underscore follows the name of the tag. -/
  | marked {c : Char} {rest : List Char} (on : GoesOn tag id c rest) (mark : c = '.' ∨ c = '_') :
      ReadOff tag id (.ofList rest)
  /-- A capital follows the name of the tag. -/
  | capital {c small : Char} {rest : List Char} (on : GoesOn tag id c rest)
      (lower : smallLetter? c = some small) : ReadOff tag id (.ofList (small :: rest))
  /-- The ID does not start with the name of the tag, or neither of these follows it. -/
  | whole (only : ∀ c rest, GoesOn tag id c rest → c ≠ '.' ∧ c ≠ '_' ∧ smallLetter? c = none) :
      ReadOff tag id id

theorem not_mark_of_smallLetter? {small : Char} (lower : smallLetter? c = some small) :
    (c == '.' || c == '_') = false := by
  rw [Bool.eq_false_iff, Ne, Bool.or_eq_true, beq_iff_eq, beq_iff_eq]
  rintro (rfl | rfl) <;> cases lower

theorem withoutTag_of_goesOn (named : Identifier.ofSpaced raw = .ok tag)
    (on : GoesOn tag id c rest) :
    withoutTag tag id =
      if c == '.' || c == '_' then .ofList rest
      else
        match smallLetter? c with
        | some small => .ofList (small :: rest)
        | none => id := by
  have found := (rest_eq_some_iff named).mpr on
  cases lower : smallLetter? c <;> simp only [withoutTag, found, lower]

theorem withoutTag_of_apart (named : Identifier.ofSpaced raw = .ok tag)
    (apart : ∀ c rest, ¬ GoesOn tag id c rest) : withoutTag tag id = id := by
  rw [withoutTag]
  split
  · rfl
  · next c rest found => exact absurd ((rest_eq_some_iff named).mp found) (apart c rest)

theorem readOff_withoutTag (named : Identifier.ofSpaced raw = .ok tag) (id : String) :
    ReadOff tag id (withoutTag tag id) := by
  by_cases on : ∃ c rest, GoesOn tag id c rest
  · obtain ⟨c, rest, on⟩ := on
    rw [withoutTag_of_goesOn named on]
    split
    · next mark => exact .marked on (by simpa using mark)
    · next unmarked =>
      split
      · next small lower => exact .capital on lower
      · next noCapital =>
        -- nothing but this character follows the name of the tag
        refine .whole fun d tail on' => ?_
        obtain ⟨rfl, -⟩ := goesOn_unique named on on'
        obtain ⟨noPoint, noLine⟩ : c ≠ '.' ∧ c ≠ '_' := by simpa using unmarked
        exact ⟨noPoint, noLine, noCapital⟩
  · have apart : ∀ c rest, ¬ GoesOn tag id c rest := fun c rest h => on ⟨c, rest, h⟩
    rw [withoutTag_of_apart named apart]
    exact .whole fun c rest h => absurd h (apart c rest)

/-- **What the name of a method is.** -/
theorem withoutTag_eq_iff (named : Identifier.ofSpaced raw = .ok tag) :
    withoutTag tag id = method ↔ ReadOff tag id method := by
  constructor
  · rintro rfl
    exact readOff_withoutTag named id
  · intro h
    cases h with
    | marked on mark =>
      rw [withoutTag_of_goesOn named on, if_pos (by simpa using mark)]
    | capital on lower =>
      rw [withoutTag_of_goesOn named on, not_mark_of_smallLetter? lower, lower,
        if_neg Bool.false_ne_true]
    | whole only =>
      by_cases on : ∃ c rest, GoesOn tag id c rest
      · obtain ⟨c, rest, on⟩ := on
        obtain ⟨noPoint, noLine, noCapital⟩ := only c rest on
        rw [withoutTag_of_goesOn named on, if_neg (by simp [noPoint, noLine]), noCapital]
      · exact withoutTag_of_apart named fun c rest h => on ⟨c, rest, h⟩

/-! ## IDs with the name of the tag -/

/-- The IDs that name a method with the name of the tag in front. -/
def taggedIds (tag : Identifier) (method : String) : List String :=
  (tagForms tag).flatMap fun form =>
    [form ++ "." ++ method, form ++ "_" ++ method,
      form ++ .ofList (Identifier.raised method.toList)]

/-- The name of a method that the name of a tag may be written in front of: an identifier with a
small letter in front, which no generated class has itself. -/
structure IsPrefixable (method : String) : Prop where
  start : ∃ c rest, method.toList = c :: rest ∧ c.isLower = true
  parts : ∀ c ∈ method.toList, Code.isNamePart c = true
  free : method ∉ reservedMethods

theorem smallLetter?_toUpper {c : Char} (lower : c.isLower = true) :
    smallLetter? c.toUpper = some c := by
  have upper : c.toUpper.isUpper = true := by
    rw [Char.isUpper_toUpper_eq_isAlpha, Char.isAlpha, lower, Bool.or_true]
  rw [smallLetter?, if_pos upper, Char.toLower_toUpper_eq_toLower,
    Char.toLower_eq_of_not_isUpper (Char.not_isUpper_of_isLower lower)]

/-- **The name of the tag is dropped.** -/
theorem readOff_of_mem_taggedIds (fit : IsPrefixable method) (h : id ∈ taggedIds tag method) :
    ReadOff tag id method := by
  obtain ⟨form, hf, h⟩ := List.mem_flatMap.mp h
  have whole : String.ofList method.toList = method := String.ofList_toList
  simp only [List.mem_cons, List.not_mem_nil, or_false] at h
  rcases h with rfl | rfl | rfl
  · rw [← whole]
    refine .marked (c := '.') ⟨form, hf, ?_⟩ (.inl rfl)
    simp
  · rw [← whole]
    refine .marked (c := '_') ⟨form, hf, ?_⟩ (.inr rfl)
    simp
  · obtain ⟨c, rest, spelled, lower⟩ := fit.start
    rw [← whole, spelled]
    refine .capital (c := c.toUpper) ⟨form, hf, ?_⟩ (smallLetter?_toUpper lower)
    simp [Identifier.raised]

/-! ## Trimmed IDs -/

theorem isLower_of_smallLetter? {small : Char} (h : smallLetter? c = some small) :
    small.isLower = true := by
  unfold smallLetter? at h
  split at h
  · next upper =>
    cases h
    have letter : c.toLower.isAlpha = true := by
      rw [Char.isAlpha_toLower_eq_isAlpha, Char.isAlpha, upper, Bool.true_or]
    rwa [Char.isAlpha, c.isUpper_toLower_eq_false, Bool.false_or] at letter
  · split at h
    · cases h
      rfl
    · cases h

theorem not_isBlank_of_isNamePart (h : Code.isNamePart c = true) : Text.isBlank c = false := by
  obtain ⟨low, high, -⟩ := Code.toNat_of_isNamePart h
  rw [Bool.eq_false_iff]
  intro blank
  simp only [Text.isBlank, Bool.or_eq_true, Bool.and_eq_true, decide_eq_true_eq, beq_iff_eq]
    at blank
  omega

theorem isNamePart_of_isLower (h : c.isLower = true) : Code.isNamePart c = true := by
  simp [Code.isNamePart, Char.isAlphanum, Char.isAlpha, h]

/-- The name of a method ends where the ID ends, or at the small letter of a capital. -/
theorem visible_of_readOff (h : ReadOff tag id method) (visible : Text.VisibleEnds id.toList) :
    ∀ e ∈ method.toList.getLast?, Text.isBlank e = false := by
  -- what is at the end of what follows the name of the tag is at the end of the ID
  have behind : ∀ {c : Char} {rest : List Char}, GoesOn tag id c rest →
      ∀ e ∈ rest.getLast?, Text.isBlank e = false := by
    rintro c rest ⟨form, -, spelled⟩ e he
    refine visible.last e ?_
    rw [spelled, List.append_cons, List.getLast?_append, Option.mem_def.mp he]
    rfl
  cases h with
  | marked on mark =>
    rw [String.toList_ofList]
    exact behind on
  | @capital c small rest on lower =>
    intro e he
    rw [String.toList_ofList] at he
    cases rest with
    | nil =>
      cases he
      exact not_isBlank_of_isNamePart (isNamePart_of_isLower (isLower_of_smallLetter? lower))
    | cons d tail => exact behind on e (by rwa [List.getLast?_cons_cons] at he)
  | whole only => exact visible.last

theorem visibleEnds_of_text? {operation : Operation} {key : String}
    (h : operation.text? key = some id) : Text.VisibleEnds id.toList := by
  obtain ⟨text, -, h⟩ := Option.bind_eq_some_iff.mp h
  unfold Text.trimmed? at h
  split at h
  · cases h
  · cases h
    exact Text.visibleEnds_trim text

theorem trimmed?_of_not_isBlank {text : String} (visible : ∀ c ∈ text.toList, Text.isBlank c = false)
    (nonempty : text.toList ≠ []) : Text.trimmed? text = some text := by
  obtain ⟨c, rest, spelled⟩ := List.exists_cons_of_ne_nil nonempty
  have shown : Text.isBlankText text = false := by
    rw [Text.isBlankText, spelled, List.all_cons, visible c (spelled ▸ List.mem_cons_self),
      Bool.false_and]
  have kept := Text.trim_of_visibleEnds (Text.visibleEnds_of_not_isBlank visible)
  rw [String.ofList_toList] at kept
  rw [Text.trimmed?, shown, kept, if_neg Bool.false_ne_true]

/-- The forms of the name of a tag hold no blank. -/
theorem visible_tagForms (named : Identifier.ofSpaced raw = .ok tag) :
    ∀ form ∈ tagForms tag, ∀ c ∈ form.toList, Text.isBlank c = false := by
  obtain ⟨rfl, accepted⟩ := Identifier.ofSpaced_eq_ok named
  have clean := Identifier.clean_of_accepted accepted fun word hw feed =>
    absurd (Identifier.not_isBlank_of_mem_wordsFrom (List.forall_mem_nil _) hw feed) (by decide)
  have plain : ∀ c, Text.isPlainWordChar c = true → Text.isBlank c = false := fun c h =>
    Text.not_isBlank_of_isWordChar (Text.isWordChar_of_plain h)
  simp only [tagForms, List.forall_mem_cons]
  exact ⟨fun c hc => plain c (clean.lowerCamel.chars c hc),
    fun c hc => plain c (clean.upperCamel.chars c hc), List.forall_mem_nil _⟩

theorem visible_of_mem_taggedIds (named : Identifier.ofSpaced raw = .ok tag)
    (fit : IsPrefixable method) (h : id ∈ taggedIds tag method) :
    id.toList ≠ [] ∧ ∀ c ∈ id.toList, Text.isBlank c = false := by
  obtain ⟨form, hf, h⟩ := List.mem_flatMap.mp h
  have lead := visible_tagForms named form hf
  have own : ∀ c ∈ method.toList, Text.isBlank c = false := fun c hc =>
    not_isBlank_of_isNamePart (fit.parts c hc)
  obtain ⟨c, rest, spelled, lower⟩ := fit.start
  rw [spelled] at own
  obtain ⟨-, later⟩ := List.forall_mem_cons.mp own
  have upper : Text.isBlank c.toUpper = false := by
    refine not_isBlank_of_isNamePart ?_
    simp [Code.isNamePart, Char.isAlphanum, Char.isAlpha, lower]
  simp only [List.mem_cons, List.not_mem_nil, or_false] at h
  have point : Text.isBlank '.' = false := by decide
  have line : Text.isBlank '_' = false := by decide
  rcases h with rfl | rfl | rfl
  · simp only [String.toList_append, spelled, List.forall_mem_append]
    exact ⟨by simp, ⟨lead, by simpa using point⟩, own⟩
  · simp only [String.toList_append, spelled, List.forall_mem_append]
    exact ⟨by simp, ⟨lead, by simpa using line⟩, own⟩
  · simp only [String.toList_append, String.toList_ofList, spelled, Identifier.raised,
      List.forall_mem_append]
    exact ⟨by simp, lead, List.forall_mem_cons.mpr ⟨upper, later⟩⟩

end Tag

/-! ## The methods of a tag -/

section Methods
variable {registry : Registry} {tag : Identifier} {operation : Operation} {name : String}

theorem methodNameOf_eq_ok_iff :
    methodNameOf tag operation = .ok name ↔
      ∃ id, operation.text? "operationId" = some id ∧ withoutTag tag id = name ∧
        Code.isIdentifier name = true ∧ name ∉ reservedMethods := by
  unfold methodNameOf
  cases operation.text? "operationId" with
  | none => simp
  | some id =>
    simp only [Option.some.injEq, exists_eq_left']
    constructor
    · intro h
      split at h
      · cases h
      · next valid =>
        split at h
        · cases h
        · next free =>
          cases h
          exact ⟨rfl, by simpa using valid, by simpa using free⟩
    · rintro ⟨rfl, valid, free⟩
      rw [if_neg (by simpa using valid), if_neg (by simpa using free)]

/-- The name of a method is an identifier, and it is read off the trimmed ID. -/
theorem readOff_of_methodNameOf {raw : String} (named : Identifier.ofSpaced raw = .ok tag)
    (h : methodNameOf tag operation = .ok name) :
    IsPlainIdentifier name ∧
      ∃ id, operation.text? "operationId" = some id ∧ ReadOff tag id name := by
  obtain ⟨id, text, own, valid, -⟩ := methodNameOf_eq_ok_iff.mp h
  have read := (withoutTag_eq_iff named).mp own
  have visible := visible_of_readOff read (visibleEnds_of_text? text)
  exact ⟨(Code.isIdentifier_iff_of_visible visible).mp valid, id, text, read⟩

theorem parts_of_ofOperation {signature : Signature}
    (h : (ofOperation registry name operation).result = .ok signature) :
    signature.methodName = name ∧ signature.operation = operation := by
  obtain ⟨body, -, h⟩ := Noted.bind_eq_ok.mp h
  obtain ⟨specs, -, h⟩ := Noted.bind_eq_ok.mp h
  obtain ⟨response, -, h⟩ := Noted.bind_eq_ok.mp h
  cases h
  exact ⟨rfl, rfl⟩

/-- **The methods of a tag have different names**, which none of the methods before has either. -/
theorem nodup_methodNames {tagName : String} {seen : List (String × String)}
    {operations : List Operation} {signatures : List Signature}
    (h : (ofOperations registry tag tagName seen operations).result = .ok signatures) :
    (signatures.map (·.methodName)).Nodup ∧
      ∀ signature ∈ signatures, seen.lookup signature.methodName = none := by
  induction operations generalizing seen signatures with
  | nil =>
    cases h
    exact ⟨List.nodup_nil, List.forall_mem_nil _⟩
  | cons operation rest ih =>
    obtain ⟨method, -, h⟩ := Noted.bind_eq_ok.mp h
    split at h
    · cases h
    · next new =>
      obtain ⟨signature, own, h⟩ := Noted.bind_eq_ok.mp h
      obtain ⟨later, others, h⟩ := Noted.bind_eq_ok.mp h
      cases h
      obtain ⟨rfl, -⟩ := parts_of_ofOperation own
      obtain ⟨distinct, fresh⟩ := ih others
      have apart : ∀ other ∈ later, other.methodName ≠ signature.methodName ∧
          seen.lookup other.methodName = none := by
        intro other ho
        have unseen := fresh other ho
        rw [List.lookup_cons] at unseen
        split at unseen
        · cases unseen
        · next different => exact ⟨by simpa using different, unseen⟩
      refine ⟨List.nodup_cons.mpr ⟨fun repeated => ?_, distinct⟩,
        List.forall_mem_cons.mpr ⟨new, fun other ho => (apart other ho).2⟩⟩
      obtain ⟨other, ho, same⟩ := List.mem_map.mp repeated
      exact (apart other ho).1 same

/-- **The names of the methods of a tag.**  They are different identifiers, one for each operation
in order, and each is read off the trimmed ID of its operation, without the name of the tag where a
point, an underscore or a capital follows it.  An identifier with a small letter in front that is not
reserved can be written with either form of the tag's name in front, followed by a point, an
underscore or a capital: it is the name of the method for each of these IDs. -/
theorem methodNames_exact {group : TagGroup} (named : Identifier.ofSpaced group.name = .ok tag) :
    (∀ registry signatures, (ofGroup registry group).result = .ok signatures →
      (signatures.map (·.methodName)).Nodup ∧
        signatures.map (·.operation) = group.operations ∧
        ∀ signature ∈ signatures, IsPlainIdentifier signature.methodName ∧
          ∃ id, signature.operation.text? "operationId" = some id ∧
            ReadOff tag id signature.methodName) ∧
    ∀ method, IsPrefixable method → ∀ id ∈ taggedIds tag method, ∀ operation : Operation,
      operation.members.getD "operationId" = .text id →
        methodNameOf tag operation = .ok method := by
  constructor
  · intro registry signatures h
    obtain ⟨⟨-, operations⟩, -⟩ := ofGroup_yields signatures h
    obtain ⟨tag', named', h⟩ := Noted.bind_eq_ok.mp h
    cases named.symm.trans named'
    obtain ⟨distinct, -⟩ := nodup_methodNames h
    exact ⟨distinct, operations, fun signature member =>
      readOff_of_methodNameOf named (made_of_ofOperations h signature member).named⟩
  · intro method fit id tagged operation own
    obtain ⟨nonempty, visible⟩ := visible_of_mem_taggedIds named fit tagged
    obtain ⟨c, rest, spelled, lower⟩ := fit.start
    have plain : IsPlainIdentifier method :=
      ⟨⟨c, rest, spelled, Identifier.not_isDigit_of_isAlpha (by simp [Char.isAlpha, lower])⟩,
        fit.parts⟩
    have ends : ∀ e ∈ method.toList.getLast?, Text.isBlank e = false := fun e he =>
      not_isBlank_of_isNamePart (fit.parts e (List.mem_of_mem_getLast? he))
    refine methodNameOf_eq_ok_iff.mpr ⟨id, ?_, (withoutTag_eq_iff named).mpr
      (readOff_of_mem_taggedIds fit tagged), (Code.isIdentifier_iff_of_visible ends).mpr plain,
      fit.free⟩
    rw [Operation.text?, own]
    exact trimmed?_of_not_isBlank visible nonempty

/-- A tag of two words with an operation for each way to write an ID. -/
def storeGroup : TagGroup :=
  let operation (id : String) : Operation :=
    { method := .get, path := "/" ++ id, url := ⟨"/" ++ id, [.literal ("/" ++ id)]⟩,
      tag := "pet store", parameters := [],
      members := [(.text "operationId", .text id),
        (.text "responses", .map [
          (.text "200", .map [(.text "description", .text "Done.")])])] }
  ⟨"pet store", none, [operation " petStore.list ", operation "PetStore_add",
    operation "petStoreFind", operation "petStores", operation "petStore"]⟩

theorem methodNames_exact_petStore :
    ∃ tag signatures, Identifier.ofSpaced storeGroup.name = .ok tag ∧
      (ofGroup ⟨[]⟩ storeGroup).result = .ok signatures ∧
      signatures.map (·.methodName) = ["list", "add", "find", "petStores", "petStore"] ∧
      (signatures.map (·.methodName)).Nodup ∧
      (∀ signature ∈ signatures, IsPlainIdentifier signature.methodName) ∧
      "PetStorePetStore" ∈ taggedIds tag "petStore" ∧
      ∀ operation : Operation,
        operation.members.getD "operationId" = .text "PetStorePetStore" →
          methodNameOf tag operation = .ok "petStore" := by
  have named : Identifier.ofSpaced storeGroup.name =
      .ok (Identifier.spell ["pet".toList, "store".toList]) :=
    Except.eq_ok_of_toOption (by decide +kernel)
  have signed : (ofGroup ⟨[]⟩ storeGroup).result.toOption.map (fun signatures =>
      signatures.map (·.methodName)) = some ["list", "add", "find", "petStores", "petStore"] := by
    decide +kernel
  obtain ⟨signatures, found, names⟩ := Option.map_eq_some_iff.mp signed
  have built := Except.eq_ok_of_toOption found
  have tagged : "PetStorePetStore" ∈
      taggedIds (Identifier.spell ["pet".toList, "store".toList]) "petStore" := by
    decide +kernel
  have parts : "petStore".toList.all Code.isNamePart = true := by decide +kernel
  have fit : IsPrefixable "petStore" :=
    ⟨⟨'p', "etStore".toList, rfl, by decide⟩, List.all_eq_true.mp parts, by decide⟩
  obtain ⟨accepted, spelled⟩ := methodNames_exact named
  obtain ⟨distinct, -, each⟩ := accepted ⟨[]⟩ signatures built
  exact ⟨_, signatures, named, built, names, distinct, fun signature member =>
    (each signature member).1, tagged, spelled "petStore" fit _ tagged⟩

end Methods
end Signature
end TypedApi
