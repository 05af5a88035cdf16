import TypedApi.Proofs.Code.Names
import TypedApi.Proofs.Text.Literal

/-! # What the keys of members stand for

The key of a member is an identifier or a string literal, and white space around it says nothing.
What is written for a name is read as the name itself, with one exception: an identifier with a line
feed behind it is written bare, and the line feed is then white space (`readKey?_memberKey`,
`accessedName?_memberAccess`).
-/
namespace TypedApi.Code
open Text (utf16)
open Text.Literal (readUnits)

/-! ## Reading keys -/

/-- White space between the tokens of generated code, line breaks among it. -/
def isSpace (c : Char) : Bool :=
  Text.inRanges [(9, 13), (0x20, 0x20), (0xA0, 0xA0), (0x1680, 0x1680), (0x2000, 0x200A),
    (0x2028, 0x2029), (0x202F, 0x202F), (0x205F, 0x205F), (0x3000, 0x3000), (0xFEFF, 0xFEFF)]
    c.toNat

/-- A text without the white space that it starts with. -/
def skipSpace (cs : List Char) : List Char := cs.dropWhile isSpace

/-- Reads an identifier, as the units of its name, and what follows it. -/
def readName? : List Char → Option (List Nat × List Char)
  | [] => none
  | c :: rest =>
    if isNameStart c then
      some (utf16 (c :: rest.takeWhile isNamePart), rest.dropWhile isNamePart)
    else none

/-- Reads the key of a member, as the units of the name that it stands for, and what follows it. -/
def readKey? (cs : List Char) : Option (List Nat × List Char) :=
  (match skipSpace cs with
    | '"' :: rest => readUnits rest
    | rest => readName? rest).map fun (name, rest) => (name, skipSpace rest)

/-- The name that the text of a key stands for. -/
def keyName? (text : String) : Option (List Nat) := do
  let (name, rest) ← readKey? text.toList
  if rest = [] then some name else none

/-- The name of a member of an object, which a value follows. -/
def memberName? (line : String) : Option (List Nat) := do
  let (name, rest) ← readKey? line.toList
  if rest.head? = some ':' then some name else none

/-- The name of a member of a type, which may be optional. -/
def typeMemberName? (line : String) : Option (List Nat) := do
  let member ← (skipSpace line.toList).dropPrefix? "readonly ".toList
  let (name, rest) ← readKey? member
  let rest := if rest.head? = some '?' then skipSpace rest.tail else rest
  if rest.head? = some ':' then some name else none

/-- The name that an access behind an object reads. -/
def readAccess? : List Char → Option (List Nat)
  | '.' :: rest => do
    let (name, rest) ← readName? rest
    if skipSpace rest = [] then some name else none
  | '[' :: '"' :: rest => do
    let (name, rest) ← readUnits rest
    if rest = [']'] then some name else none
  | _ => none

/-- The name of the member of `target` that an expression reads. -/
def accessedName? (target expression : String) : Option (List Nat) :=
  (expression.toList.dropPrefix? target.toList).bind readAccess?

/-! ## Names that are written -/

/-- What is written bare is the identifier that is bound. -/
def denoted (name : String) : String := if isIdentifier name then boundName name else name

theorem denoted_eq_iff {name : String} :
    denoted name = name ↔ ¬(isIdentifier name = true ∧ '\n' ∈ name.toList) := by
  unfold denoted
  split
  · next identifier =>
    constructor
    · rintro bound ⟨-, feed⟩
      rw [← bound] at feed
      exact absurd ((isIdentifier_split identifier).1.parts _ feed) (by decide)
    · intro plain
      exact boundName_of_no_feed identifier fun feed => plain ⟨identifier, feed⟩
  · next other => simp [other]

section Reading
variable {name : String} {rest : List Char}

theorem skipSpace_of_not_space {c : Char} (h : isSpace c = false) :
    skipSpace (c :: rest) = c :: rest := by
  rw [skipSpace, List.dropWhile_cons_of_neg (by simp [h])]

theorem skipSpace_append {lead : List Char} (blank : ∀ c ∈ lead, isSpace c = true)
    (rest : List Char) : skipSpace (lead ++ rest) = skipSpace rest :=
  List.dropWhile_append_of_pos blank

/-- A character that starts an identifier is neither white space nor a quote. -/
theorem not_space_of_isNameStart {c : Char} (h : isNameStart c = true) :
    isSpace c = false ∧ c ≠ '"' := by
  obtain ⟨low, high, -⟩ := toNat_of_isNamePart (isNamePart_of_isNameStart h)
  have printable : Text.inRanges [(35, 126)] c.toNat = true := by
    simp only [Text.inRanges, List.any_cons, List.any_nil, Bool.or_false, Bool.and_eq_true,
      decide_eq_true_eq]
    omega
  refine ⟨Text.inRanges_eq_false (by decide) printable, ?_⟩
  rintro rfl
  exact absurd low (by decide)

/-- An identifier is some characters of names, and behind them a line feed or nothing. -/
theorem isIdentifier_spelled (h : isIdentifier name = true) :
    ∃ c word gap, name.toList = c :: (word ++ gap) ∧ isNameStart c = true ∧
      (∀ d ∈ word, isNamePart d = true) ∧ (gap = [] ∨ gap = ['\n']) := by
  unfold isIdentifier at h
  split at h
  · cases h
  · rename_i c tail spelled
    obtain ⟨start, ending⟩ := Bool.and_eq_true_iff.mp h
    rw [Bool.or_eq_true, beq_iff_eq, beq_iff_eq] at ending
    exact ⟨c, tail.takeWhile isNamePart, tail.dropWhile isNamePart,
      by rw [List.takeWhile_append_dropWhile, spelled], start,
      fun d hd => List.mem_takeWhile_imp hd, ending⟩

/-- Where nothing else of a name follows, its characters are taken and the rest is left. -/
theorem span_namePart {word : List Char} (parts : ∀ c ∈ word, isNamePart c = true)
    (stops : ∀ c, rest.head? = some c → isNamePart c = false) :
    (word ++ rest).takeWhile isNamePart = word ∧ (word ++ rest).dropWhile isNamePart = rest := by
  rw [List.takeWhile_append_of_pos parts, List.dropWhile_append_of_pos parts]
  cases rest with
  | nil => simp
  | cons c rest => simp [stops c rfl]

/-- An identifier is read up to its end. -/
theorem readName?_identifier (h : isIdentifier name = true) (rest : List Char)
    (stops : ∀ c, rest.head? = some c → isNamePart c = false) :
    ∃ gap, (∀ c ∈ gap, isSpace c = true) ∧
      readName? (name.toList ++ rest) = some (utf16 (boundName name).toList, gap ++ rest) := by
  obtain ⟨c, word, gap, spelled, start, parts, feed⟩ := isIdentifier_spelled h
  have stops' {rest : List Char} (stops : ∀ d, rest.head? = some d → isNamePart d = false) :
      ∀ d, (gap ++ rest).head? = some d → isNamePart d = false := by
    rcases feed with rfl | rfl
    · exact stops
    · intro d hd
      cases hd
      decide
  have bound : (boundName name).toList = c :: word := by
    have ended : ∀ d, ([] : List Char).head? = some d → isNamePart d = false := by simp
    have alone := (span_namePart parts (stops' ended)).1
    rw [List.append_nil] at alone
    rw [boundName_toList, spelled, List.takeWhile_cons_of_pos (isNamePart_of_isNameStart start),
      alone]
  refine ⟨gap, ?_, ?_⟩
  · rcases feed with rfl | rfl
    · simp
    · exact List.forall_mem_singleton.mpr (by decide +kernel)
  · obtain ⟨taken, left⟩ := span_namePart parts (stops' stops)
    rw [spelled, List.cons_append, readName?, if_pos start, List.append_assoc, taken, left, bound]

/-- **What is written as a key is read as the denoted name**, up to where the key is over. -/
theorem readKey?_memberKey (name : String) (rest : List Char)
    (stops : ∀ c, rest.head? = some c → isNamePart c = false) :
    readKey? ((memberKey name).toList ++ rest) =
      some (utf16 (denoted name).toList, skipSpace rest) := by
  unfold memberKey denoted
  split
  · next identifier =>
    obtain ⟨c, word, gap, spelled, start, -⟩ := isIdentifier_spelled identifier
    obtain ⟨blank, quote⟩ := not_space_of_isNameStart start
    obtain ⟨space, spaces, read⟩ := readName?_identifier identifier rest stops
    have starts : skipSpace (name.toList ++ rest) = name.toList ++ rest := by
      rw [spelled, List.cons_append, skipSpace_of_not_space blank]
    unfold readKey?
    rw [starts]
    split
    · next opened =>
      rw [spelled, List.cons_append, List.cons.injEq] at opened
      exact absurd opened.1 quote
    · simp only [read, Option.map_some, skipSpace_append spaces]
  · have written : (Text.literal name).toList ++ rest =
        '"' :: (Text.Literal.encode name.toList ++ '"' :: rest) := by
      simp [Text.literal]
    rw [readKey?, written, skipSpace_of_not_space (by decide)]
    simp only [Text.Literal.readUnits_encode, Option.map_some]

theorem keyName?_memberKey (name : String) :
    keyName? (memberKey name) = some (utf16 (denoted name).toList) := by
  have read := readKey?_memberKey name [] (by simp)
  rw [List.append_nil] at read
  rw [keyName?, read]
  rfl

/-- **What is written as an access reads the denoted name** of its target. -/
theorem accessedName?_memberAccess (target name : String) :
    accessedName? target (memberAccess target name) = some (utf16 (denoted name).toList) := by
  have behind (access : List Char) : (target.toList ++ access).dropPrefix? target.toList =
      some access := List.dropPrefix?_append_of_beq _ (by simp)
  unfold memberAccess denoted
  split
  · next identifier =>
    obtain ⟨gap, spaces, read⟩ := readName?_identifier identifier [] (by simp)
    rw [List.append_nil, List.append_nil] at read
    have nothing : skipSpace gap = [] := by
      have whole := skipSpace_append spaces []
      rwa [List.append_nil] at whole
    have access : (target ++ "." ++ name).toList = target.toList ++ '.' :: name.toList := by simp
    rw [accessedName?, access, behind]
    simp [readAccess?, read, nothing]
  · have access : (target ++ "[" ++ Text.literal name ++ "]").toList =
        target.toList ++ '[' :: '"' :: (Text.Literal.encode name.toList ++ '"' :: [']']) := by
      simp [Text.literal]
    rw [accessedName?, access, behind]
    simp [readAccess?, Text.Literal.readUnits_encode]

/-! ## Names of members -/

theorem isSpace_tab : isSpace '\t' = true := by decide +kernel

theorem not_space_letter : isSpace 'r' = false := by decide +kernel

theorem not_space_mark {c : Char} (h : c = ':' ∨ c = '?') : isSpace c = false := by
  rcases h with rfl | rfl <;> decide +kernel

/-- The key of a member of an object is read from its line. -/
theorem memberName?_line (name value : String) :
    memberName? ("\t\t" ++ memberKey name ++ ": " ++ value) =
      some (utf16 (denoted name).toList) := by
  have line : ("\t\t" ++ memberKey name ++ ": " ++ value).toList =
      ['\t', '\t'] ++ ((memberKey name).toList ++ (':' :: ' ' :: value.toList)) := by simp
  have indent : ∀ c ∈ ['\t', '\t'], isSpace c = true := by simp [isSpace_tab]
  have read := readKey?_memberKey name (':' :: ' ' :: value.toList) (by simp; decide)
  rw [memberName?, line, readKey?, skipSpace_append indent, ← readKey?, read,
    skipSpace_of_not_space (not_space_mark (.inl rfl))]
  simp

/-- The key of a member of a type is read from its line. -/
theorem typeMemberName?_line (name : String) (required : Bool) (type : String) :
    typeMemberName? ("\treadonly " ++ memberKey name ++ (if required then "" else "?") ++ ": "
      ++ type) = some (utf16 (denoted name).toList) := by
  have start (rest : List Char) : skipSpace ('\t' :: ("readonly ".toList ++ rest)) =
      "readonly ".toList ++ rest := by
    rw [← List.singleton_append, skipSpace_append (by simp [isSpace_tab])]
    exact skipSpace_of_not_space not_space_letter
  have modified (rest : List Char) :
      ("readonly ".toList ++ rest).dropPrefix? "readonly ".toList = some rest :=
    List.dropPrefix?_append_of_beq _ (by simp)
  cases required with
  | true =>
    have line : ("\treadonly " ++ memberKey name ++ "" ++ ": " ++ type).toList =
        '\t' :: ("readonly ".toList ++ ((memberKey name).toList ++ ':' :: ' ' :: type.toList)) := by
      simp
    have read := readKey?_memberKey name (':' :: ' ' :: type.toList) (by simp; decide)
    rw [skipSpace_of_not_space (not_space_mark (.inl rfl))] at read
    rw [if_pos rfl, typeMemberName?, line, start, modified]
    simp [read]
  | false =>
    have line : ("\treadonly " ++ memberKey name ++ "?" ++ ": " ++ type).toList =
        '\t' :: ("readonly ".toList ++
          ((memberKey name).toList ++ '?' :: ':' :: ' ' :: type.toList)) := by
      simp
    have read := readKey?_memberKey name ('?' :: ':' :: ' ' :: type.toList) (by simp; decide)
    rw [skipSpace_of_not_space (not_space_mark (.inr rfl))] at read
    rw [if_neg Bool.false_ne_true, typeMemberName?, line, start, modified]
    simp [read, skipSpace_of_not_space (not_space_mark (.inl rfl))]

end Reading
end TypedApi.Code
