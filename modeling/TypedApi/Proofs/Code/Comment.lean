import Mathlib.Data.List.Forall2
import TypedApi.Code.Comment
import TypedApi.Code.SourceFile

/-! # Comments keep their text and end where they should

A comment is over at the first `*/` behind its start.  No line of a description can bring that end
about, inside itself or together with what stands around it (`isComment_docComment`).  Read back
without its decoration, a comment shows the paragraphs of its lines, with the ends in them escaped
and one empty line between two of them (`readComment_docComment`).
-/
namespace TypedApi.Code

/-! ## Where a comment ends -/

/-- The number of places at which a text ends a comment. -/
def endings : List Char → Nat
  | [] => 0
  | c :: rest => (if c = '*' ∧ rest.head? = some '/' then 1 else 0) + endings rest

section Endings
variable {text before after : List Char}

theorem endings_cons (c : Char) (rest : List Char) :
    endings (c :: rest) = (if c = '*' ∧ rest.head? = some '/' then 1 else 0) + endings rest := rfl

theorem endings_cons_of_not {c : Char} {rest : List Char}
    (h : ¬(c = '*' ∧ rest.head? = some '/')) : endings (c :: rest) = endings rest := by
  rw [endings, if_neg h, Nat.zero_add]

/-- Without an asterisk nothing ends. -/
theorem endings_eq_zero (h : '*' ∉ text) : endings text = 0 := by
  induction text with
  | nil => rfl
  | cons c rest ih =>
    obtain ⟨own, later⟩ := not_or.mp (List.mem_cons.not.mp h)
    rw [endings_cons_of_not fun ⟨star, _⟩ => own star.symm, ih later]

/-- No end goes across a seam, unless an asterisk stands before it and a slash behind it. -/
theorem endings_append (h : before.getLast? ≠ some '*' ∨ after.head? ≠ some '/') :
    endings (before ++ after) = endings before + endings after := by
  induction before with
  | nil => simp [endings]
  | cons c rest ih =>
    cases rest with
    | nil =>
      have apart : ¬(c = '*' ∧ after.head? = some '/') := by simpa [← not_and_or] using h
      rw [List.singleton_append, endings_cons_of_not apart, endings_cons_of_not (by simp)]
      simp [endings]
    | cons d later =>
      have whole := ih (by simpa using h)
      have next : (d :: later ++ after).head? = (d :: later).head? := rfl
      rw [List.cons_append, endings_cons c, endings_cons c, next, whole, Nat.add_assoc]

end Endings

/-! ## Escaped lines -/

theorem head?_escapeEnd (cs : List Char) : (escapeEnd cs).head? = cs.head? := by
  fun_cases escapeEnd cs <;> rfl

/-- **An escaped text ends no comment.** -/
theorem endings_escapeEnd (cs : List Char) : endings (escapeEnd cs) = 0 := by
  fun_induction escapeEnd cs with
  | case1 => rfl
  | case2 rest ih => simp [endings, ih]
  | case3 c rest other ih =>
    rw [endings_cons_of_not, ih]
    -- what follows an asterisk here is no slash, and escaping does not make it one
    rw [head?_escapeEnd]
    rintro ⟨star, slash⟩
    obtain ⟨later, rfl⟩ := List.head?_eq_some_iff.mp slash
    exact other later star rfl

/-- `written` is `text` with every `*/` written as `*\/` and nothing else changed: both have the
same pieces, none of which holds an end. -/
def Escapes (text written : List Char) : Prop :=
  ∃ pieces : List (List Char), (∀ piece ∈ pieces, endings piece = 0) ∧
    text = ['*', '/'].intercalate pieces ∧ written = ['*', '\\', '/'].intercalate pieces

/-- The line is written with every `*/` in it as `*\/`. -/
def WrittenAs (line written : String) : Prop := Escapes line.toList written.toList

theorem intercalate_cons_into {α : Type} (mark : List α) (a : α) (first : List α)
    (rest : List (List α)) :
    mark.intercalate ((a :: first) :: rest) = a :: mark.intercalate (first :: rest) := by
  cases rest with
  | nil => rw [List.intercalate_singleton, List.intercalate_singleton]
  | cons second later => simp only [List.intercalate_cons_cons, List.cons_append]

theorem escapes_escapeEnd (cs : List Char) : Escapes cs (escapeEnd cs) := by
  suffices h : ∃ first pieces, (∀ piece ∈ first :: pieces, endings piece = 0) ∧
      cs = ['*', '/'].intercalate (first :: pieces) ∧
      escapeEnd cs = ['*', '\\', '/'].intercalate (first :: pieces) by
    obtain ⟨first, pieces, h⟩ := h
    exact ⟨_, h⟩
  fun_induction escapeEnd cs with
  | case1 => exact ⟨[], [], by simp [endings]⟩
  | case2 rest ih =>
    obtain ⟨first, pieces, whole, same, written⟩ := ih
    refine ⟨[], first :: pieces, List.forall_mem_cons.mpr ⟨rfl, whole⟩, ?_, ?_⟩
    · rw [List.intercalate_cons_cons, ← same]
      rfl
    · rw [List.intercalate_cons_cons, ← written]
      rfl
  | case3 c rest other ih =>
    obtain ⟨first, pieces, whole, same, written⟩ := ih
    obtain ⟨own, later⟩ := List.forall_mem_cons.mp whole
    refine ⟨c :: first, pieces, List.forall_mem_cons.mpr ⟨?_, later⟩, ?_, ?_⟩
    · rw [endings_cons_of_not, own]
      rintro ⟨star, slash⟩
      -- the rest of the text would start with the slash of the piece
      obtain ⟨more, rfl⟩ := List.head?_eq_some_iff.mp slash
      rw [intercalate_cons_into] at same
      exact other _ star same
    · rw [intercalate_cons_into, ← same]
    · rw [intercalate_cons_into, ← written]

/-! ## Paragraphs -/

/-- The longest runs of lines that are not empty. -/
def paragraphs (lines : List String) : List (List String) :=
  (lines.splitOn "").filter (· ≠ [])

/-- The lines without the empty ones that come behind another one, where `afterEmpty` tells that
an empty one came last. -/
def collapsed (afterEmpty : Bool) : List String → List String
  | [] => []
  | line :: rest =>
    if line = "" then
      if afterEmpty then collapsed true rest else "" :: collapsed true rest
    else line :: collapsed false rest

section Paragraphs
variable {lines : List String}

theorem splitOn_cons_empty (lines : List String) :
    ("" :: lines).splitOn "" = [] :: lines.splitOn "" :=
  List.splitOn_append_cons_self [] lines

theorem splitOn_cons_of_ne {line : String} (h : line ≠ "") {first : List String}
    {rest : List (List String)} (split : lines.splitOn "" = first :: rest) :
    (line :: lines).splitOn "" = (line :: first) :: rest := by
  rw [List.splitOn, List.splitOnP_cons_eq_if_modifyHead, if_neg (by simpa using h)]
  rw [List.splitOn] at split
  rw [split]
  rfl

@[simp] theorem paragraphs_nil : paragraphs [] = [] := by
  simp [paragraphs]

theorem paragraphs_cons_empty (lines : List String) :
    paragraphs ("" :: lines) = paragraphs lines := by
  simp [paragraphs, splitOn_cons_empty]

theorem paragraphs_concat_empty (lines : List String) :
    paragraphs (lines ++ [""]) = paragraphs lines := by
  rw [paragraphs, List.splitOn_append_cons_self]
  simp [paragraphs]

/-- The paragraphs hold the lines that are not empty, in order. -/
theorem flatten_paragraphs (lines : List String) :
    (paragraphs lines).flatten = lines.filter (· ≠ "") := by
  induction lines with
  | nil => rw [paragraphs_nil]; rfl
  | cons line rest ih =>
    by_cases empty : line = ""
    · subst empty
      rw [paragraphs_cons_empty, ih]
      rfl
    · obtain ⟨first, later, split⟩ := List.exists_cons_of_ne_nil (List.splitOn_ne_nil "" rest)
      rw [paragraphs, split] at ih
      rw [paragraphs, splitOn_cons_of_ne empty split, List.filter_cons_of_pos (by simp),
        List.filter_cons_of_pos (by simpa using empty), ← ih]
      by_cases none_ : first = []
      · simp [none_]
      · simp [none_]

theorem ne_nil_of_mem_paragraphs {part : List String} (h : part ∈ paragraphs lines) :
    part ≠ [] := by
  simpa using List.of_mem_filter h

theorem paragraphs_eq_nil_iff : paragraphs lines = [] ↔ ∀ line ∈ lines, line = "" := by
  have flat := flatten_paragraphs lines
  constructor
  · intro none_
    rw [none_, List.flatten_nil, eq_comm, List.filter_eq_nil_iff] at flat
    simpa using flat
  · intro empty
    rw [List.filter_eq_nil_iff.mpr (by simpa using empty), List.flatten_eq_nil_iff] at flat
    exact List.eq_nil_iff_forall_not_mem.mpr
      fun part hp => ne_nil_of_mem_paragraphs hp (flat part hp)

theorem paragraphs_ne_nil (some_ : lines ≠ []) (last : lines.getLast? ≠ some "") :
    paragraphs lines ≠ [] := by
  rw [Ne, paragraphs_eq_nil_iff]
  intro empty
  exact last (List.getLast?_eq_some_getLast some_ ▸ congrArg some (empty _ (List.getLast_mem _)))

/-- **Collapsing leaves one empty line between two paragraphs.** -/
theorem collapsed_eq (h : lines.getLast? ≠ some "") :
    collapsed true lines = [""].intercalate (paragraphs lines) := by
  suffices both : ∀ first rest, lines.splitOn "" = first :: rest →
      collapsed true lines = [""].intercalate ((first :: rest).filter (· ≠ [])) ∧
      collapsed false lines = [""].intercalate (first :: rest.filter (· ≠ [])) by
    obtain ⟨first, rest, split⟩ := List.exists_cons_of_ne_nil (List.splitOn_ne_nil "" lines)
    rw [paragraphs, split]
    exact (both first rest split).1
  induction lines with
  | nil =>
    intro first rest split
    rw [List.splitOn_nil] at split
    cases split
    exact ⟨rfl, rfl⟩
  | cons line later ih =>
    intro first rest split
    obtain ⟨next, others, found⟩ := List.exists_cons_of_ne_nil (List.splitOn_ne_nil "" later)
    have behind : later.getLast? ≠ some "" := by
      cases later with
      | nil => simp
      | cons _ _ => simpa using h
    obtain ⟨blank, plain⟩ := ih behind next others found
    by_cases empty : line = ""
    · subst empty
      rw [splitOn_cons_empty, found] at split
      cases split
      -- a paragraph follows, since the last line is not empty
      have some_ : later ≠ [] := by
        rintro rfl
        simp at h
      obtain ⟨second, more, kept⟩ :=
        List.exists_cons_of_ne_nil (paragraphs_ne_nil some_ behind)
      rw [paragraphs, found] at kept
      rw [List.filter_cons_of_neg (by simp)]
      constructor
      · rw [collapsed, if_pos rfl, if_pos rfl, blank]
      · rw [collapsed, if_pos rfl, if_neg (by simp), blank, kept, List.intercalate_cons_cons]
        rfl
    · rw [splitOn_cons_of_ne empty found] at split
      cases split
      rw [List.filter_cons_of_pos (by simp), collapsed, if_neg empty, collapsed, if_neg empty,
        intercalate_cons_into, plain]
      exact ⟨rfl, rfl⟩

/-! ## Empty lines at the ends -/

theorem paragraphs_dropWhile (lines : List String) :
    paragraphs (lines.dropWhile (· == "")) = paragraphs lines := by
  induction lines with
  | nil => rfl
  | cons line rest ih =>
    by_cases empty : line = ""
    · rw [List.dropWhile_cons_of_pos (by simpa using empty), ih, empty, paragraphs_cons_empty]
    · rw [List.dropWhile_cons_of_neg (by simpa using empty)]

/-- What is dropped at the end are empty lines. -/
theorem dropEmptyEnd_append (lines : List String) :
    ∃ n, lines = dropEmptyEnd lines ++ List.replicate n "" := by
  induction lines with
  | nil => exact ⟨0, rfl⟩
  | cons line rest ih =>
    obtain ⟨n, split⟩ := ih
    cases kept : dropEmptyEnd rest with
    | nil =>
      rw [kept, List.nil_append] at split
      by_cases empty : line = ""
      · exact ⟨n + 1, by simp [dropEmptyEnd, kept, empty, ← split, List.replicate_succ]⟩
      · exact ⟨n, by simp [dropEmptyEnd, kept, empty, ← split]⟩
    | cons next later =>
      rw [kept] at split
      exact ⟨n, by simp [dropEmptyEnd, kept, ← split]⟩

theorem paragraphs_append_replicate (lines : List String) (n : Nat) :
    paragraphs (lines ++ List.replicate n "") = paragraphs lines := by
  induction n with
  | zero => simp
  | succ n ih => rw [List.replicate_succ', ← List.append_assoc, paragraphs_concat_empty, ih]

theorem paragraphs_dropEmptyEnds (lines : List String) :
    paragraphs (dropEmptyEnds lines) = paragraphs lines := by
  obtain ⟨n, split⟩ := dropEmptyEnd_append (lines.dropWhile (· == ""))
  rw [← paragraphs_dropWhile lines, split, paragraphs_append_replicate]
  rfl

theorem getLast?_dropEmptyEnd (lines : List String) : (dropEmptyEnd lines).getLast? ≠ some "" := by
  induction lines with
  | nil => simp [dropEmptyEnd]
  | cons line rest ih =>
    cases kept : dropEmptyEnd rest with
    | nil => by_cases empty : line = "" <;> simp [dropEmptyEnd, kept, empty]
    | cons next later =>
      rw [kept] at ih
      simpa [dropEmptyEnd, kept] using ih

/-- The first line that is kept was not dropped at the start. -/
theorem head?_dropEmptyEnds (lines : List String) : (dropEmptyEnds lines).head? ≠ some "" := by
  obtain ⟨n, split⟩ := dropEmptyEnd_append (lines.dropWhile (· == ""))
  intro first
  obtain ⟨rest, kept⟩ := List.head?_eq_some_iff.mp first
  rw [dropEmptyEnds] at kept
  rw [kept] at split
  have dropped := List.head?_dropWhile_not (· == "") lines
  rw [split] at dropped
  simp at dropped

/-- The paragraphs of some lines, with one empty line between two of them. -/
def spaced (lines : List String) : List String :=
  [""].intercalate (paragraphs lines)

/-- Spacing keeps the lines that are not empty, in order. -/
theorem filter_spaced (lines : List String) :
    (spaced lines).filter (· ≠ "") = lines.filter (· ≠ "") := by
  have kept (parts : List (List String)) :
      ([""].intercalate parts).filter (· ≠ "") = parts.flatten.filter (· ≠ "") := by
    induction parts with
    | nil => rfl
    | cons first rest ih =>
      cases rest with
      | nil => simp
      | cons second later =>
        rw [List.intercalate_cons_cons, List.filter_append, ih, List.filter_append,
          List.flatten_cons, List.filter_append]
        simp
  rw [spaced, kept, flatten_paragraphs, List.filter_filter]
  simp

theorem spaced_eq_nil_iff : spaced lines = [] ↔ ∀ line ∈ lines, line = "" := by
  rw [← paragraphs_eq_nil_iff, spaced]
  cases found : paragraphs lines with
  | nil => exact iff_of_true rfl rfl
  | cons first rest =>
    have shown := ne_nil_of_mem_paragraphs (found ▸ List.mem_cons_self)
    cases rest with
    | nil => simpa using shown
    | cons second later => simp [List.intercalate_cons_cons]

end Paragraphs

/-! ## The two forms of a comment -/

/-- A line of a block comment; an empty one has no blank behind the asterisk. -/
def decorated (indent line : String) : String :=
  if line = "" then indent ++ " *" else indent ++ " * " ++ escapedLine line

theorem blockLines_eq (indent : String) (afterEmpty : Bool) (lines : List String) :
    blockLines indent afterEmpty lines = (collapsed afterEmpty lines).map (decorated indent) := by
  induction lines generalizing afterEmpty with
  | nil => rfl
  | cons line rest ih =>
    by_cases empty : line = ""
    · cases afterEmpty <;> simp [blockLines, collapsed, decorated, empty, ih]
    · simp [blockLines, collapsed, decorated, empty, ih]

/-- A comment shows its lines with their paragraphs apart: none, one in a line, or several in a
block. -/
theorem docComment_cases (indent : String) (lines : List (Option String)) :
    (spaced (lines.map (·.getD "")) = [] ∧ docComment indent lines = []) ∨
    (∃ line, spaced (lines.map (·.getD "")) = [line] ∧
      docComment indent lines = [indent ++ "/** " ++ escapedLine line ++ " */"]) ∨
    (spaced (lines.map (·.getD "")) ≠ [] ∧ docComment indent lines = (indent ++ "/**") ::
      ((spaced (lines.map (·.getD ""))).map (decorated indent) ++ [indent ++ " */"])) := by
  generalize given : lines.map (·.getD "") = texts
  have last := getLast?_dropEmptyEnd (texts.dropWhile (· == ""))
  have whole : collapsed true (dropEmptyEnds texts) = spaced texts := by
    rw [dropEmptyEnds, collapsed_eq last, spaced, ← paragraphs_dropEmptyEnds texts]
    rfl
  have first := head?_dropEmptyEnds texts
  unfold docComment
  rw [given]
  split
  · rename_i none_
    rw [none_] at whole
    exact .inl ⟨whole.symm, rfl⟩
  · rename_i line single
    rw [single] at whole first
    have shown : line ≠ "" := by simpa using first
    rw [collapsed, if_neg shown] at whole
    exact .inr (.inl ⟨line, whole.symm, rfl⟩)
  · rename_i more_ several
    refine .inr (.inr ?_)
    -- the first line is not empty, so that it does not matter what came before it
    obtain ⟨line, rest, split⟩ := List.exists_cons_of_ne_nil more_
    rw [split] at whole first
    have shown : line ≠ "" := by simpa using first
    rw [blockLines_eq, split, ← whole, collapsed, if_neg shown, collapsed, if_neg shown]
    exact ⟨List.cons_ne_nil _ _, rfl⟩

/-! ## Reading a comment back -/

/-- What stands between `lead` and `close` in a text. -/
def between? (lead close text : String) : Option String := do
  let rest ← text.toList.dropPrefix? lead.toList
  return .ofList (← rest.dropSuffix? close.toList)

/-- A line of a block comment without its decoration. -/
def readLine (indent line : String) : Option String :=
  if line = indent ++ " *" then some "" else between? (indent ++ " * ") "" line

/-- The lines of a comment without their decoration. -/
def readComment (indent : String) : List String → Option (List String)
  | [] => some []
  | [line] => (between? (indent ++ "/** ") " */" line).map ([·])
  | first :: rest =>
    if first = indent ++ "/**" ∧ rest.getLast? = some (indent ++ " */") then
      rest.dropLast.mapM (readLine indent)
    else none

theorem between?_append (lead text close : String) :
    between? lead close (lead ++ text ++ close) = some text := by
  rw [between?, String.toList_append, String.toList_append, List.append_assoc,
    List.dropPrefix?_append_of_beq _ (by simp)]
  have rest : (text.toList ++ close.toList).dropSuffix? close.toList = some text.toList :=
    List.dropSuffix?_eq_some_iff.mpr ⟨close.toList, rfl, by simp⟩
  simp [rest]

theorem writtenAs_escapedLine (line : String) : WrittenAs line (escapedLine line) := by
  rw [WrittenAs, escapedLine, String.toList_ofList]
  exact escapes_escapeEnd line.toList

@[simp] theorem escapedLine_empty : escapedLine "" = "" := rfl

theorem escapedLine_eq_empty_iff {line : String} : escapedLine line = "" ↔ line = "" := by
  have heads := head?_escapeEnd line.toList
  rw [← String.toList_inj, ← String.toList_inj, escapedLine, String.toList_ofList,
    String.toList_empty, ← List.head?_eq_none_iff, heads, List.head?_eq_none_iff]

theorem readLine_decorated (indent line : String) :
    readLine indent (decorated indent line) = some (escapedLine line) := by
  by_cases empty : line = ""
  · simp [readLine, decorated, empty]
  · have other : decorated indent line ≠ indent ++ " *" := by
      intro same
      rw [decorated, if_neg empty, String.append_assoc] at same
      have texts := congrArg String.toList same
      simp at texts
    have whole := between?_append (indent ++ " * ") (escapedLine line) ""
    rw [String.append_empty] at whole
    rw [readLine, if_neg other, decorated, if_neg empty, whole]

theorem mapM_readLine_decorated (indent : String) (lines : List String) :
    (lines.map (decorated indent)).mapM (readLine indent) = some (lines.map escapedLine) := by
  induction lines with
  | nil => rfl
  | cons line rest ih => simp [List.mapM_cons, readLine_decorated, ih]

/-- **A comment loses no text**: without its decoration it is the paragraphs of its lines, with
the ends in them escaped. -/
theorem readComment_docComment (indent : String) (lines : List (Option String)) :
    readComment indent (docComment indent lines) =
      some ((spaced (lines.map (·.getD ""))).map escapedLine) := by
  rcases docComment_cases indent lines with
    ⟨none_, written⟩ | ⟨line, single, written⟩ | ⟨-, written⟩
  · rw [none_, written]
    rfl
  · rw [single, written, readComment, between?_append]
    rfl
  · generalize spaced (lines.map (·.getD "")) = shown at written
    obtain ⟨second, rest, split⟩ := List.exists_cons_of_ne_nil
      (show shown.map (decorated indent) ++ [indent ++ " */"] ≠ [] by simp)
    rw [written, split, readComment, ← split]
    · rw [if_pos ⟨rfl, List.getLast?_concat⟩, List.dropLast_concat, mapM_readLine_decorated]
    · simp

/-! ## The text of a comment -/

/-- The text is one comment behind an indent: it starts as one, and its only end is its own. -/
structure IsComment (indent text : String) : Prop where
  starts : (indent ++ "/**").toList <+: text.toList
  ends : "*/".toList <:+ text.toList
  once : endings text.toList = 1

section Joined
variable {indent : String}

theorem endings_indent (clean : '*' ∉ indent.toList) (text : String) :
    endings (indent ++ text).toList = endings text.toList := by
  have last : indent.toList.getLast? ≠ some '*' := fun h => clean (List.mem_of_getLast? h)
  rw [String.toList_append, endings_append (.inl last), endings_eq_zero clean, Nat.zero_add]

theorem endings_escapedLine (line : String) : endings (escapedLine line).toList = 0 := by
  rw [escapedLine, String.toList_ofList, endings_escapeEnd]

theorem endings_decorated (clean : '*' ∉ indent.toList) (line : String) :
    endings (decorated indent line).toList = 0 := by
  unfold decorated
  split
  · rw [endings_indent clean]
    decide
  · rw [String.append_assoc, endings_indent clean, String.toList_append,
      endings_append (.inl (by decide)), endings_escapedLine]
    decide

/-- Line feeds bring no end about. -/
theorem endings_joinLines_cons (line : String) (rest : List String) :
    endings (joinLines (line :: rest)).toList =
      endings line.toList + endings (joinLines rest).toList := by
  cases rest with
  | nil => simp [joinLines, endings]
  | cons next later =>
    rw [joinLines, String.intercalate_cons_cons, String.toList_append, String.toList_append,
      List.append_assoc, endings_append (.inr (by simp)), ← String.toList_append,
      String.toList_append, endings_append (.inl (by decide)), ← joinLines]
    simp [endings]

/-- What ends in the last line only ends once. -/
theorem endings_joinLines_concat {lines : List String}
    (open_ : ∀ line ∈ lines, endings line.toList = 0) (last : String) :
    endings (joinLines (lines ++ [last])).toList = endings last.toList := by
  induction lines with
  | nil => rw [List.nil_append, joinLines, String.intercalate_singleton]
  | cons line rest ih =>
    obtain ⟨own, later⟩ := List.forall_mem_cons.mp open_
    rw [List.cons_append, endings_joinLines_cons, own, Nat.zero_add, ih later]

theorem prefix_joinLines (first : String) (rest : List String) :
    first.toList <+: (joinLines (first :: rest)).toList := by
  cases rest with
  | nil => simp [joinLines]
  | cons next later =>
    rw [joinLines, String.intercalate_cons_cons, String.append_assoc, String.toList_append]
    exact List.prefix_append _ _

theorem suffix_joinLines (lines : List String) (last : String) :
    last.toList <:+ (joinLines (lines ++ [last])).toList := by
  induction lines with
  | nil => simp [joinLines]
  | cons line rest ih =>
    obtain ⟨next, later, split⟩ := List.exists_cons_of_ne_nil (show rest ++ [last] ≠ [] by simp)
    rw [split] at ih
    rw [List.cons_append, split, joinLines, String.intercalate_cons_cons, String.toList_append]
    exact ih.trans (List.suffix_append _ _)

/-- **No description ends its comment early.** -/
theorem isComment_docComment (clean : '*' ∉ indent.toList) {lines : List (Option String)}
    (some_ : docComment indent lines ≠ []) :
    IsComment indent (joinLines (docComment indent lines)) := by
  rcases docComment_cases indent lines with
    ⟨-, written⟩ | ⟨line, -, written⟩ | ⟨-, written⟩
  · exact absurd written some_
  · have single : joinLines (docComment indent lines) =
        indent ++ ("/** " ++ escapedLine line ++ " */") := by
      rw [written, joinLines, String.intercalate_singleton, String.append_assoc,
        String.append_assoc, String.append_assoc]
    rw [single]
    refine ⟨?_, ?_, ?_⟩
    · simp only [String.toList_append, List.append_assoc, List.prefix_append_right_inj]
      exact ⟨_, rfl⟩
    · simp only [String.toList_append]
      exact List.suffix_append_of_suffix (List.suffix_append_of_suffix ⟨[' '], rfl⟩)
    · rw [endings_indent clean, String.toList_append, String.toList_append,
        endings_append (.inr (by decide)), endings_append (.inl (by decide)), endings_escapedLine]
      decide
  · rw [written]
    refine ⟨prefix_joinLines _ _, ?_, ?_⟩
    · have close : "*/".toList <:+ (indent ++ " */").toList := by
        rw [String.toList_append]
        exact List.suffix_append_of_suffix ⟨[' '], rfl⟩
      rw [← List.cons_append]
      exact close.trans (suffix_joinLines _ _)
    · have open_ : ∀ line ∈ (indent ++ "/**") ::
          (spaced (lines.map (·.getD ""))).map (decorated indent), endings line.toList = 0 := by
        refine List.forall_mem_cons.mpr ⟨?_, List.forall_mem_map.mpr fun line _ => ?_⟩
        · rw [endings_indent clean]
          decide
        · exact endings_decorated clean line
      rw [← List.cons_append, endings_joinLines_concat open_, endings_indent clean]
      decide

end Joined

/-- What a comment behind `indent` owes to the lines that it was made from. -/
structure Shows (indent : String) (lines : List (Option String)) (comment : List String) :
    Prop where
  closed : joinLines comment = "" ∨ IsComment indent (joinLines comment)
  empty_iff : comment = [] ↔ ∀ line ∈ lines, line = none ∨ line = some ""
  /-- Its lines are those that are not empty, in order, and one empty line between paragraphs. -/
  kept : ∃ written, readComment indent comment = some written ∧
    List.Forall₂ WrittenAs ((lines.map (·.getD "")).filter (· ≠ "")) (written.filter (· ≠ "")) ∧
    List.Forall₂ WrittenAs ([""].intercalate (paragraphs (lines.map (·.getD "")))) written

/-- **Comments hold what they are given**, behind any blank indent and whatever the lines say. -/
theorem docComment_shows {indent : String} (blank : ∀ c ∈ indent.toList, Text.isBlank c = true)
    (lines : List (Option String)) : Shows indent lines (docComment indent lines) := by
  have clean : '*' ∉ indent.toList := fun h => absurd (blank _ h) (by decide)
  have each (shown : List String) : List.Forall₂ WrittenAs shown (shown.map escapedLine) :=
    List.forall₂_map_right_iff.mpr (List.forall₂_same.mpr fun line _ => writtenAs_escapedLine line)
  refine ⟨?_, ?_, ⟨_, readComment_docComment indent lines, ?_, each _⟩⟩
  · by_cases none_ : docComment indent lines = []
    · exact .inl (by rw [none_]; rfl)
    · exact .inr (isComment_docComment clean none_)
  · have nothing : spaced (lines.map (·.getD "")) = [] ↔
        ∀ line ∈ lines, line = none ∨ line = some "" := by
      rw [spaced_eq_nil_iff, List.forall_mem_map]
      refine forall₂_congr fun line _ => ?_
      cases line <;> simp
    rw [← nothing]
    rcases docComment_cases indent lines with
      ⟨none_, written⟩ | ⟨line, single, written⟩ | ⟨some_, written⟩
    · simp [none_, written]
    · simp [single, written]
    · simp [some_, written]
  · have shown : (fun text => decide (text ≠ "")) ∘ escapedLine = fun line => decide (line ≠ "") :=
      funext fun line => by simp [escapedLine_eq_empty_iff]
    rw [← filter_spaced, List.filter_map (f := escapedLine), shown]
    exact each _

theorem docComment_shows_twoParagraphs :
    (∀ c ∈ "\t".toList, Text.isBlank c = true) ∧
      Shows "\t" [none, some "Rates **/ in percent", some "", none, some "See /* here."]
        (docComment "\t"
          [none, some "Rates **/ in percent", some "", none, some "See /* here."]) := by
  have blank : ∀ c ∈ "\t".toList, Text.isBlank c = true := by
    show ∀ c ∈ ['\t'], Text.isBlank c = true
    exact List.forall_mem_singleton.mpr (by decide)
  exact ⟨blank, docComment_shows blank _⟩

example : docComment "\t"
    [none, some "Rates **/ in percent", some "", none, some "See /* here."] =
    ["\t/**", "\t * Rates **\\/ in percent", "\t *", "\t * See /* here.", "\t */"] := by
  decide +kernel

end TypedApi.Code
