import TypedApi.Code.Name
import TypedApi.Code.SourceFile
import TypedApi.Support.File

/-! # The exports of a file

A file exports the name that follows `export` and the kind of the declaration at the start of a
line.  The exports are read off the text of the file; a declaration among the lines of a file is
found there (`mem_exports_of_holds`, `mem_exports_of_support`).
-/
namespace TypedApi.Code

/-- How exported declarations start. -/
def exportLeads : List String :=
  ["export type ", "export const ", "export class ", "export abstract class "]

/-- The name that a line exports. -/
def exportedName? (line : List Char) : Option String :=
  (exportLeads.find? fun lead => lead.toList.isPrefixOf line).map fun lead =>
    .ofList ((line.drop lead.toList.length).takeWhile isNamePart)

/-- The names that a file with the given text exports. -/
def exports (content : String) : List String :=
  (content.toList.splitOn '\n').filterMap exportedName?

/-- The characters that a line which exports `name` starts with. -/
def exportStart (lead name : String) : List Char :=
  lead.toList ++ name.toList ++ [' ']

theorem exportStart_append (lead word name : String) :
    exportStart lead (word ++ name) = exportStart (lead ++ word) name := by
  simp only [exportStart, String.toList_append, List.append_assoc]

/-- Some line starts as the exported declaration of `name`. -/
def Starts (lines : List String) (name : String) : Prop :=
  ∃ lead ∈ exportLeads, ∃ line ∈ lines, exportStart lead name <+: line.toList

/-- Some line declares an exported name. -/
structure Declares (lines : List String) (name : String) : Prop where
  plain : ∀ c ∈ name.toList, isNamePart c = true
  line : Starts lines name

theorem eq_of_isPrefixOf_lead : ∀ lead ∈ exportLeads, ∀ other ∈ exportLeads,
    lead.toList.isPrefixOf other.toList = true → lead = other := by
  decide +kernel

/-- No line starts as two kinds of declarations. -/
theorem find_lead {lead : String} (h : lead ∈ exportLeads) (rest : List Char) :
    exportLeads.find? (fun l => l.toList.isPrefixOf (lead.toList ++ rest)) = some lead := by
  have own : lead.toList.isPrefixOf (lead.toList ++ rest) = true :=
    List.isPrefixOf_iff_prefix.mpr (List.prefix_append _ _)
  cases found : exportLeads.find? (fun l => l.toList.isPrefixOf (lead.toList ++ rest)) with
  | none => exact absurd own (List.find?_eq_none.mp found lead h)
  | some other =>
    have ho := List.mem_of_find?_eq_some found
    have start : other.toList <+: lead.toList ++ rest :=
      List.isPrefixOf_iff_prefix.mp (by simpa using List.find?_some found)
    rcases List.prefix_or_prefix_of_prefix start (List.prefix_append _ _) with h' | h'
    · rw [eq_of_isPrefixOf_lead other ho lead h (List.isPrefixOf_iff_prefix.mpr h')]
    · rw [eq_of_isPrefixOf_lead lead h other ho (List.isPrefixOf_iff_prefix.mpr h')]

theorem exportedName?_exportStart {lead name : String} (h : lead ∈ exportLeads)
    (plain : ∀ c ∈ name.toList, isNamePart c = true) (rest : List Char) :
    exportedName? (exportStart lead name ++ rest) = some name := by
  have blank : isNamePart ' ' = false := by decide
  rw [exportedName?, exportStart, List.append_assoc, List.append_assoc, find_lead h,
    Option.map_some, List.drop_left, List.takeWhile_append_of_pos plain]
  simp [blank]

theorem feed_notMem_exportStart {lead name : String} (h : lead ∈ exportLeads)
    (plain : ∀ c ∈ name.toList, isNamePart c = true) : '\n' ∉ exportStart lead name := by
  have leads : ∀ lead ∈ exportLeads, '\n' ∉ lead.toList := by decide +kernel
  intro hm
  rcases List.mem_append.mp hm with hm | hm
  · rcases List.mem_append.mp hm with hm | hm
    · exact leads lead h hm
    · exact absurd (plain _ hm) (by decide)
  · exact absurd hm (by decide)

/-! ## The start of a line -/

/-- The text has `start` at the start of a line. -/
def LineStart (start text : List Char) : Prop :=
  ∃ before after, text = before ++ start ++ after ∧
    (before = [] ∨ ∃ earlier, before = earlier ++ ['\n'])

namespace LineStart
variable {start text : List Char}

theorem refl (start : List Char) : LineStart start start :=
  ⟨[], [], by simp, .inl rfl⟩

theorem append_right (h : LineStart start text) (more : List Char) :
    LineStart start (text ++ more) := by
  obtain ⟨before, after, rfl, first⟩ := h
  exact ⟨before, after ++ more, by simp, first⟩

/-- Whole lines may stand before. -/
theorem after_feed (h : LineStart start text) (earlier : List Char) :
    LineStart start (earlier ++ '\n' :: text) := by
  obtain ⟨before, after, rfl, first⟩ := h
  refine ⟨earlier ++ '\n' :: before, after, by simp, .inr ?_⟩
  rcases first with rfl | ⟨lines, rfl⟩
  · exact ⟨earlier, rfl⟩
  · exact ⟨earlier ++ '\n' :: lines, by simp⟩

theorem intercalate {parts : List (List Char)} {part : List Char} (h : LineStart start part)
    (hp : part ∈ parts) (feeds : List Char) :
    LineStart start ((feeds ++ ['\n']).intercalate parts) := by
  induction parts with
  | nil => cases hp
  | cons first rest ih =>
    cases rest with
    | nil =>
      rw [List.mem_singleton] at hp
      rw [List.intercalate_singleton, ← hp]
      exact h
    | cons second later =>
      rw [List.intercalate_cons_cons]
      rcases List.mem_cons.mp hp with rfl | hp
      · exact (h.append_right _).append_right _
      · have := (ih hp).after_feed (first ++ feeds)
        simpa using this

/-- The rest of a line and what follows it. -/
theorem exists_rest_of_line (after : List Char) :
    ∃ rest, '\n' ∉ rest ∧ (after = rest ∨ ∃ later, after = rest ++ '\n' :: later) := by
  induction after with
  | nil => exact ⟨[], List.not_mem_nil, .inl rfl⟩
  | cons c after ih =>
    by_cases hc : c = '\n'
    · subst hc
      exact ⟨[], List.not_mem_nil, .inr ⟨after, rfl⟩⟩
    · obtain ⟨rest, feed, split⟩ := ih
      refine ⟨c :: rest, by simp [feed, Ne.symm hc], ?_⟩
      rcases split with rfl | ⟨later, rfl⟩
      · exact .inl rfl
      · exact .inr ⟨later, rfl⟩

/-- The line that starts so is one of the lines of the text. -/
theorem mem_splitOn (h : LineStart start text) (feed : '\n' ∉ start) :
    ∃ rest, start ++ rest ∈ text.splitOn '\n' := by
  obtain ⟨before, after, rfl, first⟩ := h
  -- the line goes on up to the next line feed
  obtain ⟨rest, hr, split⟩ := exists_rest_of_line after
  have hline : '\n' ∉ start ++ rest := by simp [feed, hr]
  have line : start ++ rest ∈ (start ++ after).splitOn '\n' := by
    rcases split with rfl | ⟨later, rfl⟩
    · rw [List.splitOn_eq_singleton hline]
      exact List.mem_singleton_self _
    · rw [← List.append_assoc, List.splitOn_append_cons_self, List.splitOn_eq_singleton hline]
      exact List.mem_cons_self
  refine ⟨rest, ?_⟩
  rcases first with rfl | ⟨earlier, rfl⟩
  · exact line
  · rw [List.append_assoc, List.append_assoc, List.singleton_append,
      List.splitOn_append_cons_self]
    exact List.mem_append_right _ line

/-- A declaration at the start of a line is among the exports. -/
theorem mem_exports {lead name content : String} (hl : lead ∈ exportLeads)
    (plain : ∀ c ∈ name.toList, isNamePart c = true)
    (h : LineStart (exportStart lead name) content.toList) : name ∈ exports content := by
  obtain ⟨rest, hm⟩ := h.mem_splitOn (feed_notMem_exportStart hl plain)
  exact List.mem_filterMap.mpr ⟨_, hm, exportedName?_exportStart hl plain rest⟩

/-- Empty lines in front may go. -/
theorem dropWhile_feeds (h : LineStart start text) (feed : '\n' ∉ start) (nonempty : start ≠ []) :
    LineStart start (text.dropWhile (· == '\n')) := by
  obtain ⟨before, after, rfl, first⟩ := h
  rw [List.append_assoc, List.dropWhile_append]
  split
  · -- nothing but line feeds stands before the start, which has none
    obtain ⟨c, cs, rfl⟩ := List.exists_cons_of_ne_nil nonempty
    have hc : (c == '\n') = false := by
      simpa using fun h : c = '\n' => feed (h ▸ List.mem_cons_self)
    rw [List.cons_append, List.dropWhile_cons_of_neg (by simp [hc])]
    exact ⟨[], after, rfl, .inl rfl⟩
  · rename_i some_left
    refine ⟨_, after, List.append_assoc .. |>.symm, .inr ?_⟩
    rcases first with rfl | ⟨earlier, rfl⟩
    · simp at some_left
    · rw [List.dropWhile_append]
      split
      · rename_i empty
        rw [List.dropWhile_append, if_pos empty] at some_left
        simp at some_left
      · exact ⟨_, rfl⟩

/-- Empty lines at the end may go. -/
theorem dropWhile_end (h : LineStart start text) (feed : '\n' ∉ start) (nonempty : start ≠ []) :
    LineStart start (text.reverse.dropWhile (· == '\n')).reverse := by
  obtain ⟨before, after, rfl, first⟩ := h
  refine ⟨before, (after.reverse.dropWhile (· == '\n')).reverse, ?_, first⟩
  -- read from the end, the start itself stops the dropping
  have own : (start.reverse ++ before.reverse).dropWhile (· == '\n') =
      start.reverse ++ before.reverse := by
    obtain ⟨c, cs, split⟩ := List.exists_cons_of_ne_nil (List.reverse_ne_nil_iff.mpr nonempty)
    have hc : (c == '\n') = false := by
      simpa using fun h : c = '\n' =>
        feed (List.mem_reverse.mp (split ▸ h ▸ List.mem_cons_self))
    rw [split, List.cons_append, List.dropWhile_cons_of_neg (by simp [hc])]
  rw [List.reverse_append, List.reverse_append, List.dropWhile_append, own]
  split
  · rename_i empty
    rw [List.isEmpty_iff.mp empty]
    simp
  · simp

theorem trimFeeds {s : String} (h : LineStart start s.toList) (feed : '\n' ∉ start)
    (nonempty : start ≠ []) : LineStart start (trimFeeds s).toList := by
  rw [Code.trimFeeds, String.toList_ofList]
  exact (h.dropWhile_feeds feed nonempty).dropWhile_end feed nonempty

theorem joinLines {lines : List String} {line : String} (hl : line ∈ lines)
    (h : start <+: line.toList) : LineStart start (joinLines lines).toList := by
  obtain ⟨after, split⟩ := h
  have own : LineStart start line.toList := ⟨[], after, by simp [split], .inl rfl⟩
  rw [Code.joinLines, String.toList_intercalate]
  exact own.intercalate (List.mem_map_of_mem hl) []

theorem fileText {sections : List String} {section_ : String} (hs : section_ ∈ sections)
    (h : LineStart start section_.toList) (visible : Text.isBlankText section_ = false)
    (feed : '\n' ∉ start) (nonempty : start ≠ []) :
    LineStart start (fileText sections).toList := by
  have kept : Code.trimFeeds section_ ∈
      (sections.filter fun s => !Text.isBlankText s).map Code.trimFeeds :=
    List.mem_map_of_mem (List.mem_filter.mpr ⟨hs, by simp [visible]⟩)
  have own := (h.trimFeeds feed nonempty).intercalate
    (List.mem_map_of_mem (f := String.toList) kept) ['\n']
  have := (own.append_right ['\n']).after_feed header.toList
  rw [Code.fileText]
  simp only [String.toList_append, String.toList_intercalate]
  simpa using this

end LineStart

/-! ## The exports of generated files and of support files -/

section Exports
variable {name : String} {lines : List String}

theorem exists_visible (name : String) {lead : String} (h : lead ∈ exportLeads) :
    ∃ c ∈ exportStart lead name, Text.isBlank c = false := by
  have word : exportLeads.all (fun lead => lead.toList.any fun c => !Text.isBlank c) = true := by
    decide +kernel
  obtain ⟨c, hc, visible⟩ := List.any_eq_true.mp (List.all_eq_true.mp word lead h)
  exact ⟨c, by simp [exportStart, hc], by simpa using visible⟩

/-- The declarations of a generated file are exported. -/
theorem mem_exports_of_holds {file : SourceFile} {imports : String}
    (content : file.content = fileText [imports, joinLines lines]) (h : Declares lines name) :
    name ∈ exports file.content := by
  obtain ⟨plain, lead, hl, line, hm, start⟩ := h
  obtain ⟨c, hc, visible⟩ := exists_visible name hl
  have own : LineStart (exportStart lead name) (joinLines lines).toList := .joinLines hm start
  -- blank sections are left out of a file, but this one shows a declaration
  have shown : Text.isBlankText (joinLines lines) = false := by
    obtain ⟨before, after, split, -⟩ := own
    rw [Text.isBlankText, split, List.all_eq_false]
    exact ⟨c, by simp [hc], by simp [visible]⟩
  refine LineStart.mem_exports hl plain ?_
  rw [content]
  exact own.fileText (by simp) shown (feed_notMem_exportStart hl plain) (List.ne_nil_of_mem hc)

/-- The declarations of a support file are exported. -/
theorem mem_exports_of_support {path : String} (h : Declares lines name) :
    name ∈ exports (Support.file path lines).content := by
  obtain ⟨plain, lead, hl, line, hm, start⟩ := h
  refine LineStart.mem_exports hl plain ?_
  have own := (LineStart.joinLines hm start).after_feed header.toList
  rw [Support.file]
  simpa [String.toList_append] using own

end Exports
end TypedApi.Code
