import Mathlib.Data.List.Chain
import TypedApi.Operation.PathTemplate
import TypedApi.Proofs.Noted

/-! # The parts of a path template

Written with braces around the names of parameters, the parts that are read from a template are the
template again (`written_of_parse`).  They are cut as coarsely as possible: no part is empty, and
no two literals stand side by side (`regular_of_parse`).
-/
namespace TypedApi.PathTemplate

/-- A part as it stands in a template: a parameter is its name in braces. -/
def written : PathPart → String
  | .literal text => text
  | .parameter name => "\x7b" ++ name ++ "\x7d"

/-- A stretch of a template as it stands there. -/
def Piece.written : Piece → List Char
  | .text cs => cs
  | .group cs => '\x7b' :: (cs ++ ['\x7d'])

/-- Not two texts. -/
def Piece.Apart : Piece → Piece → Prop
  | .text _, .text _ => False
  | _, _ => True

/-- Not two literals. -/
def Apart : PathPart → PathPart → Prop
  | .literal _, .literal _ => False
  | _, _ => True

/-- The text of a literal or the name of a parameter. -/
def content : PathPart → String
  | .literal text => text
  | .parameter name => name

/-- Parts that are not empty and are cut at parameters only. -/
structure Regular (parts : List PathPart) : Prop where
  nonempty : ∀ part ∈ parts, content part ≠ ""
  apart : parts.IsChain Apart

/-! ## Pieces -/

/-- Cutting a template into pieces loses nothing. -/
theorem written_pieces :
    (∀ text cs, (piecesFrom text cs).flatMap Piece.written = text.reverse ++ cs) ∧
    ∀ text name cs, (piecesInGroup text name cs).flatMap Piece.written =
      text.reverse ++ '\x7b' :: (name.reverse ++ cs) := by
  refine piecesFrom.mutual_induct
    (fun text cs => (piecesFrom text cs).flatMap Piece.written = text.reverse ++ cs)
    (fun text name cs => (piecesInGroup text name cs).flatMap Piece.written =
      text.reverse ++ '\x7b' :: (name.reverse ++ cs))
    ?done ?opened ?read ?unclosed ?closed ?reopened ?named
  case done =>
    intro text
    simp [piecesFrom, Piece.written]
  case opened =>
    intro text rest ih
    rw [piecesFrom, ih]
    rfl
  case read =>
    intro text c rest brace ih
    rw [piecesFrom, ih]
    · simp
    · exact brace
  case unclosed =>
    intro text name
    simp [piecesInGroup, Piece.written]
  case closed =>
    intro text name rest ih
    rw [piecesInGroup, List.flatMap_cons, List.flatMap_cons, ih]
    simp [Piece.written]
  case reopened =>
    intro text name rest ih
    rw [piecesInGroup, ih]
    simp
  case named =>
    intro text name c rest closing opening ih
    rw [piecesInGroup, ih]
    · simp
    · exact closing
    · exact opening

theorem chain_pieces :
    (∀ text cs, (piecesFrom text cs).IsChain Piece.Apart) ∧
    ∀ text name cs, (piecesInGroup text name cs).IsChain Piece.Apart := by
  refine piecesFrom.mutual_induct
    (fun text cs => (piecesFrom text cs).IsChain Piece.Apart)
    (fun text name cs => (piecesInGroup text name cs).IsChain Piece.Apart)
    ?done ?opened ?read ?unclosed ?closed ?reopened ?named
  case done =>
    intro text
    exact .singleton _
  case opened =>
    intro text rest ih
    rwa [piecesFrom]
  case read =>
    intro text c rest brace ih
    rwa [piecesFrom]
    exact brace
  case unclosed =>
    intro text name
    exact .singleton _
  case closed =>
    intro text name rest ih
    rw [piecesInGroup]
    refine List.isChain_cons_cons.mpr ⟨trivial, List.isChain_cons.mpr ⟨fun piece _ => ?_, ih⟩⟩
    cases piece <;> trivial
  case reopened =>
    intro text name rest ih
    rwa [piecesInGroup]
  case named =>
    intro text name c rest closing opening ih
    rwa [piecesInGroup]
    · exact closing
    · exact opening

/-! ## Parts -/

variable {template : String}

theorem partsOf_cons_eq_ok {piece : Piece} {rest : List Piece} {parts : List PathPart}
    (h : partsOf template (piece :: rest) = .ok parts) :
    ∃ later, partsOf template rest = .ok later ∧
      ((piece = .text [] ∧ parts = later) ∨
        (∃ cs, piece = .text cs ∧ cs ≠ [] ∧ parts = .literal (.ofList cs) :: later) ∨
        ∃ cs, piece = .group cs ∧ cs ≠ [] ∧ parts = .parameter (.ofList cs) :: later) := by
  cases piece with
  | text cs =>
    rw [partsOf] at h
    split at h
    · cases h
    · obtain ⟨later, hl, h⟩ := Except.bind_eq_ok.mp h
      refine ⟨later, hl, ?_⟩
      cases cs with
      | nil =>
        cases h
        exact .inl ⟨rfl, rfl⟩
      | cons c cs =>
        cases h
        exact .inr (.inl ⟨c :: cs, rfl, List.cons_ne_nil c cs, rfl⟩)
  | group cs =>
    rw [partsOf] at h
    split at h
    · rename_i named
      obtain ⟨later, hl, h⟩ := Except.bind_eq_ok.mp h
      cases h
      refine ⟨later, hl, .inr (.inr ⟨cs, rfl, fun empty => ?_, rfl⟩)⟩
      subst empty
      cases named
    · cases h

/-- The parts say what the pieces say. -/
theorem written_partsOf {pieces : List Piece} {parts : List PathPart}
    (h : partsOf template pieces = .ok parts) :
    parts.flatMap (fun part => (written part).toList) = pieces.flatMap Piece.written := by
  induction pieces generalizing parts with
  | nil =>
    cases h
    rfl
  | cons piece rest ih =>
    obtain ⟨later, hl, ⟨rfl, rfl⟩ | ⟨cs, rfl, -, rfl⟩ | ⟨cs, rfl, -, rfl⟩⟩ := partsOf_cons_eq_ok h
    · exact ih hl
    · rw [List.flatMap_cons, List.flatMap_cons, ih hl, written, String.toList_ofList, Piece.written]
    · rw [List.flatMap_cons, List.flatMap_cons, ih hl, written, Piece.written]
      simp

theorem ofList_ne_empty {cs : List Char} (h : cs ≠ []) : String.ofList cs ≠ "" :=
  fun empty => h (String.ofList_injective empty)

theorem eq_group_of_apart {cs : List Char} {piece : Piece} (h : Piece.Apart (.text cs) piece) :
    ∃ name, piece = .group name := by
  cases piece with
  | text other => cases h
  | group name => exact ⟨name, rfl⟩

/-- Pieces that alternate give parts that do: a group gives a parameter. -/
theorem regular_partsOf {pieces : List Piece} {parts : List PathPart}
    (h : partsOf template pieces = .ok parts) (chain : pieces.IsChain Piece.Apart) :
    Regular parts ∧ ((∀ piece ∈ pieces.head?, ∃ name, piece = .group name) →
      ∀ part ∈ parts.head?, ∃ name, part = .parameter name) := by
  induction pieces generalizing parts with
  | nil =>
    cases h
    exact ⟨⟨List.forall_mem_nil _, .nil⟩, by simp⟩
  | cons piece rest ih =>
    obtain ⟨first, tail⟩ := List.isChain_cons.mp chain
    obtain ⟨later, hl, ⟨rfl, rfl⟩ | ⟨cs, rfl, nonempty, rfl⟩ | ⟨cs, rfl, nonempty, rfl⟩⟩ :=
      partsOf_cons_eq_ok h
    · refine ⟨(ih hl tail).1, fun head => ?_⟩
      obtain ⟨name, same⟩ := head _ rfl
      cases same
    · obtain ⟨⟨allNonempty, apart⟩, behind⟩ := ih hl tail
      refine ⟨⟨List.forall_mem_cons.mpr ⟨ofList_ne_empty nonempty, allNonempty⟩,
        List.isChain_cons.mpr ⟨fun part hp => ?_, apart⟩⟩, fun head => ?_⟩
      · obtain ⟨name, rfl⟩ := behind (fun piece hp => eq_group_of_apart (first piece hp)) part hp
        trivial
      · obtain ⟨name, same⟩ := head _ rfl
        cases same
    · obtain ⟨⟨allNonempty, apart⟩, -⟩ := ih hl tail
      refine ⟨⟨List.forall_mem_cons.mpr ⟨ofList_ne_empty nonempty, allNonempty⟩,
        List.isChain_cons.mpr ⟨fun part _ => trivial, apart⟩⟩, fun _ part hp => ?_⟩
      cases hp
      exact ⟨_, rfl⟩

/-! ## Templates -/

theorem parse_eq_ok {url : PathTemplate} (h : parse template = .ok url) :
    url.text = template ∧ ∃ parts, partsOf template (piecesFrom [] template.toList) = .ok parts ∧
      ((parts = [] ∧ url.parts = [.literal template]) ∨ (parts ≠ [] ∧ url.parts = parts)) := by
  obtain ⟨parts, hp, h⟩ := Except.bind_eq_ok.mp h
  cases parts with
  | nil =>
    cases h
    exact ⟨rfl, [], hp, .inl ⟨rfl, rfl⟩⟩
  | cons part rest =>
    cases h
    exact ⟨rfl, part :: rest, hp, .inr ⟨List.cons_ne_nil part rest, rfl⟩⟩

/-- **Nothing of a template is lost.**  The parts read from a template, written down, are the
template. -/
theorem written_of_parse {url : PathTemplate} (h : parse template = .ok url) :
    String.join (url.parts.map written) = template := by
  obtain ⟨-, parts, hp, ⟨rfl, found⟩ | ⟨-, found⟩⟩ := parse_eq_ok h
  · rw [found]
    simp [written]
  · have lossless := written_partsOf hp
    rw [written_pieces.1, List.reverse_nil, List.nil_append] at lossless
    rw [found, ← String.toList_inj, String.toList_join, List.flatMap_map]
    exact lossless

/-- **Templates are cut at their parameters.**  The empty template has one empty literal; the parts of
any other are not empty, and no literal stands behind another. -/
theorem regular_of_parse {url : PathTemplate} (h : parse template = .ok url) :
    (url.parts = [.literal ""]) ∨ (url.parts ≠ [] ∧ Regular url.parts) := by
  obtain ⟨-, parts, hp, ⟨rfl, found⟩ | ⟨nonempty, found⟩⟩ := parse_eq_ok h
  · have lossless := written_partsOf hp
    rw [written_pieces.1] at lossless
    have empty : template = "" := String.toList_inj.mp lossless.symm
    exact .inl (found.trans (by rw [empty]))
  · rw [found]
    exact .inr ⟨nonempty, (regular_partsOf hp (chain_pieces.1 _ _)).1⟩

/-- A template without parameters is one literal. -/
theorem parts_of_literal {url : PathTemplate} (h : parse template = .ok url)
    (literal : url.hasParameters = false) : url.parts = [.literal template] := by
  have lossless := written_of_parse h
  rcases regular_of_parse h with empty | ⟨nonempty, -, apart⟩
  · rw [empty] at lossless ⊢
    rw [← lossless]
    rfl
  · obtain ⟨part, rest, split⟩ := List.exists_cons_of_ne_nil nonempty
    rw [split] at lossless apart ⊢
    rw [hasParameters, split] at literal
    cases part with
    | parameter name => simp at literal
    | literal text =>
      cases rest with
      | nil =>
        rw [← lossless]
        simp [written]
      | cons next later =>
        -- the next part is no literal, and there is no parameter
        cases next with
        | parameter name => simp at literal
        | literal other => exact (List.isChain_cons_cons.mp apart).1.elim

end TypedApi.PathTemplate
