import Mathlib.Data.List.TakeWhile
import TypedApi.Proofs.Operation.PathTemplate
import TypedApi.Proofs.Text.Word

/-! # Which path templates are read

A template is legal if it is put together from stretches of text without braces and of names in
braces (`Piece.Legal`).  Such a template is read as its stretches with neighbouring texts joined
(`partsOf_written`), and no other template is read at all (`legal_of_partsOf`).  Reading and writing
are inverse to each other between the legal templates and the lists of parts in normal form
(`parse_exact`).
-/
namespace TypedApi.PathTemplate

/-! ## Legal stretches -/

/-- The characters of the name of a parameter: word characters, and perhaps a line feed behind
them. -/
def IsName (cs : List Char) : Prop :=
  ∃ word, word ≠ [] ∧ (∀ c ∈ word, Text.isWordChar c = true) ∧ (cs = word ∨ cs = word ++ ['\n'])

/-- A stretch that a template may have. -/
def Piece.Legal : Piece → Prop
  | .text cs => '\x7b' ∉ cs ∧ '\x7d' ∉ cs
  | .group cs => IsName cs

theorem isParameterName_iff {cs : List Char} : isParameterName cs = true ↔ IsName cs :=
  Text.isWordOf_iff Text.isWordChar_lineFeed

/-- No name has a brace in it. -/
theorem IsName.braceless {cs : List Char} (h : IsName cs) : '\x7b' ∉ cs ∧ '\x7d' ∉ cs := by
  have opening : Text.isWordChar '\x7b' = false := by decide +kernel
  have closing : Text.isWordChar '\x7d' = false := by decide +kernel
  obtain ⟨word, -, all, same⟩ := h
  have outside : ∀ c, Text.isWordChar c = false → c ≠ '\n' → c ∉ cs := by
    intro c no other hc
    have inside : c ∈ word ++ ['\n'] := by
      rcases same with rfl | rfl
      · exact List.mem_append_left _ hc
      · exact hc
    rcases List.mem_append.mp inside with hc | hc
    · exact absurd (all c hc) (by simp [no])
    · exact other (List.mem_singleton.mp hc)
  exact ⟨outside _ opening (by decide), outside _ closing (by decide)⟩

theorem any_isBrace_eq_false {cs : List Char} :
    cs.any isBrace = false ↔ '\x7b' ∉ cs ∧ '\x7d' ∉ cs := by
  rw [List.any_eq_false]
  constructor
  · intro none_
    exact ⟨fun hc => none_ _ hc rfl, fun hc => none_ _ hc rfl⟩
  · rintro ⟨opening, closing⟩ c hc brace
    rw [isBrace, Bool.or_eq_true, beq_iff_eq, beq_iff_eq] at brace
    rcases brace with rfl | rfl
    · exact opening hc
    · exact closing hc

/-! ## Reading legal stretches -/

/-- Text without braces joins the text that was read before it. -/
theorem piecesFrom_append {cs : List Char} (h : '\x7b' ∉ cs) (text rest : List Char) :
    piecesFrom text (cs ++ rest) = piecesFrom (cs.reverse ++ text) rest := by
  induction cs generalizing text with
  | nil => rfl
  | cons c cs ih =>
    rw [List.mem_cons, not_or] at h
    rw [List.cons_append, piecesFrom, ih h.2]
    · simp
    · exact fun brace => h.1 brace.symm

/-- A group without braces inside ends with the next closing brace. -/
theorem piecesInGroup_append {cs : List Char} (h : '\x7b' ∉ cs ∧ '\x7d' ∉ cs)
    (text name rest : List Char) :
    piecesInGroup text name (cs ++ '\x7d' :: rest) =
      .text text.reverse :: .group (name.reverse ++ cs) :: piecesFrom [] rest := by
  induction cs generalizing name with
  | nil => rw [List.nil_append, piecesInGroup, List.append_nil]
  | cons c cs ih =>
    rw [List.mem_cons, List.mem_cons, not_or, not_or] at h
    obtain ⟨⟨opening, first⟩, closing, second⟩ := h
    rw [List.cons_append, piecesInGroup, ih ⟨first, second⟩]
    · simp
    · exact fun brace => closing brace.symm
    · exact fun brace => opening brace.symm

/-- The literal that a text is, unless it is empty. -/
def literalOf (cs : List Char) : List PathPart :=
  if cs.isEmpty then [] else [.literal (.ofList cs)]

/-- The parts that some stretches behind a text are: texts that stand side by side are one
literal. -/
def joined (text : List Char) : List Piece → List PathPart
  | [] => literalOf text
  | .text cs :: rest => joined (text ++ cs) rest
  | .group cs :: rest => literalOf text ++ .parameter (.ofList cs) :: joined [] rest

variable {template : String}

theorem partsOf_text {cs : List Char} (h : '\x7b' ∉ cs ∧ '\x7d' ∉ cs) {rest : List Piece}
    {parts : List PathPart} (later : partsOf template rest = .ok parts) :
    partsOf template (.text cs :: rest) = .ok (literalOf cs ++ parts) := by
  rw [partsOf, if_neg (by rw [any_isBrace_eq_false.mpr h]; exact Bool.false_ne_true), later,
    Except.ok_bind, literalOf]
  split <;> rfl

theorem partsOf_group {cs : List Char} (h : IsName cs) {rest : List Piece}
    {parts : List PathPart} (later : partsOf template rest = .ok parts) :
    partsOf template (.group cs :: rest) = .ok (.parameter (.ofList cs) :: parts) := by
  rw [partsOf, if_pos (isParameterName_iff.mpr h), later]
  rfl

/-- **Legal templates are read.**  The parts are the stretches, with neighbouring texts joined. -/
theorem partsOf_written {pieces : List Piece} (legal : ∀ piece ∈ pieces, piece.Legal)
    {text : List Char} (h : '\x7b' ∉ text ∧ '\x7d' ∉ text) :
    partsOf template (piecesFrom text.reverse (pieces.flatMap Piece.written)) =
      .ok (joined text pieces) := by
  induction pieces generalizing text with
  | nil =>
    have none_ : partsOf template [] = .ok [] := rfl
    rw [List.flatMap_nil, piecesFrom, List.reverse_reverse, partsOf_text h none_, List.append_nil]
    rfl
  | cons piece rest ih =>
    obtain ⟨own, later⟩ := List.forall_mem_cons.mp legal
    rw [List.flatMap_cons]
    cases piece with
    | text cs =>
      have both : '\x7b' ∉ text ++ cs ∧ '\x7d' ∉ text ++ cs := by
        simp only [List.mem_append, not_or]
        exact ⟨⟨h.1, own.1⟩, h.2, own.2⟩
      rw [Piece.written, piecesFrom_append own.1, ← List.reverse_append]
      exact ih later both
    | group cs =>
      have written : Piece.written (.group cs) ++ rest.flatMap Piece.written =
          '\x7b' :: (cs ++ '\x7d' :: rest.flatMap Piece.written) := by simp [Piece.written]
      rw [written, piecesFrom, piecesInGroup_append own.braceless, List.reverse_reverse]
      exact partsOf_text h (partsOf_group own (ih later ⟨List.not_mem_nil, List.not_mem_nil⟩))

/-- Reading a whole template starts with no text. -/
theorem partsOf_flatMap_written {pieces : List Piece} (legal : ∀ piece ∈ pieces, piece.Legal) :
    partsOf template (piecesFrom [] (pieces.flatMap Piece.written)) = .ok (joined [] pieces) :=
  partsOf_written legal ⟨List.not_mem_nil, List.not_mem_nil⟩

/-! ## What is read is legal -/

/-- The stretch that a part is. -/
def pieceOf : PathPart → Piece
  | .literal text => .text text.toList
  | .parameter name => .group name.toList

theorem toList_written (part : PathPart) :
    (written part).toList = (pieceOf part).written := by
  cases part <;> simp [written, pieceOf, Piece.written]

/-- Pieces that give parts are legal, and so are the parts. -/
theorem legal_of_partsOf {pieces : List Piece} {parts : List PathPart}
    (h : partsOf template pieces = .ok parts) :
    (∀ piece ∈ pieces, piece.Legal) ∧ ∀ part ∈ parts, (pieceOf part).Legal := by
  induction pieces generalizing parts with
  | nil =>
    cases h
    exact ⟨List.forall_mem_nil _, List.forall_mem_nil _⟩
  | cons piece rest ih =>
    have own : piece.Legal := by
      cases piece with
      | text cs =>
        rw [partsOf] at h
        split at h
        · cases h
        · rename_i none_
          exact any_isBrace_eq_false.mp (Bool.not_eq_true _ ▸ none_)
      | group cs =>
        rw [partsOf] at h
        split at h
        · rename_i named
          exact isParameterName_iff.mp named
        · cases h
    obtain ⟨later, hl, ⟨rfl, rfl⟩ | ⟨cs, rfl, -, rfl⟩ | ⟨cs, rfl, -, rfl⟩⟩ := partsOf_cons_eq_ok h
    · exact ⟨List.forall_mem_cons.mpr ⟨own, (ih hl).1⟩, (ih hl).2⟩
    · refine ⟨List.forall_mem_cons.mpr ⟨own, (ih hl).1⟩, List.forall_mem_cons.mpr ⟨?_, (ih hl).2⟩⟩
      rwa [pieceOf, String.toList_ofList]
    · refine ⟨List.forall_mem_cons.mpr ⟨own, (ih hl).1⟩, List.forall_mem_cons.mpr ⟨?_, (ih hl).2⟩⟩
      rwa [pieceOf, String.toList_ofList]

/-- What speaks against a template is a brace or a name in it. -/
theorem fault_of_partsOf {pieces : List Piece} {failure : Failure}
    (h : partsOf template pieces = .error failure) :
    failure = .operation (.unbalancedBraces template) ∨
      ∃ name, failure = .operation (.parameterNameInPath name template) := by
  induction pieces with
  | nil => cases h
  | cons piece rest ih =>
    cases later : partsOf template rest with
    | error e =>
      cases piece <;>
      · rw [partsOf, later] at h
        split at h
        · cases h
          first
            | exact .inl rfl
            | exact ih later
        · cases h
          first
            | exact ih later
            | exact .inr ⟨_, rfl⟩
    | ok parts =>
      cases piece <;>
      · rw [partsOf, later] at h
        split at h <;> cases h
        first
          | exact .inl rfl
          | exact .inr ⟨_, rfl⟩

/-! ## Normal form -/

/-- The template that some parts spell. -/
def spelled (parts : List PathPart) : String := String.join (parts.map written)

/-- Parts as they are read: literals without braces and named parameters, no literals side by side,
and an empty literal only in the empty template. -/
structure Normal (parts : List PathPart) : Prop where
  legal : ∀ part ∈ parts, (pieceOf part).Legal
  apart : parts.IsChain Apart
  visible : .literal "" ∈ parts → spelled parts = ""

theorem toList_spelled (parts : List PathPart) :
    (spelled parts).toList = (parts.map pieceOf).flatMap Piece.written := by
  rw [spelled, String.toList_join, List.flatMap_map, List.flatMap_map]
  exact List.flatMap_congr fun part _ => toList_written part

theorem literalOf_toList {text : String} (h : text ≠ "") :
    literalOf text.toList = [.literal text] := by
  have visible : text.toList ≠ [] := fun empty => h (String.toList_inj.mp empty)
  rw [literalOf, if_neg (by simpa using visible), String.ofList_toList]

/-- Parts that stand apart are found again in their stretches. -/
theorem joined_pieces {parts : List PathPart} (regular : Regular parts) :
    joined [] (parts.map pieceOf) = parts := by
  induction parts with
  | nil => rfl
  | cons part rest ih =>
    obtain ⟨first, nonempty⟩ := List.forall_mem_cons.mp regular.nonempty
    obtain ⟨apart, tail⟩ := List.isChain_cons.mp regular.apart
    have later := ih ⟨nonempty, tail⟩
    rw [List.map_cons]
    cases part with
    | parameter name =>
      rw [pieceOf, joined, later, String.ofList_toList]
      rfl
    | literal text =>
      rw [pieceOf, joined, List.nil_append]
      cases rest with
      | nil => exact literalOf_toList first
      | cons next rest =>
        cases next with
        | literal other => exact (apart _ rfl).elim
        | parameter name =>
          -- the literal ends where the parameter starts
          rw [List.map_cons, pieceOf, joined] at later ⊢
          rw [show literalOf text.toList = [.literal text] from literalOf_toList first]
          exact congrArg (.literal text :: ·) later

theorem spelled_eq_empty {parts : List PathPart} (h : spelled parts = "") :
    ∀ part ∈ parts, part = .literal "" := by
  intro part hp
  have none_ : (written part).toList = [] := by
    have all := toList_spelled parts
    rw [h, String.toList_empty, List.flatMap_map, eq_comm, List.flatMap_eq_nil_iff] at all
    rw [toList_written]
    exact all part hp
  cases part with
  | literal text =>
    have empty : text = "" := String.toList_inj.mp none_
    rw [empty]
  | parameter name => simp [written] at none_

/-- Parts in normal form stand apart, or are those of the empty template. -/
theorem Normal.cases {parts : List PathPart} (h : Normal parts) (nonempty : parts ≠ []) :
    parts = [.literal ""] ∨ Regular parts := by
  by_cases empty : .literal "" ∈ parts
  · have all := spelled_eq_empty (h.visible empty)
    left
    match parts, nonempty with
    | [part], _ => rw [all part List.mem_cons_self]
    | part :: next :: rest, _ =>
      have apart := (List.isChain_cons_cons.mp h.apart).1
      rw [all part List.mem_cons_self, all next (by simp)] at apart
      exact apart.elim
  · refine .inr ⟨fun part hp none_ => ?_, h.apart⟩
    cases part with
    | literal text =>
      rw [show text = "" from none_] at hp
      exact empty hp
    | parameter name =>
      obtain ⟨word, given, -, same⟩ := h.legal _ hp
      rw [show name = "" from none_, String.toList_empty] at same
      rcases same with same | same
      · exact given same.symm
      · exact List.cons_ne_nil _ _ (List.append_eq_nil_iff.mp same.symm).2

theorem normal_of_parse {url : PathTemplate} (h : parse template = .ok url) :
    Normal url.parts := by
  obtain ⟨-, parts, hp, ⟨rfl, found⟩ | ⟨-, found⟩⟩ := parse_eq_ok h
  · have empty : template = "" := by
      have lossless := written_partsOf hp
      rw [written_pieces.1] at lossless
      exact String.toList_inj.mp lossless.symm
    rw [found, empty]
    refine ⟨List.forall_mem_singleton.mpr ?_, .singleton _, fun _ => by rw [spelled]; decide⟩
    exact ⟨List.not_mem_nil, List.not_mem_nil⟩
  · have regular := (regular_partsOf hp (chain_pieces.1 _ _)).1
    rw [found]
    exact ⟨(legal_of_partsOf hp).2, regular.apart,
      fun empty => absurd rfl (regular.nonempty _ empty)⟩

theorem parse_spelled {parts : List PathPart} (nonempty : parts ≠ []) (h : Normal parts) :
    parse (spelled parts) = .ok ⟨spelled parts, parts⟩ := by
  rcases h.cases nonempty with rfl | regular
  · exact Except.eq_ok_of_toOption (by decide +kernel)
  · have legal : ∀ piece ∈ parts.map pieceOf, piece.Legal := by
      intro piece hp
      obtain ⟨part, inside, rfl⟩ := List.mem_map.mp hp
      exact h.legal part inside
    rw [parse, toList_spelled, partsOf_flatMap_written legal, joined_pieces regular,
      Except.ok_bind]
    split
    · exact absurd rfl nonempty
    · rfl

/-- A template is read exactly if it is put together from legal stretches. -/
theorem parse_isOk_iff : (∃ url, parse template = .ok url) ↔
    ∃ pieces : List Piece, (∀ piece ∈ pieces, piece.Legal) ∧
      template.toList = pieces.flatMap Piece.written := by
  constructor
  · rintro ⟨url, h⟩
    obtain ⟨parts, hp, -⟩ := Except.bind_eq_ok.mp h
    exact ⟨_, (legal_of_partsOf hp).1, by rw [written_pieces.1]; rfl⟩
  · rintro ⟨pieces, legal, same⟩
    rw [parse, same, partsOf_flatMap_written legal, Except.ok_bind]
    split <;> exact ⟨_, rfl⟩

theorem fault_of_parse {failure : Failure} (h : parse template = .error failure) :
    failure = .operation (.unbalancedBraces template) ∨
      ∃ name, failure = .operation (.parameterNameInPath name template) := by
  unfold parse at h
  cases found : partsOf template (piecesFrom [] template.toList) with
  | error e =>
    rw [found] at h
    cases h
    exact fault_of_partsOf found
  | ok parts =>
    rw [found, Except.ok_bind] at h
    split at h <;> cases h

/-- **Reading templates, exactly.**  A template is read if and only if it is put together from text
without braces and names in braces; what speaks against any other is a brace or a name in it.  The
parts that are read spell the template and are in normal form, and parts in normal form are read
back from the template that they spell. -/
theorem parse_exact :
    (∀ template, (∃ url, parse template = .ok url) ↔
      ∃ pieces : List Piece, (∀ piece ∈ pieces, piece.Legal) ∧
        template.toList = pieces.flatMap Piece.written) ∧
    (∀ template failure, parse template = .error failure →
      failure = .operation (.unbalancedBraces template) ∨
        ∃ name, failure = .operation (.parameterNameInPath name template)) ∧
    (∀ template url, parse template = .ok url →
      url.text = template ∧ spelled url.parts = template ∧ url.parts ≠ [] ∧ Normal url.parts) ∧
    ∀ parts, parts ≠ [] → Normal parts →
      parse (spelled parts) = .ok ⟨spelled parts, parts⟩ := by
  refine ⟨fun template => parse_isOk_iff, fun template failure => fault_of_parse,
    fun template url h => ⟨(parse_eq_ok h).1, written_of_parse h, ?_, normal_of_parse h⟩,
    fun parts => parse_spelled⟩
  rcases regular_of_parse h with empty | ⟨nonempty, -⟩
  · rw [empty]
    exact List.cons_ne_nil _ _
  · exact nonempty

theorem parse_exact_ownerRepo :
    ∃ url, parse "/v1/\x7bowner\x7d\x7brepo\x7d-files" = .ok url ∧ Normal url.parts ∧
      parse (spelled url.parts) = .ok ⟨spelled url.parts, url.parts⟩ := by
  have found : parse "/v1/\x7bowner\x7d\x7brepo\x7d-files" = .ok
      ⟨"/v1/\x7bowner\x7d\x7brepo\x7d-files",
        [.literal "/v1/", .parameter "owner", .parameter "repo", .literal "-files"]⟩ :=
    Except.eq_ok_of_toOption (by decide +kernel)
  obtain ⟨-, -, reads, writes⟩ := parse_exact
  obtain ⟨-, -, nonempty, normal⟩ := reads _ _ found
  exact ⟨_, found, normal, writes _ nonempty normal⟩

end TypedApi.PathTemplate
