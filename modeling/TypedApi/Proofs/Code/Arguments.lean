import Mathlib.Data.List.Basic
import Mathlib.Tactic.SplitIfs
import TypedApi.Proofs.Code.Words

/-! # The arguments of a call

An expression is read character by character: brackets open and close, and inside the double quotes
of a string literal neither they nor commas count.  An argument is a text that closes what it opens
and has no comma outside its brackets, so that nothing around it gets into it and no part of it gets
out (`Goes.frame`).  A call is therefore read back from its text: the function and each of the
arguments (`IsCall.unique`).
-/
namespace TypedApi.Code

/-! ## Reading an expression -/

/-- How a character of an expression is read. -/
inductive Mode where
  | code
  /-- Behind an equals sign, which makes an arrow of a closing angle bracket. -/
  | equals
  | quoted
  | escaped
deriving DecidableEq

/-- A point of an expression: what closes the brackets that are open there, the innermost one
first, and how the next character is read. -/
structure Point where
  opened : List Char
  mode : Mode
deriving DecidableEq

/-- What closes a bracket. -/
def closer? : Char → Option Char
  | '(' => some ')'
  | '[' => some ']'
  | '<' => some '>'
  | '\x7b' => some '\x7d'
  | _ => none

/-- A bracket that closes another. -/
def isCloser (c : Char) : Bool := c == ')' || c == ']' || c == '>' || c == '\x7d'

/-- What closes the innermost bracket. -/
def close (c : Char) : List Char → Option (List Char)
  | [] => none
  | awaited :: outer => if c == awaited then some outer else none

/-- Reads a character of code. A comma outside all brackets belongs to no expression. -/
def readCode (opened : List Char) (c : Char) : Option Point :=
  if c == '"' then some ⟨opened, .quoted⟩
  else if c == '=' then some ⟨opened, .equals⟩
  else if c == ',' && opened.isEmpty then none
  else if isCloser c then (close c opened).map (⟨·, .code⟩)
  else some ⟨(closer? c).toList ++ opened, .code⟩

/-- Reads a character. -/
def read (point : Point) (c : Char) : Option Point :=
  match point.mode with
  | .code => readCode point.opened c
  | .equals => if c == '>' then some ⟨point.opened, .code⟩ else readCode point.opened c
  | .quoted =>
    some ⟨point.opened, if c == '"' then .code else if c == '\\' then .escaped else .quoted⟩
  | .escaped => some ⟨point.opened, .quoted⟩

/-- Reading the text, with the brackets `before` open, leads to where those of `after` are. -/
def Goes (before : List Char) (text : String) (after : List Char) : Prop :=
  text.toList.foldlM read ⟨before, .code⟩ = some ⟨after, .code⟩

instance (before : List Char) (text : String) (after : List Char) :
    Decidable (Goes before text after) :=
  inferInstanceAs (Decidable (_ = _))

section Reading
variable {before opened after : List Char} {text rest : String}

theorem Goes.append (h : Goes before text opened) (h' : Goes opened rest after) :
    Goes before (text ++ rest) after := by
  rw [Goes, String.toList_append, List.foldlM_append, h]
  exact h'

theorem close_frame {c : Char} (h : close c before = some after) (outer : List Char) :
    close c (before ++ outer) = some (after ++ outer) := by
  cases before with
  | nil => cases h
  | cons awaited more =>
    obtain ⟨same, rfl⟩ := Option.ite_none_right_eq_some.mp h |>.imp_right Option.some.inj
    exact if_pos same

theorem readCode_frame {c : Char} {next : Point} (h : readCode before c = some next)
    (outer : List Char) :
    readCode (before ++ outer) c = some { next with opened := next.opened ++ outer } := by
  unfold readCode at h ⊢
  split_ifs at h with quote equals comma closes
  · cases h
    rw [if_pos quote]
  · cases h
    rw [if_neg quote, if_pos equals]
  · have inside : ¬(c == ',' && (before ++ outer).isEmpty) = true := by
      simp_all
    obtain ⟨left, found, rfl⟩ := Option.map_eq_some_iff.mp h
    rw [if_neg quote, if_neg equals, if_neg inside, if_pos closes, close_frame found]
    rfl
  · have inside : ¬(c == ',' && (before ++ outer).isEmpty) = true := by
      simp_all
    cases h
    rw [if_neg quote, if_neg equals, if_neg inside, if_neg closes, List.append_assoc]

theorem read_frame {point next : Point} {c : Char} (h : read point c = some next)
    (outer : List Char) :
    read { point with opened := point.opened ++ outer } c =
      some { next with opened := next.opened ++ outer } := by
  obtain ⟨opened, mode⟩ := point
  cases mode with
  | code => exact readCode_frame h outer
  | equals =>
    by_cases arrow : (c == '>') = true
    · rw [read, if_pos arrow] at h
      cases h
      simp [read, arrow]
    · rw [read, if_neg arrow] at h
      rw [read, if_neg arrow]
      exact readCode_frame h outer
  | quoted =>
    cases h
    rfl
  | escaped =>
    cases h
    rfl

/-- **What a text does inside brackets it does inside further ones.** -/
theorem Goes.frame (h : Goes before text after) (outer : List Char) :
    Goes (before ++ outer) text (after ++ outer) := by
  have run (cs : List Char) : ∀ {point next : Point}, cs.foldlM read point = some next →
      cs.foldlM read { point with opened := point.opened ++ outer } =
        some { next with opened := next.opened ++ outer } := by
    induction cs with
    | nil =>
      intro point next h
      cases h
      rfl
    | cons c cs ih =>
      intro point next h
      rw [List.foldlM_cons] at h ⊢
      obtain ⟨between, first, later⟩ := Option.bind_eq_some_iff.mp h
      rw [read_frame first outer]
      exact ih later
  exact run text.toList h

/-- The characters that a reader of code takes for more than themselves. -/
def marks : List Char := ['"', '=', ',', ')', ']', '>', '\x7d', '(', '[', '<', '\x7b']

theorem notMem_marks {c : Char} (h : isNamePart c = true) : c ∉ marks := by
  have none : (marks.all fun d => !isNamePart d) = true := by decide
  intro marked
  have other := List.all_eq_true.mp none c marked
  rw [h] at other
  cases other

theorem goes_of_isWord (h : IsWord text) (opened : List Char) : Goes opened text opened := by
  have plain {c : Char} (hc : isNamePart c = true) :
      read ⟨opened, .code⟩ c = some ⟨opened, .code⟩ := by
    have apart := notMem_marks hc
    simp only [marks, List.mem_cons, not_or, List.not_mem_nil, not_false_eq_true,
      and_true] at apart
    simp [read, readCode, isCloser, closer?, apart]
  have run (cs : List Char) (parts : ∀ c ∈ cs, isNamePart c = true) :
      cs.foldlM read ⟨opened, .code⟩ = some ⟨opened, .code⟩ := by
    induction cs with
    | nil => rfl
    | cons c cs ih =>
      obtain ⟨part, parts⟩ := List.forall_mem_cons.mp parts
      rw [List.foldlM_cons, plain part]
      exact ih parts
  exact run text.toList h.parts

end Reading

/-! ## Arguments -/

/-- A text that may stand as an argument: it closes what it opens, and no comma cuts it. -/
structure IsArgument (text : String) : Prop where
  nonempty : text ≠ ""
  closed : Goes [] text []

instance (text : String) : Decidable (IsArgument text) :=
  decidable_of_iff (text ≠ "" ∧ Goes [] text []) ⟨fun ⟨n, c⟩ => ⟨n, c⟩, fun ⟨n, c⟩ => ⟨n, c⟩⟩

theorem IsArgument.of_isWord {text : String} (h : IsWord text) : IsArgument text :=
  ⟨fun empty => h.nonempty (by rw [empty]; rfl), goes_of_isWord h []⟩

/-- Whatever leads to an argument without leaving anything open belongs to it. -/
theorem IsArgument.behind {lead text : String} (open_ : Goes [] lead []) (h : IsArgument text) :
    IsArgument (lead ++ text) := by
  refine ⟨fun empty => h.nonempty ?_, open_.append h.closed⟩
  have chars := congrArg String.toList empty
  rw [String.toList_append, String.toList_empty, List.append_eq_nil_iff] at chars
  exact String.toList_inj.mp chars.2

/-- What stands in brackets is an argument. -/
theorem isArgument_enclosed {lead inner trail : String} {opened : List Char}
    (some_ : opened ≠ []) (opens : Goes [] lead opened) (inside : Goes opened inner opened)
    (closes : Goes opened trail []) : IsArgument (lead ++ inner ++ trail) := by
  refine ⟨fun empty => ?_, (opens.append inside).append closes⟩
  have chars := congrArg String.toList empty
  simp only [String.toList_append, String.toList_empty, List.append_eq_nil_iff] at chars
  rw [Goes, chars.1.1] at opens
  exact some_ (congrArg Point.opened (Option.some.inj opens)).symm

theorem goes_intercalate {opened : List Char} {seam : String} (between : Goes opened seam opened)
    {texts : List String} (each : ∀ text ∈ texts, Goes opened text opened) :
    Goes opened (seam.intercalate texts) opened := by
  induction texts with
  | nil => rfl
  | cons text rest ih =>
    obtain ⟨own, later⟩ := List.forall_mem_cons.mp each
    cases rest with
    | nil =>
      rw [String.intercalate_singleton]
      exact own
    | cons next more =>
      rw [String.intercalate_cons_cons]
      exact (own.append between).append (ih later)

/-- Arguments may stand one after the other inside brackets. -/
theorem goes_commaList {args : List String} (each : ∀ a ∈ args, IsArgument a) (awaited : Char)
    (outer : List Char) : Goes (awaited :: outer) (Text.commaList args) (awaited :: outer) := by
  have comma : Goes (awaited :: outer) ", " (awaited :: outer) := rfl
  exact goes_intercalate comma fun a ha => (each a ha).closed.frame _

/-- The function that a call calls: a name, and the types it is called for. -/
inductive IsCallee : String → Prop
  | name {name : String} (word : IsWord name) : IsCallee name
  | typed {name type : String} (word : IsWord name) (closed : Goes [] type [])
      (uncalled : '(' ∉ type.toList) : IsCallee (name ++ "<" ++ type ++ ">")

theorem IsWord.notMem {name : String} (h : IsWord name) : '(' ∉ name.toList :=
  fun inside => absurd (h.parts _ inside) (by decide)

theorem IsCallee.closed {callee : String} (h : IsCallee callee) : Goes [] callee [] := by
  cases h with
  | name word => exact goes_of_isWord word []
  | typed word closed _ =>
    have opens : Goes [] "<" ['>'] := by decide
    have closes : Goes ['>'] ">" [] := by decide
    exact (((goes_of_isWord word []).append opens).append (closed.frame _)).append closes

theorem IsCallee.notMem {callee : String} (h : IsCallee callee) : '(' ∉ callee.toList := by
  cases h with
  | name word => exact word.notMem
  | typed word _ uncalled => simp [word.notMem, uncalled]

/-- The text of a call. -/
def callText (callee : String) (args : List String) : String :=
  callee ++ "(" ++ Text.commaList args ++ ")"

/-- The text is one call of `callee` with the given arguments. -/
structure IsCall (text callee : String) (args : List String) : Prop where
  text_eq : text = callText callee args
  callee : IsCallee callee
  args : ∀ a ∈ args, IsArgument a

theorem IsCall.isArgument {text callee : String} {args : List String}
    (h : IsCall text callee args) : IsArgument text := by
  obtain ⟨rfl, called, each⟩ := h
  have opens : Goes [] "(" [')'] := by decide
  exact isArgument_enclosed (by simp) (called.closed.append opens) (goes_commaList each ')' [])
    (by decide)

/-! ## Reading a call back -/

/-- What follows an argument before the given ones. -/
def afterArgument : List String → List Char
  | [] => [')']
  | args => ',' :: ' ' :: ((Text.commaList args).toList ++ [')'])

theorem commaList_cons (a : String) (rest : List String) :
    (Text.commaList (a :: rest)).toList ++ [')'] = a.toList ++ afterArgument rest := by
  cases rest with
  | nil => simp [Text.commaList, afterArgument]
  | cons next more =>
    rw [Text.commaList, String.intercalate_cons_cons, afterArgument, Text.commaList]
    · simp
    · simp

/-- Where an argument ends, its reading comes to an end. -/
theorem read_afterArgument (args : List String) :
    ∃ c rest, afterArgument args = c :: rest ∧ read ⟨[], .code⟩ c = none := by
  cases args with
  | nil => exact ⟨_, _, rfl, by decide⟩
  | cons next more => exact ⟨_, _, rfl, by decide⟩

theorem eq_of_goes {a b : String} {args others : List String} (ha : Goes [] a [])
    (hb : Goes [] b []) (same : a.toList ++ afterArgument args = b.toList ++ afterArgument others) :
    a = b := by
  -- the longer one would have been read beyond the end of the shorter one
  have stuck {a b : String} {args : List String} {more : List Char} (ha : Goes [] a [])
      (hb : Goes [] b []) (longer : b.toList = a.toList ++ more)
      (followed : more <+: afterArgument args) : more = [] := by
    obtain ⟨c, rest, split, stops⟩ := read_afterArgument args
    rw [split] at followed
    rcases List.prefix_cons_iff.mp followed with none_ | ⟨later, rfl, -⟩
    · exact none_
    · rw [Goes, longer, List.foldlM_append, ha] at hb
      simp [stops] at hb
  rcases List.append_eq_append_iff.mp same with ⟨more, longer, left⟩ | ⟨more, longer, left⟩
  · have none_ := stuck ha hb longer ⟨_, left.symm⟩
    rw [none_, List.append_nil] at longer
    exact String.toList_inj.mp longer.symm
  · have none_ := stuck hb ha longer ⟨_, left.symm⟩
    rw [none_, List.append_nil] at longer
    exact String.toList_inj.mp longer

theorem args_unique {args others : List String} (each : ∀ a ∈ args, IsArgument a)
    (each' : ∀ a ∈ others, IsArgument a)
    (same : (Text.commaList args).toList ++ [')'] = (Text.commaList others).toList ++ [')']) :
    args = others := by
  have missing {b : String} {rest : List String} (hb : IsArgument b)
      (same : [')'] = (Text.commaList (b :: rest)).toList ++ [')']) : False := by
    rw [commaList_cons] at same
    have nothing : Goes [] "" [] := rfl
    have single : "".toList ++ afterArgument [] = b.toList ++ afterArgument rest := same
    exact hb.nonempty (eq_of_goes nothing hb.closed single).symm
  induction args generalizing others with
  | nil =>
    cases others with
    | nil => rfl
    | cons b rest => exact (missing (each' b (by simp)) same).elim
  | cons a rest ih =>
    cases others with
    | nil => exact (missing (each a (by simp)) same.symm).elim
    | cons b rest' =>
      obtain ⟨own, later⟩ := List.forall_mem_cons.mp each
      obtain ⟨own', later'⟩ := List.forall_mem_cons.mp each'
      rw [commaList_cons, commaList_cons] at same
      obtain rfl := eq_of_goes own.closed own'.closed same
      have tails := List.append_cancel_left same
      congr 1
      cases rest with
      | nil =>
        cases rest' with
        | nil => rfl
        | cons _ _ => simp [afterArgument] at tails
      | cons _ _ =>
        cases rest' with
        | nil => simp [afterArgument] at tails
        | cons _ _ =>
          refine ih later later' ?_
          simpa [afterArgument] using tails

/-- What stands before the first bracket is determined by the text. -/
theorem append_bracket_inj {xs ys rest rest' : List Char} (hx : '(' ∉ xs) (hy : '(' ∉ ys)
    (same : xs ++ '(' :: rest = ys ++ '(' :: rest') : xs = ys ∧ rest = rest' := by
  induction xs generalizing ys with
  | nil =>
    cases ys with
    | nil => exact ⟨rfl, (List.cons.inj same).2⟩
    | cons y ys => exact absurd (List.cons.inj same).1 (List.ne_of_not_mem_cons hy)
  | cons x xs ih =>
    cases ys with
    | nil => exact absurd (List.cons.inj same).1.symm (List.ne_of_not_mem_cons hx)
    | cons y ys =>
      obtain ⟨rfl, later⟩ := List.cons.inj same
      obtain ⟨rfl, tails⟩ := ih (List.not_mem_of_not_mem_cons hx)
        (List.not_mem_of_not_mem_cons hy) later
      exact ⟨rfl, tails⟩

/-- **A call is read in one way**: its text says what is called and what its arguments are. -/
theorem IsCall.unique {text callee callee' : String} {args args' : List String}
    (h : IsCall text callee args) (h' : IsCall text callee' args') :
    callee = callee' ∧ args = args' := by
  obtain ⟨rfl, called, each⟩ := h
  obtain ⟨same, called', each'⟩ := h'
  have chars := congrArg String.toList same
  simp only [callText, String.toList_append, List.append_assoc] at chars
  obtain ⟨names, rest⟩ := append_bracket_inj called.notMem called'.notMem chars
  exact ⟨String.toList_inj.mp names, args_unique each each' rest⟩

theorem IsCall.iff {text callee callee' : String} {args args' : List String}
    (h : IsCall text callee args) : IsCall text callee' args' ↔ callee' = callee ∧ args' = args :=
  ⟨fun other => other.unique h, fun ⟨called, given⟩ => called ▸ given ▸ h⟩

example : IsCall "validateArray(x, (x, context) => validateString(x, context), [\"a,(\"])"
    "validateArray" ["x", "(x, context) => validateString(x, context)", "[\"a,(\"]"] :=
  ⟨by decide +kernel, .name (by decide), by decide +kernel⟩

end TypedApi.Code
