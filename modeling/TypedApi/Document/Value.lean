import TypedApi.Document.Moment
import TypedApi.Number.Binary64

/-! # Document values

A document is a tree of lists and mappings over scalars. A mapping keeps its members in the order
of the document, and its keys are scalars, which are not always text.
-/
namespace TypedApi

/-- A value without parts. -/
inductive Scalar where
  | null
  | bool (b : Bool)
  | int (n : Int)
  | float (x : Binary64)
  | text (s : String)
  /-- The text `s`, spelled with the two halves of UTF-16 pairs. No place that asks for
  well-formed text accepts it. -/
  | halvedText (s : String)
  | bytes (data : List UInt8)
  | day (d : Day)
  | moment (m : Moment)
deriving DecidableEq, Repr

/-- A value of a document. -/
inductive Value where
  | scalar (s : Scalar)
  | list (items : List Value)
  | map (members : List (Scalar × Value))
  /-- A mapping of which only the keys count. -/
  | set (items : List Scalar)
  /-- A member of a list of pairs. -/
  | pair (first second : Value)
  /-- A reference to a value that holds this one. -/
  | cycle
deriving Repr

/-- The members of a mapping. -/
abbrev Members := List (Scalar × Value)

namespace Value

/-- The absent value. -/
@[match_pattern] abbrev null : Value := .scalar .null

/-- A truth value. -/
@[match_pattern] abbrev bool (b : Bool) : Value := .scalar (.bool b)

/-- An integer. -/
@[match_pattern] abbrev int (n : Int) : Value := .scalar (.int n)

/-- A text. -/
@[match_pattern] abbrev text (s : String) : Value := .scalar (.text s)

/-- The text that a value is. -/
def text? : Value → Option String
  | .text s => some s
  | .scalar (.halvedText s) => some s
  | _ => none

/-- Whether a value counts as given: zero, the empty text and empty collections do not. -/
def isTruthy : Value → Bool
  | .scalar .null => false
  | .scalar (.bool b) => b
  | .scalar (.int n) => n != 0
  | .scalar (.float x) => !x.isZero
  | .scalar (.text s) => s != ""
  | .scalar (.bytes data) => !data.isEmpty
  | .scalar _ => true
  | .list items => !items.isEmpty
  | .map members => !members.isEmpty
  | .set items => !items.isEmpty
  | .pair _ _ => true
  | .cycle => true

/-- Whether a value is a mapping. -/
def isMap : Value → Bool
  | .map _ => true
  | _ => false

mutual

/-- How deep lists and mappings are nested in a value. -/
def depth : Value → Nat
  | .list items => itemsDepth items + 1
  | .map members => membersDepth members + 1
  | .pair first second => max first.depth second.depth + 1
  | _ => 0

/-- The greatest depth of some values. -/
def itemsDepth : List Value → Nat
  | [] => 0
  | v :: rest => max v.depth (itemsDepth rest)

/-- The greatest depth of the values of some members. -/
def membersDepth : List (Scalar × Value) → Nat
  | [] => 0
  | (_, v) :: rest => max v.depth (membersDepth rest)

end

theorem depth_le_itemsDepth {v : Value} {items : List Value} (h : v ∈ items) :
    v.depth ≤ itemsDepth items := by
  induction items with
  | nil => cases h
  | cons w rest ih =>
    rw [itemsDepth]
    rcases List.mem_cons.mp h with rfl | h
    · exact Nat.le_max_left _ _
    · exact Nat.le_trans (ih h) (Nat.le_max_right _ _)

theorem depth_le_membersDepth {m : Scalar × Value} {members : Members} (h : m ∈ members) :
    m.2.depth ≤ membersDepth members := by
  induction members with
  | nil => cases h
  | cons w rest ih =>
    rw [membersDepth]
    rcases List.mem_cons.mp h with rfl | h
    · exact Nat.le_max_left _ _
    · exact Nat.le_trans (ih h) (Nat.le_max_right _ _)

end Value

namespace Members

/-- The value of the first member whose key is the text `key`. -/
def get? (key : String) : Members → Option Value
  | [] => none
  | (k, v) :: rest => if k = .text key then some v else get? key rest

/-- The keys that are text, in document order. -/
def textKeys (members : Members) : List String :=
  members.filterMap fun m => match m.1 with
    | .text s => some s
    | _ => none

/-- Whether some member has the text `key` as its key. -/
def has (key : String) (members : Members) : Bool :=
  (members.get? key).isSome

/-- The value of the member with the text `key` as its key; the absent value without one. -/
def getD (key : String) (members : Members) : Value :=
  (members.get? key).getD .null

@[simp] theorem get?_nil (key : String) : get? key [] = none := rfl

/-- A value found in a mapping is a part of it. -/
theorem sizeOf_get? {key : String} {members : Members} {v : Value}
    (h : members.get? key = some v) : sizeOf v < sizeOf members := by
  induction members with
  | nil => simp at h
  | cons m rest ih =>
    obtain ⟨k, w⟩ := m
    simp only [get?] at h
    split at h
    · cases h
      simp
      omega
    · have := ih h
      simp
      omega

/-- A value found in a mapping is nested less deep. -/
theorem depth_get? {key : String} {members : Members} {v : Value}
    (h : members.get? key = some v) : v.depth ≤ Value.membersDepth members := by
  induction members with
  | nil => simp at h
  | cons m rest ih =>
    obtain ⟨k, w⟩ := m
    rw [Value.membersDepth]
    simp only [get?] at h
    split at h
    · cases h
      exact Nat.le_max_left _ _
    · exact Nat.le_trans (ih h) (Nat.le_max_right _ _)

end Members

namespace Scalar

/-- The number that a scalar stands for: the truth values stand for one and zero. -/
def number? : Scalar → Option (Int ⊕ Binary64)
  | .bool b => some (.inl (if b then 1 else 0))
  | .int n => some (.inl n)
  | .float x =>
    match x.toInt? with
    | some n => some (.inl n)
    | none => some (.inr x)
  | _ => none

/-- Whether two scalars count as the same key. Numbers are compared by what they stand for. -/
def same (a b : Scalar) : Bool :=
  match a.number?, b.number? with
  | some (.inl m), some (.inl n) => m == n
  | some (.inr x), some (.inr y) => x.same y
  | none, none => a == b
  | _, _ => false

end Scalar

/-- A mapping with the value at `key` set to `value`. A key that is there keeps its place. -/
def Members.insert (key : Scalar) (value : Value) : Members → Members
  | [] => [(key, value)]
  | (k, v) :: rest =>
    if k.same key then (k, value) :: rest else (k, v) :: Members.insert key value rest

end TypedApi
