import TypedApi.Yaml.Node
import TypedApi.Yaml.ScalarValue

/-! # The value of a text

Nodes become values from the root down, one level of nesting after the other. So of several
faults the one of the outermost level shows, and of those the first one in the text.
-/
namespace TypedApi.Yaml

/-- A fault with the level at which it shows. -/
structure Flaw where
  level : Nat
  fault : Fault
deriving DecidableEq, Repr

/-- A value at its level, or why there is none. -/
abbrev Built := Except Flaw

/-- All results, or the flaw of the outermost level; of those the first one. -/
def Built.all {α : Type} : List (Built α) → Built (List α)
  | [] => .ok []
  | .ok a :: rest => (all rest).map (a :: ·)
  | .error e :: rest =>
    match all rest with
    | .ok _ => .error e
    | .error f => .error (if f.level < e.level then f else e)

/-- Two results, or the flaw of the outer level. -/
def Built.both {α β : Type} (a : Built α) (b : Built β) : Built (α × β) :=
  match a, b with
  | .ok x, .ok y => .ok (x, y)
  | .ok _, .error f => .error f
  | .error e, .ok _ => .error e
  | .error e, .error f => .error (if f.level < e.level then f else e)

/-- The members of a mapping before they are put together. -/
structure Gathered where
  /-- The flaws of its merges. -/
  flaws : List Flaw
  /-- Whether it merges a mapping that holds it. -/
  endless : Bool
  /-- The members that it merges. -/
  merged : List (Built (Scalar × Value))
  /-- Its own members. -/
  own : List (Built (Scalar × Value))

namespace Gathered

/-- No members. -/
def empty : Gathered := ⟨[], false, [], []⟩

/-- All members: those of `first`, then those of `second`. -/
def append (first second : Gathered) : Gathered :=
  ⟨first.flaws ++ second.flaws, first.endless || second.endless, first.merged ++ second.merged,
    first.own ++ second.own⟩

/-- The members as members of a mapping that merges them. -/
def asMerged (g : Gathered) : Gathered := ⟨g.flaws, g.endless, g.merged ++ g.own, []⟩

/-- A flawed merge. -/
def flawed (level : Nat) : Gathered := ⟨[⟨level, .badMerge⟩], false, [], []⟩

/-- The mapping with the gathered members. A member given twice keeps its first place and its
last value. -/
def value (g : Gathered) : Built Value := do
  match g.flaws with
  | e :: _ => throw e
  | [] =>
    let members ← Built.all (g.merged ++ g.own)
    if g.endless then return .cycle
    else return .map (members.foldl (fun ms m => Members.insert m.1 m.2 ms) [])

end Gathered

namespace Node

/-- A fault at a level. -/
def flaw {α : Type} (level : Nat) (fault : Fault) : Built α := .error ⟨level, fault⟩

/-- The text of a node that must be a scalar. A mapping stands for its default value. -/
def scalarText? : Node → Option ScalarText
  | .scalar _ content => some content
  | .mapping _ _ entries => defaultText? entries
  | _ => none
where
  /-- The text of the first default value among the entries of a mapping. -/
  defaultText? : List (Node × Node) → Option ScalarText
  | [] => none
  | (key, value) :: rest =>
    if key.tag == .value then scalarText? value else defaultText? rest

/-- The scalar of a node whose type is that of a scalar. -/
def scalarValue (level : Nat) (tag : Tag) (node : Node) : Built Scalar :=
  match node.scalarText? with
  | none => flaw level .badTag
  | some content =>
    match ScalarValue.ofText tag content with
    | .ok s => .ok s
    | .error e => flaw level e

/-- Whether the values of a type are collections. -/
def isCollection (tag : Tag) : Bool :=
  tag == .seq || tag == .map || tag == .omap || tag == .pairs || tag == .set

/-- The key that a node is. -/
def key (level : Nat) (node : Node) : Built Scalar :=
  match node with
  | .enclosing _ => flaw level .collectionAsKey
  | node =>
    if isCollection node.tag then flaw level .collectionAsKey
    else scalarValue level (if node.tag == .value then .str else node.tag) node

/-- The keys of a mapping that stands for a set. -/
def keysOf (v : Value) : List Scalar :=
  match v with
  | .map members => members.map (·.1)
  | _ => []

mutual

/-- The value of a node at a level of nesting. -/
def value (level : Nat) : Node → Built Value
  | .enclosing _ => .ok .cycle
  | .scalar tag content =>
    if isCollection tag then flaw (level + 1) .badTag
    else (scalarValue level tag (.scalar tag content)).map .scalar
  | .sequence tag items =>
    if tag == .seq then (Built.all (values (level + 1) items)).map .list
    else if tag == .omap || tag == .pairs then
      (Built.all (pairs (level + 1) items)).map .list
    else flaw (if isCollection tag then level + 1 else level) .badTag
  | .mapping anchor tag entries =>
    if tag == .map then (gathered (level + 1) anchor.toList entries).value
    else if tag == .set then
      (gathered (level + 1) anchor.toList entries).value.map fun v => .set (keysOf v)
    else if isCollection tag then flaw (level + 1) .badTag
    else (scalarValue level tag (.mapping anchor tag entries)).map .scalar

/-- The values of the items of a sequence. -/
def values (level : Nat) : List Node → List (Built Value)
  | [] => []
  | item :: rest => value level item :: values level rest

/-- The pairs of a sequence whose items are mappings of one entry. -/
def pairs (level : Nat) : List Node → List (Built Value)
  | [] => []
  | .mapping _ _ [(first, second)] :: rest =>
    ((value level first).both (value level second)).map (fun p => .pair p.1 p.2)
      :: pairs level rest
  | _ :: rest => flaw level .badTag :: pairs level rest

/-- The members of a mapping with the given entries. `within` are the anchors of the mappings
that are being merged, which add nothing to themselves. -/
def gathered (level : Nat) (within : List String) : List (Node × Node) → Gathered
  | [] => .empty
  | (k, v) :: rest =>
    let later := gathered level within rest
    if k.tag == .merge then (mergedFrom level within v).append later
    else
      let member := (k.key level).both (value level v)
      ⟨later.flaws, later.endless, later.merged, member :: later.own⟩

/-- The members that a merge adds: those of a mapping or of the mappings in a sequence, where
those of a later one come first. -/
def mergedFrom (level : Nat) (within : List String) : Node → Gathered
  | .mapping anchor _ entries => (gathered level (anchor.toList ++ within) entries).asMerged
  | .sequence _ items => mergedAll level within items
  | .enclosing anchor =>
    if within.contains anchor then .empty else ⟨[], true, [], []⟩
  | .scalar _ _ => .flawed level

/-- The members that merging the items of a sequence adds. -/
def mergedAll (level : Nat) (within : List String) : List Node → Gathered
  | [] => .empty
  | .mapping anchor _ entries :: rest =>
    (mergedAll level within rest).append
      (gathered level (anchor.toList ++ within) entries).asMerged
  | .enclosing anchor :: rest =>
    (mergedAll level within rest).append
      (if within.contains anchor then .empty else ⟨[], true, [], []⟩)
  | _ :: rest => (mergedAll level within rest).append (.flawed level)

end
end Node

/-- The value of a text. An empty text has the absent value. -/
def valueOfText (text : String) : Except Fault Value := do
  match ← Node.ofText text with
  | none => return .null
  | some root =>
    match root.value 0 with
    | .ok v => return v
    | .error e => throw e.fault

end TypedApi.Yaml
