import TypedApi.Proofs.Schema.CodecTree
import TypedApi.Proofs.Schema.Expressions

/-! # Which schemas are read from the text of a URL

Objects and maps have no written form in a URL.  A schema that resolves is read from text exactly if
no such schema is reached from it through alternatives and items (`Slot.fromParam_outcome`); what
stands below a map does not matter, for the map itself is refused.  The refusal is that of the first
node without a written form (`unreadable?_of_resolve`), so that neither the texts that the
expression is built from nor the imports of the file have a part in it, and one probe stands for
all later calls.
-/
namespace TypedApi

/-! ## Code that is written into a file -/

namespace Code.ImportSet

/-- Registers names from modules one after another. -/
def register (imports : ImportSet) : List Import → Except Failure ImportSet
  | [] => .ok imports
  | i :: rest => do
    let later ← imports.bind ⟨i.source.specifier imports.base, i.name, false⟩
    later.register rest

/-- Names are never refused: only modules as a whole may clash. -/
theorem register_eq (imports : ImportSet) (names : List Import) :
    imports.register names = .ok (imports.addAll names) := by
  induction names generalizing imports with
  | nil => simp [register, addAll]
  | cons i rest ih =>
    show (imports.bind _ >>= fun later => later.register rest) = _
    rw [bind, if_neg Bool.false_ne_true, Except.ok_bind, ih]
    simp [addAll]

end Code.ImportSet

/-- Runs a computation that writes code into a file with the given imports, which are left with
what it notes. -/
def Noted.into {α : Type} (x : Emission α) (imports : Code.ImportSet) :
    Except Failure (α × Code.ImportSet) := do
  let later ← imports.register x.notes
  let code ← x.result
  return (code, later)

theorem Noted.into_eq {α : Type} (x : Emission α) (imports : Code.ImportSet) :
    x.into imports = x.result.map fun code => (code, imports.addAll x.notes) := by
  rw [into, Code.ImportSet.register_eq, Except.ok_bind]
  cases x.result <;> rfl

theorem Noted.into_eq_error {α : Type} {x : Emission α} {imports : Code.ImportSet} {e : Failure} :
    x.into imports = .error e ↔ x.result = .error e := by
  rw [into_eq]
  cases x.result <;> simp [Except.map]

theorem Noted.into_eq_ok {α : Type} {x : Emission α} {imports : Code.ImportSet} :
    (∃ code later, x.into imports = .ok (code, later)) ↔ ∃ code, x.result = .ok code := by
  rw [into_eq]
  cases x.result <;> simp [Except.map]

/-! ## Nodes without a written form -/

/-- Why the values of a schema have no written form in a URL: it is a map or refers to an object. -/
def unwritten? (registry : Registry) (place : Place) (schema : Value) : Option ParameterFault :=
  match classify place schema with
  | .ok (.map _) => some (.map place)
  | .ok (.reference _ name) =>
    match registry.kind? name.upperCamel with
    | some .object => some (.object place name.upperCamel)
    | _ => none
  | _ => none

/-- A schema whose values are objects: a map, or a reference to an object component. -/
def Structured (registry : Registry) (place : Place) (schema : Value) : Prop :=
  (∃ values, classify place schema = .ok (.map values)) ∨
    ∃ text name, classify place schema = .ok (.reference text name) ∧
      registry.kind? name.upperCamel = some .object

/-- Why a codec by itself does not read the text of a URL. -/
def Codec.fault? : Codec → Option ParameterFault
  | .object name place => some (.object place name.upperCamel)
  | .map _ place => some (.map place)
  | _ => none

variable {registry : Registry} {place : Place} {schema : Value} {codec : Codec}

theorem structured_iff :
    Structured registry place schema ↔ ∃ fault, unwritten? registry place schema = some fault := by
  unfold Structured unwritten?
  cases classify place schema with
  | error e => simp
  | ok shape =>
    cases shape with
    | reference text name =>
      cases found : registry.kind? name.upperCamel with
      | none => simp [found]
      | some kind => cases kind <;> simp [found]
    | _ => simp

/-- A codec has the fault of its schema. -/
theorem fault?_of_resolve (h : (resolve registry place schema).result = .ok codec) :
    codec.fault? = unwritten? registry place schema := by
  obtain ⟨shape, found, heads⟩ := heads_of_resolve h
  rw [unwritten?, found]
  cases heads with
  | enumeration known => simp [known, Codec.fault?]
  | object known => simp [known, Codec.fault?]
  | _ => rfl

namespace Codec

mutual

/-- The first part without a written form is the first in the order of the nodes: what stands below
a map comes after the map. -/
theorem unreadable?_eq : ∀ codec : Codec,
    codec.unreadable? = codec.nodes.findSome? fun part => part.2.fault?
  | .boolean | .number _ | .text _ | .date | .dateTime | .enumeration _ | .object _ _ => rfl
  | .union options => by
    rw [unreadable?, nodes, List.findSome?_cons_of_isNone (by rfl), anyUnreadable?_eq options 0]
  | .array item => by
    rw [unreadable?, nodes, List.findSome?_cons_of_isNone (by rfl), List.findSome?_map,
      unreadable?_eq item]
    rfl
  | .map _ _ => rfl

theorem anyUnreadable?_eq : ∀ (options : List Codec) (index : Nat),
    anyUnreadable? options = (optionNodes index options).findSome? fun part => part.2.fault?
  | [], _ => rfl
  | option :: rest, index => by
    rw [anyUnreadable?, optionNodes, List.findSome?_append, List.findSome?_map,
      unreadable?_eq option, anyUnreadable?_eq rest (index + 1)]
    rfl

end

end Codec

theorem findSome?_of_forall₂ {α β γ : Type} {R : α → β → Prop} {f : α → Option γ}
    {g : β → Option γ} {as : List α} {bs : List β} (h : List.Forall₂ R as bs)
    (same : ∀ a b, R a b → f a = g b) :
    as.findSome? f = bs.findSome? g := by
  induction h with
  | nil => rfl
  | cons own _ ih => rw [List.findSome?_cons, List.findSome?_cons, same _ _ own, ih]

/-- **The first node without a written form decides** why a codec does not read the text of a
URL. -/
theorem unreadable?_of_resolve (h : (resolve registry place schema).result = .ok codec) :
    codec.unreadable? = (Schema.nodes schema).findSome? fun node =>
      unwritten? registry (place ++ node.1) node.2 := by
  rw [Codec.unreadable?_eq]
  refine (findSome?_of_forall₂ ((nodes_of_resolve registry).1 place schema codec h) ?_).symm
  rintro node part ⟨-, resolved⟩
  exact (fault?_of_resolve resolved).symm

/-- A schema without a written form that is reached at all is reached, or stands below another such
schema that is reached, through alternatives and items. -/
theorem exists_structured_iff (h : (resolve registry place schema).result = .ok codec) :
    (∃ path node, Schema.ReachesWithout ["additionalProperties"] schema path node ∧
      Structured registry (place ++ path) node) ↔ ∃ fault, codec.unreadable? = some fault := by
  rw [unreadable?_of_resolve h]
  constructor
  · rintro ⟨path, node, ⟨reached, -⟩, structured⟩
    obtain ⟨fault, unwritten⟩ := structured_iff.mp structured
    refine Option.isSome_iff_exists.mp (List.findSome?_isSome_iff.mpr
      ⟨(path, node), Schema.mem_nodes.mpr reached, ?_⟩)
    rw [unwritten]
    rfl
  · rintro ⟨fault, first⟩
    obtain ⟨⟨path, node⟩, listed, unwritten⟩ := List.exists_of_findSome?_eq_some first
    have reached := Schema.mem_nodes.mp listed
    by_cases kept : ∀ step ∈ path, step ∉ ["additionalProperties"]
    · exact ⟨path, node, ⟨reached, kept⟩, structured_iff.mpr ⟨fault, unwritten⟩⟩
    · -- the path leads through a map
      obtain ⟨before, turn, step, child, to_, avoided, below⟩ := Schema.exists_turn reached kept
      obtain ⟨part, -, resolved⟩ := exists_part_of_reaches h to_.1
      obtain ⟨shape, found, -⟩ := heads_of_resolve resolved
      rw [List.mem_singleton.mp avoided, Schema.below_of_classify found] at below
      exact ⟨before, turn, to_, .inl ⟨child, Shape.eq_map_of_mem_steps below ▸ found⟩⟩

/-! ## Slots -/

namespace Slot

/-- Reading the text of a URL agrees for a slot with what was found in the way of its codec. -/
theorem fromParam_cases (slot : Slot) (value context : String) :
    Codec.ReadingAgrees slot.codec.unreadable? (slot.fromParam value context) := by
  rw [fromParam_eq]
  rcases slot.codec.fromParam_cases value context with
    ⟨readable, expression, read⟩ | ⟨fault, unreadable, failed⟩
  · rw [Noted.bind_of_ok read]
    exact .inl ⟨readable, (slot.guardedIfOptional_spec value expression).1⟩
  · rw [Noted.bind_of_error failed]
    exact .inr ⟨fault, unreadable, rfl⟩

theorem codec_of_resolveSlot {required : Bool} {slot : Slot}
    (h : (resolveSlot registry place schema required).result = .ok slot) :
    (resolve registry place schema).result = .ok slot.codec := by
  obtain ⟨codec, resolved, h⟩ := Noted.bind_eq_ok.mp h
  cases h
  exact resolved

theorem fromParam_error_iff {slot : Slot} {value context : String} {e : Failure} :
    (slot.fromParam value context).result = .error e ↔
      ∃ fault, slot.codec.unreadable? = some fault ∧ e = .parameter fault := by
  rcases slot.fromParam_cases value context with
    ⟨readable, text, read⟩ | ⟨fault, unreadable, failed⟩
  · simp [readable, read]
  · simp [unreadable, failed, eq_comm]

theorem fromParam_ok_iff {slot : Slot} {value context : String} :
    (∃ text, (slot.fromParam value context).result = .ok text) ↔
      ¬ ∃ fault, slot.codec.unreadable? = some fault := by
  rcases slot.fromParam_cases value context with
    ⟨readable, text, read⟩ | ⟨fault, unreadable, failed⟩
  · simp [readable, read]
  · simp [unreadable, failed]

/-- **Which schemas are read from text.**  The expression that reads a schema from the text of a URL
is refused exactly if some schema reached through alternatives and items is a map or refers to an
object; otherwise there is one.  Neither the refusal nor its wording depends on the texts of value
and context, on the imports of the file, or on whether the value has to be there. -/
theorem fromParam_outcome {required : Bool} {slot : Slot}
    (h : (resolveSlot registry place schema required).result = .ok slot) (value context : String)
    (imports : Code.ImportSet) :
    ((∃ fault, (slot.fromParam value context).into imports = .error (.parameter fault)) ↔
      ∃ path node, Schema.ReachesWithout ["additionalProperties"] schema path node ∧
        Structured registry (place ++ path) node) ∧
    ((¬ ∃ path node, Schema.ReachesWithout ["additionalProperties"] schema path node ∧
        Structured registry (place ++ path) node) →
      ∃ text later, (slot.fromParam value context).into imports = .ok (text, later)) ∧
    ∀ required' slot' value' context' imports',
      (resolveSlot registry place schema required').result = .ok slot' → ∀ e,
        ((slot.fromParam value context).into imports = .error e ↔
          (slot'.fromParam value' context').into imports' = .error e) := by
  have resolved := codec_of_resolveSlot h
  refine ⟨?_, fun none_ => ?_, fun required' slot' value' context' imports' h' e => ?_⟩
  · rw [exists_structured_iff resolved]
    simp only [Noted.into_eq_error, fromParam_error_iff, Failure.parameter.injEq,
      exists_eq_right']
  · rw [exists_structured_iff resolved] at none_
    exact Noted.into_eq_ok.mpr (fromParam_ok_iff.mpr none_)
  · have same : slot'.codec = slot.codec :=
      Except.ok.inj ((codec_of_resolveSlot h').symm.trans resolved)
    rw [Noted.into_eq_error, Noted.into_eq_error, fromParam_error_iff, fromParam_error_iff, same]

/-- A reference to an object. -/
def owner : Value := .map [(.text "$ref", .text "#/components/schemas/Owner")]

/-- An owner by name or as an object. -/
def ownerChoice : Value :=
  .map [(.text "oneOf", .list [.map [(.text "type", .text "string")], owner])]

/-- Several owners. -/
def owners : Value := .map [(.text "type", .text "array"), (.text "items", ownerChoice)]

/-- A list is refused for one of the alternatives of its items. -/
theorem fromParam_outcome_owners :
    ∃ slot, (resolveSlot ⟨[("Owner", .object)]⟩ ["find", "query", "by"] owners false).result =
        .ok slot ∧
      ∃ fault, (slot.fromParam "req.query.by" "[]").into (.empty none) =
        .error (.parameter fault) := by
  obtain ⟨slot, resolved⟩ := Except.exists_of_isOk (show
    (resolveSlot ⟨[("Owner", .object)]⟩ ["find", "query", "by"] owners false).result.isOk = true by
      decide +kernel)
  have item : ("items", ownerChoice) ∈ Schema.below owners := by
    simp [owners, Schema.below, Schema.memberStep, Members.get?]
  have option : ("oneOf[1]", owner) ∈ Schema.below ownerChoice := by
    simp [ownerChoice, Schema.below, Schema.alternatives, Members.get?, optionSteps,
      show "oneOf[" ++ Nat.repr 1 ++ "]" = "oneOf[1]" from rfl]
  have named : Structured ⟨[("Owner", .object)]⟩
      ["find", "query", "by", "items", "oneOf[1]"] owner :=
    structured_iff.mpr
      ⟨.object ["find", "query", "by", "items", "oneOf[1]"] "Owner", by decide +kernel⟩
  exact ⟨slot, resolved, (fromParam_outcome resolved _ _ _).1.mpr
    ⟨["items", "oneOf[1]"], owner, ⟨.there item (.there option .here), by decide⟩, named⟩⟩

end Slot
end TypedApi
