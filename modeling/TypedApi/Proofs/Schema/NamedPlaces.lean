import TypedApi.Proofs.Schema.Demands
import TypedApi.Proofs.Schema.Refusals

/-! # Which failures name their place

A resolution stops at the first node that is not supported, and which one that is does not depend on
the place of the schema (`FirstFault`).  Its failure is worded with the place of the node in all
cases but one: of a reference that is well formed as a schema and leads to no component, the words
only tell the target (`namesPlace_iff`).
-/
namespace TypedApi

/-- The names of a place joined by dots. -/
def dotted (place : Place) : String :=
  ".".intercalate place

/-- The text `part` stands somewhere in `text`. -/
def Occurs (part text : String) : Prop :=
  part.toList <:+: text.toList

instance (part text : String) : Decidable (Occurs part text) :=
  inferInstanceAs (Decidable (part.toList <:+: text.toList))

/-! ## Texts in texts -/

theorem occurs_middle (before part after : String) : Occurs part (before ++ part ++ after) :=
  ⟨before.toList, after.toList, by simp⟩

theorem Occurs.append_right {part text : String} (h : Occurs part text) (after : String) :
    Occurs part (text ++ after) := by
  rw [Occurs, String.toList_append]
  exact h.trans (List.prefix_append _ _).isInfix

theorem Occurs.trans {part middle text : String} (h : Occurs part middle)
    (h' : Occurs middle text) : Occurs part text :=
  List.IsInfix.trans h h'

theorem Occurs.length_le {part text : String} (h : Occurs part text) :
    part.length ≤ text.length := by
  rw [← String.length_toList, ← String.length_toList]
  exact List.IsInfix.length_le h

theorem occurs_dotted_text (place : Place) : Occurs (dotted place) place.text := by
  rw [Place.text, ← dotted]
  split
  · rename_i empty
    rw [eq_of_beq empty]
    exact ⟨[], _, rfl⟩
  · exact List.infix_refl _

theorem occurs_dotted_head (step : String) (path : Place) :
    Occurs step (dotted (step :: path)) := by
  rw [Occurs, dotted, String.toList_intercalate, List.map_cons]
  cases path with
  | nil => exact List.infix_append [] step.toList []
  | cons next path =>
    rw [List.map_cons, List.intercalate_cons_cons, List.append_assoc]
    exact (List.prefix_append _ _).isInfix

/-- No text has room for all places. -/
theorem exists_not_occurs (text : String) :
    ∃ step : String, ∀ path, ¬ Occurs (dotted (step :: path)) text := by
  refine ⟨.ofList (List.replicate (text.length + 1) 'a'), fun path h => ?_⟩
  have long := ((occurs_dotted_head _ path).trans h).length_le
  rw [← String.length_toList, String.toList_ofList, List.length_replicate] at long
  omega

/-- Every shape fault is worded with its place. -/
theorem ShapeFault.occurs_message (place : Place) (fault : ShapeFault) :
    Occurs place.text (fault.message place) := by
  cases fault <;> delta ShapeFault.message <;> dsimp only <;>
    first
    | with_reducible exact occurs_middle _ _ _
    | with_reducible exact (occurs_middle _ _ _).append_right _

theorem occurs_message_shape (place : Place) (fault : ShapeFault) :
    Occurs (dotted place) (Failure.shape place fault).message :=
  (occurs_dotted_text place).trans (fault.occurs_message place)

/-! ## Failures that tell a place -/

namespace Schema

/-- A schema that is nothing but a reference in form of a text. -/
def LoneReference (schema : Value) : Prop :=
  ∃ (members : Members) (target : String), schema = .map members ∧ Only members ["$ref"] ∧
    (members.getD "$ref").text? = some target

end Schema

open Schema

variable {registry : Registry} {place : Place} {schema : Value}

/-- A classification that is refused tells the place, unless it stopped at the text of a
reference. -/
theorem occurs_of_classify (other : ¬ LoneReference schema) {e : Failure}
    (h : classify place schema = .error e) (refused : e.isRefusal = true) :
    Occurs (dotted place) e.message := by
  obtain ⟨members, rfl, stopped⟩ | rfl := stoppedBy_of_classify h
  · cases stopped with
    | fault fault => exact occurs_message_shape place fault
    | noText =>
      have worded : Occurs place.text (ReferenceFault.notText place).message :=
        occurs_middle "Expected '$ref' of '" place.text "' to be a string"
      exact (occurs_dotted_text place).trans worded
    | key _ => cases refused
    | target only found _ =>
      exact absurd ⟨members, _, rfl, expectOnly_eq_ok_iff.mp only, found⟩ other
  · exact occurs_message_shape place _

/-- Only references to nowhere are refused without their place. -/
theorem occurs_of_objection (other : ¬ LoneReference schema) {e : Failure}
    (h : objection? registry place schema = some e) (refused : e.isRefusal = true) :
    Occurs (dotted place) e.message := by
  unfold objection? at h
  split at h
  · rename_i failed
    cases h
    exact occurs_of_classify other failed refused
  · cases h
    exact occurs_message_shape place .inlineEnum
  · cases h
    exact occurs_message_shape place .inlineObject
  · rename_i target name shaped
    obtain ⟨members, rfl, only, ⟨v, found, text⟩, -⟩ := classify_eq_ok_iff.mp shaped
    exact absurd ⟨members, target, rfl, only, text?_getD_eq_some_iff.mpr ⟨v, found, text⟩⟩ other
  · cases h

/-! ## Places do not matter -/

theorem supported_congr (place' : Place) :
    Supported registry place schema ↔ Supported registry place' schema := by
  simp only [Supported, classify_eq_ok_iff]

/-- A lone reference is read without its place. -/
theorem classify_of_loneReference (lone : LoneReference schema) :
    ∃ target, ∀ place,
      classify place schema = (parseReference target).map (Shape.reference target) := by
  obtain ⟨members, target, rfl, only, found⟩ := lone
  have there : members.has "$ref" = true := by
    obtain ⟨v, hv, -⟩ := text?_getD_eq_some_iff.mp found
    exact has_iff.mpr ⟨v, hv⟩
  refine ⟨target, fun place => ?_⟩
  rw [classify, ofMembers, if_pos there, reference, expectOnly_eq_ok_iff.mpr only,
    Except.ok_bind, found]
  dsimp only
  cases parseReference target <;> rfl

/-- What speaks against a lone reference does not tell where it stands. -/
theorem objection?_of_loneReference (lone : LoneReference schema) (place' : Place) :
    objection? registry place schema = objection? registry place' schema := by
  obtain ⟨target, read⟩ := classify_of_loneReference lone
  rw [objection?, objection?, read place, read place']
  cases parseReference target <;> rfl

/-- The first schema, in document order, that is not supported. -/
def FirstFault (registry : Registry) (schema : Value) (path : Place) (node : Value) : Prop :=
  ∃ earlier later, Schema.nodes schema = earlier ++ (path, node) :: later ∧
    (∀ n ∈ earlier, Supported registry [] n.2) ∧ ¬ Supported registry [] node

theorem resolveSlot_eq_error_iff {required : Bool} {e : Failure} :
    (resolveSlot registry place schema required).result = .error e ↔
      ∃ path node, FirstFault registry schema path node ∧
        objection? registry (place ++ path) node = some e := by
  rw [← Noted.failure?_eq_some, failure?_resolveSlot, firstObjection_eq_some]
  constructor
  · rintro ⟨earlier, path, node, later, split, before, objection⟩
    refine ⟨path, node, ⟨earlier, later, split, fun n hn => ?_, fun fine => ?_⟩, objection⟩
    · exact (supported_congr _).mp (before n hn)
    · rw [objection?_eq_none.mpr ((supported_congr _).mp fine)] at objection
      cases objection
  · rintro ⟨path, node, ⟨earlier, later, split, before, -⟩, objection⟩
    exact ⟨earlier, path, node, later, split,
      fun n hn => (supported_congr _).mp (before n hn), objection⟩

/-- There is at most one first. -/
theorem FirstFault.unique {path path' : Place} {node node' : Value}
    (h : FirstFault registry schema path node) (h' : FirstFault registry schema path' node') :
    path = path' ∧ node = node' := by
  obtain ⟨earlier, later, split, before, unsupported⟩ := h
  obtain ⟨earlier', later', split', before', unsupported'⟩ := h'
  -- a fault further on would stand behind the other, which is not supported
  rcases List.append_eq_append_iff.mp (split.symm.trans split') with
    ⟨between, rfl, rest⟩ | ⟨between, rfl, rest⟩
  · cases between with
    | nil =>
      cases rest
      exact ⟨rfl, rfl⟩
    | cons n between =>
      cases rest
      exact absurd (before' _ (List.mem_append_right _ List.mem_cons_self)) unsupported
  · cases between with
    | nil =>
      cases rest
      exact ⟨rfl, rfl⟩
    | cons n between =>
      cases rest
      exact absurd (before _ (List.mem_append_right _ List.mem_cons_self)) unsupported'

theorem FirstFault.exists_objection {path : Place} {node : Value}
    (h : FirstFault registry schema path node) (place : Place) :
    ∃ e, objection? registry place node = some e := by
  obtain ⟨_, _, -, -, unsupported⟩ := h
  rw [← Option.ne_none_iff_exists']
  intro none_
  exact unsupported ((supported_congr _).mp (objection?_eq_none.mp none_))

theorem FirstFault.reaches {path : Place} {node : Value}
    (h : FirstFault registry schema path node) : Schema.Reaches schema path node := by
  obtain ⟨earlier, later, split, -⟩ := h
  exact Schema.mem_nodes.mp (split ▸ List.mem_append_right _ List.mem_cons_self)

/-- The failure of a resolution is what speaks against the first fault. -/
theorem FirstFault.resolveSlot_eq_error_iff {path : Place} {node : Value}
    (h : FirstFault registry schema path node) {required : Bool} {e : Failure} :
    (resolveSlot registry place schema required).result = .error e ↔
      objection? registry (place ++ path) node = some e := by
  rw [TypedApi.resolveSlot_eq_error_iff]
  constructor
  · rintro ⟨path', node', other, objection⟩
    obtain ⟨rfl, rfl⟩ := h.unique other
    exact objection
  · intro objection
    exact ⟨path, node, h, objection⟩

/-- **Which failures name their place.**  A schema with texts as keys fails to resolve exactly if
there is a first fault in it, wherever the schema stands.  The failure is worded with the dotted
path to the fault, at every place but the root, exactly if the fault is not a lone reference. -/
theorem namesPlace_iff (registry : Registry) (schema : Value) (required : Bool)
    (keyed : schema.hasTextKeys = true) :
    (∀ place, (∃ e, (resolveSlot registry place schema required).result = .error e) ↔
      ∃ path node, FirstFault registry schema path node) ∧
    ∀ path node, FirstFault registry schema path node →
      ((∀ place, place ≠ [] → ∀ e, (resolveSlot registry place schema required).result = .error e →
          Occurs (dotted (place ++ path)) e.message) ↔
        ¬ LoneReference node) := by
  constructor
  · intro place
    constructor
    · rintro ⟨e, h⟩
      obtain ⟨path, node, fault, -⟩ := resolveSlot_eq_error_iff.mp h
      exact ⟨path, node, fault⟩
    · rintro ⟨path, node, fault⟩
      obtain ⟨e, objection⟩ := fault.exists_objection (place ++ path)
      exact ⟨e, fault.resolveSlot_eq_error_iff.mpr objection⟩
  · intro path node fault
    constructor
    · intro named lone
      obtain ⟨e, objection⟩ := fault.exists_objection []
      -- the words are the same at every place, so that some place is not among them
      obtain ⟨step, absent⟩ := exists_not_occurs e.message
      have failed : (resolveSlot registry [step] schema required).result = .error e := by
        rw [fault.resolveSlot_eq_error_iff, objection?_of_loneReference lone []]
        exact objection
      exact absent path (named [step] (List.cons_ne_nil _ _) e failed)
    · intro other place _ e h
      have objection := fault.resolveSlot_eq_error_iff.mp h
      exact occurs_of_objection other objection
        (isRefusal_of_objection (Schema.keyed_of_reaches fault.reaches keyed) objection)

/-- A list whose items have a type that is none. -/
def listOfNulls : Value :=
  .map [(.text "type", .text "array"), (.text "items", .map [(.text "type", .text "null")])]

/-- The fault of a list is found among its items, and its place is named. -/
theorem namesPlace_iff_listOfNulls :
    ∃ e, (resolveSlot ⟨[]⟩ ["Widget", "field"] listOfNulls true).result = .error e ∧
      Occurs "Widget.field.items" e.message := by
  have fault : FirstFault ⟨[]⟩ listOfNulls ["items"] (.map [(.text "type", .text "null")]) := by
    refine ⟨[([], listOfNulls)], [], ?_, ?_, ?_⟩
    · rw [nodes_eq]
      show ([], listOfNulls) :: nodesFrom [("items", _)] = _
      rw [nodesFrom, List.flatMap_singleton, nodes_eq]
      rfl
    · intro n hn
      obtain rfl := List.mem_singleton.mp hn
      exact ⟨.array _, rfl, trivial⟩
    · rintro ⟨shape, classified, -⟩
      cases classified
  obtain ⟨fails, named⟩ := namesPlace_iff ⟨[]⟩ listOfNulls true (by decide)
  obtain ⟨e, h⟩ := (fails ["Widget", "field"]).mpr ⟨_, _, fault⟩
  have other : ¬ LoneReference (.map [(.text "type", .text "null")]) := by
    rintro ⟨members, target, same, -, found⟩
    cases same
    cases found
  have path : "Widget.field.items" = dotted (["Widget", "field"] ++ ["items"]) := by decide +kernel
  exact ⟨e, h, path ▸ (named _ _ fault).mpr other _ (List.cons_ne_nil _ _) e h⟩

/-- The words for a reference to no component do not tell where it stands. -/
theorem not_occurs_missing :
    ∃ e, (resolveSlot ⟨[]⟩ ["Widget", "field"]
        (.map [(.text "$ref", .text "#/components/schemas/Missing")]) true).result = .error e ∧
      e.message = "Reference to undefined schema 'Missing' in components.schemas" ∧
      ¬ Occurs (dotted ["Widget", "field"]) e.message := by
  refine ⟨.reference (.unknown "Missing"), ?_, by decide +kernel, by decide +kernel⟩
  rw [← Noted.failure?_eq_some, failure?_resolveSlot]
  exact firstObjection_of_objection rfl

end TypedApi
