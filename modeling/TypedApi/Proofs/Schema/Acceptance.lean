import TypedApi.Proofs.Schema.Nodes
import TypedApi.Proofs.Schema.Resolution

/-! # Which schemas resolve

A schema resolves exactly if nothing speaks against any schema inside it, looked at on its own, and
otherwise it fails for what speaks against the first of them in document order
(`resolveSlot_outcome`).  Everything rests on one equation: the failure of a resolution is the first
objection along the nodes of the schema (`failure?_resolve`).
-/
namespace TypedApi

/-- A shape that resolves if its parts do: it is no enumeration or object, and a reference names a
component. -/
def Registry.Admits (registry : Registry) : Shape → Prop
  | .enumeration _ => False
  | .object _ _ => False
  | .reference _ name => ∃ kind, registry.kind? name.upperCamel = some kind
  | _ => True

/-- A schema at `place` that resolves if the schemas below it do. -/
def Supported (registry : Registry) (place : Place) (schema : Value) : Prop :=
  ∃ shape, classify place schema = .ok shape ∧ registry.Admits shape

/-- What speaks against a schema at `place`, whatever stands below it. -/
def objection? (registry : Registry) (place : Place) (schema : Value) : Option Failure :=
  match classify place schema with
  | .error e => some e
  | .ok (.enumeration _) => some (.shape place .inlineEnum)
  | .ok (.object _ _) => some (.shape place .inlineObject)
  | .ok (.reference _ name) =>
    match registry.kind? name.upperCamel with
    | some _ => none
    | none => some (.reference (.unknown name.upperCamel))
  | .ok _ => none

variable {registry : Registry} {place : Place} {schema : Value}

theorem objection?_eq_none :
    objection? registry place schema = none ↔ Supported registry place schema := by
  unfold objection? Supported
  cases classify place schema with
  | error e => simp
  | ok shape =>
    cases shape with
    | reference text name =>
      cases found : registry.kind? name.upperCamel <;> simp [Registry.Admits, found]
    | _ => simp [Registry.Admits]

/-! ## The first objection -/

/-- What speaks against the first of some schemas below `place`. -/
def firstObjection (registry : Registry) (place : Place) (nodes : List (Place × Value)) :
    Option Failure :=
  nodes.findSome? fun node => objection? registry (place ++ node.1) node.2

theorem firstObjection_step (step : String) (nodes : List (Place × Value)) :
    firstObjection registry place (nodes.map fun node => (step :: node.1, node.2)) =
      firstObjection registry (place ++ [step]) nodes := by
  simp [firstObjection, List.findSome?_map, Function.comp_def]

theorem firstObjection_nodesFrom_cons (step : String) (child : Value)
    (later : List (String × Value)) :
    firstObjection registry place (Schema.nodesFrom ((step, child) :: later)) =
      (firstObjection registry (place ++ [step]) (Schema.nodes child)).or
        (firstObjection registry place (Schema.nodesFrom later)) := by
  rw [← firstObjection_step, Schema.nodesFrom_cons]
  exact List.findSome?_append

theorem firstObjection_nodes :
    firstObjection registry place (Schema.nodes schema) =
      (objection? registry place schema).or
        (firstObjection registry place (Schema.nodesFrom (Schema.below schema))) := by
  rw [Schema.nodes_eq, firstObjection, List.findSome?_cons, List.append_nil]
  cases objection? registry place schema <;> rfl

/-- A shape that is admitted leaves the decision to its parts. -/
theorem firstObjection_of_classify {shape : Shape} (h : classify place schema = .ok shape)
    (admitted : registry.Admits shape) :
    firstObjection registry place (Schema.nodes schema) =
      firstObjection registry place (Schema.nodesFrom shape.steps) := by
  rw [firstObjection_nodes, objection?_eq_none.mpr ⟨shape, h, admitted⟩,
    Schema.below_of_classify h, Option.none_or]

theorem firstObjection_of_objection {e : Failure} (h : objection? registry place schema = some e) :
    firstObjection registry place (Schema.nodes schema) = some e := by
  rw [firstObjection_nodes, h, Option.some_or]

theorem firstObjection_of_leaf {shape : Shape} (h : classify place schema = .ok shape)
    (leaf : shape.steps = []) :
    firstObjection registry place (Schema.nodes schema) = objection? registry place schema := by
  rw [firstObjection_nodes, Schema.below_of_classify h, leaf]
  exact Option.or_none

theorem failure?_resolveReference {name : Identifier} :
    (resolveReference registry place name).failure? =
      match registry.kind? name.upperCamel with
      | some _ => none
      | none => some (.reference (.unknown name.upperCamel)) := by
  unfold resolveReference Registry.kindOf
  cases registry.kind? name.upperCamel <;> rfl

/-- **The first objection decides.**  A resolution fails exactly for what speaks against the first of
the nodes of the schema. -/
theorem failure?_resolve (registry : Registry) :
    (∀ place schema, (resolve registry place schema).failure? =
      firstObjection registry place (Schema.nodes schema)) ∧
    ∀ place index options, (resolveOptions registry place index options).failure? =
      firstObjection registry place (Schema.nodesFrom (optionSteps index options)) := by
  refine resolve.mutual_induct
    (fun place schema => (resolve registry place schema).failure? =
      firstObjection registry place (Schema.nodes schema))
    (fun place index options => (resolveOptions registry place index options).failure? =
      firstObjection registry place (Schema.nodesFrom (optionSteps index options)))
    ?error ?reference ?oneOf ?boolean ?number ?date ?dateTime ?text ?map ?array ?enumeration
    ?object ?nil ?cons
  case error =>
    intro place schema e h
    rw [resolve_of_error h, firstObjection_of_objection (by rw [objection?, h])]
    rfl
  case reference =>
    intro place schema text name h
    rw [resolve_of_reference h, failure?_resolveReference, firstObjection_of_leaf h rfl, objection?,
      h]
  case oneOf =>
    intro place schema options h _ ih
    rw [resolve_of_oneOf h, Noted.failure?_bind_pure, ih, firstObjection_of_classify h trivial,
      Shape.steps]
  case map =>
    intro place schema values h _ ih
    rw [resolve_of_map h, Noted.failure?_bind_pure, ih, firstObjection_of_classify h trivial,
      Shape.steps, firstObjection_nodesFrom_cons]
    exact Option.or_none.symm
  case array =>
    intro place schema items h _ ih
    rw [resolve_of_array h, Noted.failure?_bind_pure, ih, firstObjection_of_classify h trivial,
      Shape.steps, firstObjection_nodesFrom_cons]
    exact Option.or_none.symm
  case boolean =>
    intro place schema h
    rw [resolve_of_boolean h, firstObjection_of_leaf h rfl, objection?, h]
    rfl
  case number =>
    intro place schema integer h
    rw [resolve_of_number h, firstObjection_of_leaf h rfl, objection?, h]
    rfl
  case date =>
    intro place schema h
    rw [resolve_of_date h, firstObjection_of_leaf h rfl, objection?, h]
    rfl
  case dateTime =>
    intro place schema h
    rw [resolve_of_dateTime h, firstObjection_of_leaf h rfl, objection?, h]
    rfl
  case text =>
    intro place schema limits h
    rw [resolve_of_text h, firstObjection_of_leaf h rfl, objection?, h]
    rfl
  case enumeration =>
    intro place schema values h
    rw [resolve_of_enumeration h, firstObjection_of_leaf h rfl, objection?, h]
    rfl
  case object =>
    intro place schema properties required h
    rw [resolve_of_object h, firstObjection_of_leaf h rfl, objection?, h]
    rfl
  case nil =>
    intro place index
    rw [resolveOptions]
    rfl
  case cons =>
    intro place index option rest ih ihs
    rw [resolveOptions, optionSteps, firstObjection_nodesFrom_cons, ← ih, ← ihs]
    exact Noted.failure?_bind _ _ fun codec _ => Noted.failure?_bind_pure _ _

/-! ## Slots -/

theorem failure?_resolveSlot (required : Bool) :
    (resolveSlot registry place schema required).failure? =
      firstObjection registry place (Schema.nodes schema) := by
  rw [resolveSlot, Noted.failure?_bind_pure, (failure?_resolve registry).1]

/-- Nothing speaks against any of the nodes exactly if all that is reached is supported. -/
theorem firstObjection_eq_none :
    firstObjection registry place (Schema.nodes schema) = none ↔
      ∀ path node, Schema.Reaches schema path node →
        Supported registry (place ++ path) node := by
  simp only [firstObjection, List.findSome?_eq_none_iff, objection?_eq_none, Prod.forall,
    Schema.mem_nodes]

/-- The first objection is that to a node which comes after supported ones only. -/
theorem firstObjection_eq_some {e : Failure} :
    firstObjection registry place (Schema.nodes schema) = some e ↔
      ∃ earlier path node later, Schema.nodes schema = earlier ++ (path, node) :: later ∧
        (∀ n ∈ earlier, Supported registry (place ++ n.1) n.2) ∧
        objection? registry (place ++ path) node = some e := by
  rw [firstObjection, List.findSome?_eq_some_iff]
  constructor
  · rintro ⟨earlier, ⟨path, node⟩, later, split, objection, before⟩
    exact ⟨earlier, path, node, later, split,
      fun n hn => objection?_eq_none.mp (before n hn), objection⟩
  · rintro ⟨earlier, path, node, later, split, supported, objection⟩
    exact ⟨earlier, (path, node), later, split, objection,
      fun n hn => objection?_eq_none.mpr (supported n hn)⟩

/-- A node that is not supported fails on its own for what speaks against it. -/
theorem objection?_eq_some {e : Failure} (required : Bool) :
    objection? registry place schema = some e ↔
      ¬ Supported registry place schema ∧
        (resolveSlot registry place schema required).result = .error e := by
  rw [← Noted.failure?_eq_some, failure?_resolveSlot, ← objection?_eq_none]
  cases h : objection? registry place schema with
  | none => simp
  | some e' => rw [firstObjection_of_objection h]; simp

/-- **Which schemas resolve.**  A schema resolves exactly if every schema reached from it is
supported.  Otherwise the failure is the one that the first schema which is not supported, in
document order, gives at its own place.  Whether a value has to be there changes neither. -/
theorem resolveSlot_outcome (registry : Registry) (place : Place) (schema : Value)
    (required : Bool) :
    ((∃ slot, (resolveSlot registry place schema required).result = .ok slot) ↔
      ∀ path node, Schema.Reaches schema path node → Supported registry (place ++ path) node) ∧
    (∀ e, (resolveSlot registry place schema required).result = .error e ↔
      ∃ earlier path node later, Schema.nodes schema = earlier ++ (path, node) :: later ∧
        (∀ n ∈ earlier, Supported registry (place ++ n.1) n.2) ∧
        ¬ Supported registry (place ++ path) node ∧
        (resolveSlot registry (place ++ path) node required).result = .error e) ∧
    ∀ required', (resolveSlot registry place schema required').result.map Slot.codec =
      (resolveSlot registry place schema required).result.map Slot.codec := by
  refine ⟨?_, fun e => ?_, fun required' => ?_⟩
  · rw [← Noted.failure?_eq_none, failure?_resolveSlot, firstObjection_eq_none]
  · rw [← Noted.failure?_eq_some, failure?_resolveSlot, firstObjection_eq_some]
    simp only [objection?_eq_some required]
  · simp only [resolveSlot, Noted.result_bind]
    cases (resolve registry place schema).result <;> rfl

end TypedApi
