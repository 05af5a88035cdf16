import TypedApi.Proofs.Noted
import TypedApi.Schema.Parts

/-! # The schemas inside a schema

Schemas stand below others as alternatives (`oneOf`), as items and as the values of maps.  `Reaches`
follows these members down, and `nodes` lists all schemas that are reached in document order, each
before those below it.  A schema that has a shape has no such member beyond the parts of the shape
(`below_of_classify`), so that what is read from the members is what a resolver goes through.
-/
namespace TypedApi

/-- The alternatives of a choice with the steps that lead to them, of which the first has the given
index. -/
def optionSteps (index : Nat) : List Value → List (String × Value)
  | [] => []
  | option :: rest => ("oneOf[" ++ toString index ++ "]", option) :: optionSteps (index + 1) rest

/-- The parts of a shape with the steps that lead to them. -/
def Shape.steps : Shape → List (String × Value)
  | .oneOf options => optionSteps 0 options
  | .array items => [("items", items)]
  | .map values => [("additionalProperties", values)]
  | _ => []

namespace Schema

/-- The alternatives that the members of a schema list. -/
def alternatives (members : Members) : List Value :=
  match members.get? "oneOf" with
  | some (.list options) => options
  | _ => []

/-- The schema that a member holds, with the name of the member as the step that leads to it. -/
def memberStep (members : Members) (key : String) : List (String × Value) :=
  (members.get? key).toList.map (Prod.mk key)

/-- The schemas right below a schema with the steps that lead to them. -/
def below : Value → List (String × Value)
  | .map members => optionSteps 0 (alternatives members) ++ memberStep members "items"
      ++ memberStep members "additionalProperties"
  | _ => []

/-- The steps of `path` lead from one schema to the other. -/
inductive Reaches : Value → Place → Value → Prop
  | here {schema : Value} : Reaches schema [] schema
  | there {schema child node : Value} {step : String} {path : Place} :
      (step, child) ∈ below schema → Reaches child path node → Reaches schema (step :: path) node

theorem sizeOf_of_mem_optionSteps {options : List Value} {index : Nat} {child : String × Value}
    (h : child ∈ optionSteps index options) : sizeOf child.2 < sizeOf options := by
  induction options generalizing index with
  | nil => cases h
  | cons option rest ih =>
    rw [List.cons.sizeOf_spec]
    rcases List.mem_cons.mp h with rfl | h
    · show sizeOf option < _
      omega
    · have := ih h
      omega

theorem sizeOf_of_mem_memberStep {members : Members} {key : String} {child : String × Value}
    (h : child ∈ memberStep members key) : sizeOf child.2 < sizeOf members := by
  obtain ⟨v, hv, rfl⟩ := List.mem_map.mp h
  exact Members.sizeOf_get? (Option.mem_toList.mp hv)

/-- What stands below a schema is a part of it. -/
theorem sizeOf_of_mem_below {schema : Value} {child : String × Value} (h : child ∈ below schema) :
    sizeOf child.2 < sizeOf schema := by
  cases schema with
  | map members =>
    rw [Value.map.sizeOf_spec]
    rcases List.mem_append.mp h with h | h
    · rcases List.mem_append.mp h with h | h
      · have inside := sizeOf_of_mem_optionSteps h
        unfold alternatives at h inside
        split at h
        · rename_i options found
          have := Members.sizeOf_get? found
          simp only [found, Value.list.sizeOf_spec] at this inside
          omega
        · cases h
      · have := sizeOf_of_mem_memberStep h
        omega
    · have := sizeOf_of_mem_memberStep h
      omega
  | _ => cases h

/-- A schema with all schemas below it, in document order and each with the steps that lead to it;
a schema comes before those below it. -/
def nodes (schema : Value) : List (Place × Value) :=
  ([], schema) :: (below schema).attach.flatMap fun child =>
    (nodes child.1.2).map fun node => (child.1.1 :: node.1, node.2)
termination_by sizeOf schema
decreasing_by exact sizeOf_of_mem_below child.2

/-- All schemas from `children` down, each with the steps that lead to it. -/
def nodesFrom (children : List (String × Value)) : List (Place × Value) :=
  children.flatMap fun child => (nodes child.2).map fun node => (child.1 :: node.1, node.2)

theorem nodes_eq (schema : Value) : nodes schema = ([], schema) :: nodesFrom (below schema) := by
  rw [nodes, List.flatMap_subtype]
  · rw [List.unattach_attach]
    rfl
  · intro child h
    rfl

theorem nodesFrom_cons (step : String) (child : Value) (later : List (String × Value)) :
    nodesFrom ((step, child) :: later) =
      ((nodes child).map fun node => (step :: node.1, node.2)) ++ nodesFrom later :=
  List.flatMap_cons

theorem nodesFrom_single (step : String) (child : Value) :
    nodesFrom [(step, child)] = (nodes child).map fun node => (step :: node.1, node.2) := by
  rw [nodesFrom_cons]
  exact List.append_nil _

/-- The nodes of a schema are what is reached from it. -/
theorem mem_nodes {schema node : Value} {path : Place} :
    (path, node) ∈ nodes schema ↔ Reaches schema path node := by
  constructor
  · intro h
    fun_induction nodes schema generalizing path with
    | case1 schema ih =>
      rcases List.mem_cons.mp h with h | h
      · cases h
        exact .here
      · obtain ⟨⟨child, hc⟩, -, h⟩ := List.mem_flatMap.mp h
        obtain ⟨inner, hi, same⟩ := List.mem_map.mp h
        cases same
        exact .there hc (ih ⟨child, hc⟩ hi)
  · intro h
    induction h with
    | here =>
      rw [nodes_eq]
      exact List.mem_cons_self
    | @there schema child node step path hc _ ih =>
      rw [nodes_eq]
      refine List.mem_cons_of_mem _ (List.mem_flatMap.mpr ⟨(step, child), hc, ?_⟩)
      exact List.mem_map.mpr ⟨(path, node), ih, rfl⟩

/-! ## The parts of a shape -/

variable {place : Place} {label : String} {members : Members} {allowed : List String}
  {shape : Shape}

theorem mem_keys_of_get? {name : String} {v : Value} (h : members.get? name = some v) :
    Scalar.text name ∈ members.map (·.1) := by
  induction members with
  | nil => cases h
  | cons m rest ih =>
    obtain ⟨key, w⟩ := m
    rw [Members.get?] at h
    rw [List.map_cons, List.mem_cons]
    split at h
    · rename_i same
      exact .inl same.symm
    · exact .inr (ih h)

/-- A schema that has passed the check has no member but annotations and those allowed. -/
theorem get?_of_expectOnly (h : expectOnly place label members allowed = .ok ()) {name : String}
    (note : name ∉ annotations) (other : name ∉ allowed) : members.get? name = none := by
  cases found : members.get? name with
  | none => rfl
  | some v =>
    have listed : Scalar.text name ∈ unexpectedKeys members allowed := by
      refine List.mem_filter.mpr ⟨mem_keys_of_get? found, ?_⟩
      simp [note, other]
    unfold expectOnly at h
    split at h
    · rename_i none_
      rw [none_] at listed
      cases listed
    · split at h <;> cases h

theorem memberStep_of_expectOnly (h : expectOnly place label members allowed = .ok ())
    {name : String} (note : name ∉ annotations) (other : name ∉ allowed) :
    memberStep members name = [] := by
  rw [memberStep, get?_of_expectOnly h note other]
  rfl

theorem alternatives_of_expectOnly (h : expectOnly place label members allowed = .ok ())
    (other : "oneOf" ∉ allowed) : alternatives members = [] := by
  rw [alternatives, get?_of_expectOnly h (by decide) other]

theorem steps_of_leaf (h : shape.parts = []) : shape.steps = [] := by
  cases shape with
  | oneOf options =>
    rw [Shape.parts] at h
    rw [Shape.steps, h, optionSteps]
  | array items => cases h
  | map values => cases h
  | _ => rfl

/-- A shape without parts that is found after a check which allows no member for other schemas. -/
theorem below_of_leaf {rest : Unit → Except Failure Shape}
    (h : (expectOnly place label members allowed >>= rest) = .ok shape) (leaf : shape.parts = [])
    (none_ : "oneOf" ∉ allowed ∧ "items" ∉ allowed ∧ "additionalProperties" ∉ allowed) :
    below (.map members) = shape.steps := by
  obtain ⟨noOptions, noItems, noValues⟩ := none_
  obtain ⟨⟨⟩, only, -⟩ := Except.bind_eq_ok.mp h
  rw [steps_of_leaf leaf, below, alternatives_of_expectOnly only noOptions,
    memberStep_of_expectOnly only (by decide) noItems,
    memberStep_of_expectOnly only (by decide) noValues]
  rfl

theorem below_of_plain {plain : Shape}
    (h : (expectOnly place label members allowed >>= fun _ => pure plain) = .ok shape)
    (leaf : plain.parts = [])
    (none_ : "oneOf" ∉ allowed ∧ "items" ∉ allowed ∧ "additionalProperties" ∉ allowed) :
    below (.map members) = shape.steps := by
  obtain ⟨⟨⟩, -, found⟩ := Except.bind_eq_ok.mp h
  cases found
  exact below_of_leaf h leaf none_

theorem text_below (h : text place members = .ok shape) :
    below (.map members) = shape.steps := by
  unfold text at h
  split at h
  · exact below_of_leaf h (boundedText_parts h) (by decide)
  · exact below_of_leaf h (boundedText_parts h) (by decide)
  · exact below_of_plain h rfl (by decide)
  · exact below_of_plain h rfl (by decide)
  · cases h

theorem oneOf_below (h : oneOf place members = .ok shape) :
    below (.map members) = shape.steps := by
  obtain ⟨⟨⟩, only, h⟩ := Except.bind_eq_ok.mp h
  split at h
  · rename_i first rest found
    cases h
    rw [below, alternatives, found, memberStep_of_expectOnly only (by decide) (by decide),
      memberStep_of_expectOnly only (by decide) (by decide), List.append_nil, List.append_nil,
      Shape.steps]
  · cases h

theorem array_below (h : array place members = .ok shape) :
    below (.map members) = shape.steps := by
  obtain ⟨⟨⟩, only, h⟩ := Except.bind_eq_ok.mp h
  split at h
  · rename_i items found
    cases h
    rw [below, alternatives_of_expectOnly only (by decide), memberStep, found,
      memberStep_of_expectOnly only (by decide) (by decide)]
    rfl
  · cases h

theorem map_below (h : map place members = .ok shape) : below (.map members) = shape.steps := by
  obtain ⟨⟨⟩, only, h⟩ := Except.bind_eq_ok.mp h
  split at h
  · rename_i values found
    cases h
    rw [below, alternatives_of_expectOnly only (by decide),
      memberStep_of_expectOnly only (by decide) (by decide), memberStep, found]
    rfl
  · cases h
  · cases h

theorem typed_below (h : typed place members = .ok shape) :
    below (.map members) = shape.steps := by
  unfold typed at h
  split at h
  · split at h
    · exact below_of_leaf h (enumeration_parts h) (by decide)
    · exact text_below h
  · exact below_of_plain h rfl (by decide)
  · exact below_of_plain h rfl (by decide)
  · exact below_of_plain h rfl (by decide)
  · exact array_below h
  · split at h
    · exact below_of_leaf h (object_parts h) (by decide)
    · exact map_below h
  · cases h
  · cases h

/-- **Members below are parts.**  Below a schema that has a shape stand the parts of the shape and
nothing else. -/
theorem below_of_classify {schema : Value} (h : classify place schema = .ok shape) :
    below schema = shape.steps := by
  unfold classify at h
  split at h
  · unfold ofMembers at h
    split at h
    · exact below_of_leaf h (reference_parts h) (by decide)
    · split at h
      · cases h
      · split at h
        · exact oneOf_below h
        · exact typed_below h
  · cases h

/-- The nodes of a schema that has a shape are the schema and those of the parts. -/
theorem nodes_of_classify {schema : Value} (h : classify place schema = .ok shape) :
    nodes schema = ([], schema) :: nodesFrom shape.steps := by
  rw [nodes_eq, below_of_classify h]

end Schema
end TypedApi
