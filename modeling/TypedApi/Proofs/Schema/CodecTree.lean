import TypedApi.Proofs.Schema.Nodes
import TypedApi.Proofs.Schema.Resolution

/-! # The codec of a schema, node by node

A codec is a tree like its schema: its alternatives, its item and the values of its maps stand at
the places where the schema has them.  `Codec.nodes` lists its parts in the order of
`Schema.nodes`, and the two lists belong together: each part is the codec of the schema that stands
at the same place (`nodes_of_resolve`).  What a codec does because of some part, it therefore does
because of some schema that is reached, and the steps of a path tell which kinds of schemas it
leads through (`Schema.ReachesPast`).
-/
namespace TypedApi

namespace Codec

mutual

/-- A codec with all parts below it, in order and each with the steps that lead to it. -/
def nodes : Codec → List (Place × Codec)
  | .union options => ([], .union options) :: optionNodes 0 options
  | .array item =>
    ([], .array item) :: item.nodes.map fun part => ("items" :: part.1, part.2)
  | .map value place =>
    ([], .map value place) :: value.nodes.map fun part => ("additionalProperties" :: part.1, part.2)
  | codec => [([], codec)]

/-- Some alternatives, of which the first has the given index, with all parts below them. -/
def optionNodes (index : Nat) : List Codec → List (Place × Codec)
  | [] => []
  | option :: rest =>
    (option.nodes.map fun part => (("oneOf[" ++ toString index ++ "]") :: part.1, part.2))
      ++ optionNodes (index + 1) rest

end

/-- A codec is its own first part. -/
theorem self_mem_nodes (codec : Codec) : ([], codec) ∈ codec.nodes := by
  cases codec <;> exact List.mem_cons_self

end Codec

variable {registry : Registry} {place : Place} {schema : Value} {codec : Codec}

/-- The part is the codec of the schema that the same steps lead to. -/
def Codes (registry : Registry) (place : Place) (node : Place × Value) (part : Place × Codec) :
    Prop :=
  part.1 = node.1 ∧ (resolve registry (place ++ node.1) node.2).result = .ok part.2

theorem codes_self (h : (resolve registry place schema).result = .ok codec) :
    Codes registry place ([], schema) ([], codec) := by
  rw [← List.append_nil place] at h
  exact ⟨rfl, h⟩

/-- What belongs together below a step belongs together below the schema. -/
theorem codes_step (step : String) {nodes : List (Place × Value)} {parts : List (Place × Codec)}
    (h : List.Forall₂ (Codes registry (place ++ [step])) nodes parts) :
    List.Forall₂ (Codes registry place) (nodes.map fun node => (step :: node.1, node.2))
      (parts.map fun part => (step :: part.1, part.2)) := by
  refine List.forall₂_map_left_iff.mpr (List.forall₂_map_right_iff.mpr (h.imp ?_))
  rintro ⟨path, node⟩ ⟨path', part⟩ ⟨rfl, resolved⟩
  rw [List.append_assoc] at resolved
  exact ⟨rfl, resolved⟩

/-- A shape without parts gives a codec without parts. -/
theorem codes_of_leaf {shape : Shape} (found : classify place schema = .ok shape)
    (leaf : shape.steps = []) (alone : codec.nodes = [([], codec)])
    (h : (resolve registry place schema).result = .ok codec) :
    List.Forall₂ (Codes registry place) (Schema.nodes schema) codec.nodes := by
  rw [Schema.nodes_of_classify found, leaf, alone]
  exact .cons (codes_self h) .nil

theorem codes_of_plain {shape : Shape} {plain : Codec} (found : classify place schema = .ok shape)
    (leaf : shape.steps = []) (alone : plain.nodes = [([], plain)])
    (resolved : resolve registry place schema = pure plain) (codec : Codec)
    (h : (resolve registry place schema).result = .ok codec) :
    List.Forall₂ (Codes registry place) (Schema.nodes schema) codec.nodes := by
  refine codes_of_leaf found leaf ?_ h
  rw [resolved] at h
  cases h
  exact alone

/-- **The codec mirrors the schema.**  The parts of a codec are those of the schemas that are
reached, at the same places and in the same order. -/
theorem nodes_of_resolve (registry : Registry) :
    (∀ place schema codec, (resolve registry place schema).result = .ok codec →
      List.Forall₂ (Codes registry place) (Schema.nodes schema) codec.nodes) ∧
    ∀ place index options codecs,
      (resolveOptions registry place index options).result = .ok codecs →
      List.Forall₂ (Codes registry place) (Schema.nodesFrom (optionSteps index options))
        (Codec.optionNodes index codecs) := by
  refine resolve.mutual_induct
    (fun place schema => ∀ codec, (resolve registry place schema).result = .ok codec →
      List.Forall₂ (Codes registry place) (Schema.nodes schema) codec.nodes)
    (fun place index options => ∀ codecs,
      (resolveOptions registry place index options).result = .ok codecs →
        List.Forall₂ (Codes registry place) (Schema.nodesFrom (optionSteps index options))
          (Codec.optionNodes index codecs))
    ?error ?reference ?oneOf ?boolean ?number ?date ?dateTime ?text ?map ?array ?enumeration
    ?object ?nil ?cons
  case error =>
    intro place schema e found codec h
    rw [resolve_of_error found] at h
    cases h
  case reference =>
    intro place schema text name found codec h
    refine codes_of_leaf found rfl ?_ h
    rw [resolve_of_reference found] at h
    obtain ⟨kind, -, rfl, -⟩ := resolveReference_eq_ok h
    cases kind <;> rfl
  case oneOf =>
    intro place schema options found _ ih codec h
    have whole := codes_self h
    rw [resolve_of_oneOf found] at h
    obtain ⟨codecs, alternatives, h⟩ := Noted.bind_eq_ok.mp h
    cases h
    rw [Schema.nodes_of_classify found]
    exact .cons whole (ih codecs alternatives)
  case map =>
    intro place schema values found _ ih codec h
    have whole := codes_self h
    rw [resolve_of_map found] at h
    obtain ⟨value, inner, h⟩ := Noted.bind_eq_ok.mp h
    cases h
    rw [Schema.nodes_of_classify found, Shape.steps, Schema.nodesFrom_single]
    exact .cons whole (codes_step _ (ih value inner))
  case array =>
    intro place schema items found _ ih codec h
    have whole := codes_self h
    rw [resolve_of_array found] at h
    obtain ⟨item, inner, h⟩ := Noted.bind_eq_ok.mp h
    cases h
    rw [Schema.nodes_of_classify found, Shape.steps, Schema.nodesFrom_single]
    exact .cons whole (codes_step _ (ih item inner))
  case boolean =>
    intro place schema found
    exact codes_of_plain found rfl rfl (resolve_of_boolean found)
  case number =>
    intro place schema integer found
    exact codes_of_plain found rfl rfl (resolve_of_number found)
  case date =>
    intro place schema found
    exact codes_of_plain found rfl rfl (resolve_of_date found)
  case dateTime =>
    intro place schema found
    exact codes_of_plain found rfl rfl (resolve_of_dateTime found)
  case text =>
    intro place schema limits found
    exact codes_of_plain found rfl rfl (resolve_of_text found)
  case enumeration =>
    intro place schema values found codec h
    rw [resolve_of_enumeration found] at h
    cases h
  case object =>
    intro place schema properties required found codec h
    rw [resolve_of_object found] at h
    cases h
  case nil =>
    intro place index codecs h
    rw [resolveOptions] at h
    cases h
    exact .nil
  case cons =>
    intro place index option rest ih ihs codecs h
    rw [resolveOptions] at h
    obtain ⟨first, own, h⟩ := Noted.bind_eq_ok.mp h
    obtain ⟨later, others, h⟩ := Noted.bind_eq_ok.mp h
    cases h
    rw [optionSteps, Schema.nodesFrom_cons, Codec.optionNodes]
    exact List.rel_append (codes_step _ (ih first own)) (ihs later others)

/-- A schema that is reached has a codec, which stands at the same place. -/
theorem exists_part_of_reaches (h : (resolve registry place schema).result = .ok codec)
    {path : Place} {node : Value} (reached : Schema.Reaches schema path node) :
    ∃ part, (path, part) ∈ codec.nodes ∧
      (resolve registry (place ++ path) node).result = .ok part := by
  obtain ⟨⟨_, part⟩, listed, rfl, resolved⟩ := exists_of_mem_left
    ((nodes_of_resolve registry).1 place schema codec h) (Schema.mem_nodes.mpr reached)
  exact ⟨part, listed, resolved⟩

theorem exists_reaches_of_part (h : (resolve registry place schema).result = .ok codec)
    {path : Place} {part : Codec} (listed : (path, part) ∈ codec.nodes) :
    ∃ node, Schema.Reaches schema path node ∧
      (resolve registry (place ++ path) node).result = .ok part := by
  obtain ⟨⟨_, node⟩, member, rfl, resolved⟩ := exists_of_mem_right
    ((nodes_of_resolve registry).1 place schema codec h) listed
  exact ⟨node, Schema.mem_nodes.mp member, resolved⟩

/-! ## The head of a codec -/

/-- The codec is of the kind that the shape at `place` asks for, whatever its parts are. -/
inductive Heads (registry : Registry) (place : Place) : Shape → Codec → Prop
  | enumeration {text : String} {name : Identifier}
      (h : registry.kind? name.upperCamel = some .enumeration) :
      Heads registry place (.reference text name) (.enumeration name)
  | object {text : String} {name : Identifier}
      (h : registry.kind? name.upperCamel = some .object) :
      Heads registry place (.reference text name) (.object name place)
  | oneOf {options : List Value} {codecs : List Codec} :
      Heads registry place (.oneOf options) (.union codecs)
  | array {items : Value} {item : Codec} : Heads registry place (.array items) (.array item)
  | map {values : Value} {value : Codec} : Heads registry place (.map values) (.map value place)
  | boolean : Heads registry place .boolean .boolean
  | number {integer : Bool} : Heads registry place (.number integer) (.number integer)
  | text {limits : TextLimits} : Heads registry place (.text limits) (.text limits)
  | date : Heads registry place .date .date
  | dateTime : Heads registry place .dateTime .dateTime

/-- A schema that resolves has a shape, and its codec is of that kind. -/
theorem heads_of_resolve (h : (resolve registry place schema).result = .ok codec) :
    ∃ shape, classify place schema = .ok shape ∧ Heads registry place shape codec := by
  cases found : classify place schema with
  | error e =>
    rw [resolve_of_error found] at h
    cases h
  | ok shape =>
    refine ⟨shape, rfl, ?_⟩
    cases shape with
    | reference text name =>
      rw [resolve_of_reference found] at h
      obtain ⟨kind, known, rfl, -⟩ := resolveReference_eq_ok h
      cases kind with
      | enumeration => exact .enumeration known
      | object => exact .object known
    | oneOf options =>
      rw [resolve_of_oneOf found] at h
      obtain ⟨codecs, -, h⟩ := Noted.bind_eq_ok.mp h
      cases h
      exact .oneOf
    | array items =>
      rw [resolve_of_array found] at h
      obtain ⟨item, -, h⟩ := Noted.bind_eq_ok.mp h
      cases h
      exact .array
    | map values =>
      rw [resolve_of_map found] at h
      obtain ⟨value, -, h⟩ := Noted.bind_eq_ok.mp h
      cases h
      exact .map
    | boolean =>
      rw [resolve_of_boolean found] at h
      cases h
      exact .boolean
    | number integer =>
      rw [resolve_of_number found] at h
      cases h
      exact .number
    | text limits =>
      rw [resolve_of_text found] at h
      cases h
      exact .text
    | date =>
      rw [resolve_of_date found] at h
      cases h
      exact .date
    | dateTime =>
      rw [resolve_of_dateTime found] at h
      cases h
      exact .dateTime
    | enumeration values =>
      rw [resolve_of_enumeration found] at h
      cases h
    | object properties required =>
      rw [resolve_of_object found] at h
      cases h

/-! ## Paths that keep off some steps -/

namespace Schema

/-- The steps of `path` lead from one schema to the other, and none of them is to be avoided. -/
def ReachesWithout (avoided : List String) (schema : Value) (path : Place) (node : Value) : Prop :=
  Reaches schema path node ∧ ∀ step ∈ path, step ∉ avoided

/-- A path that takes a step to be avoided takes a first such step, and until then keeps off. -/
theorem exists_turn {avoided : List String} {schema node : Value} {path : Place}
    (h : Reaches schema path node) (taken : ¬ ∀ step ∈ path, step ∉ avoided) :
    ∃ before turn step child, ReachesWithout avoided schema before turn ∧ step ∈ avoided ∧
      (step, child) ∈ below turn := by
  induction h with
  | here => exact absurd (List.forall_mem_nil _) taken
  | @there schema child node step path hc _ ih =>
    by_cases bad : step ∈ avoided
    · exact ⟨[], schema, step, child, ⟨.here, List.forall_mem_nil _⟩, bad, hc⟩
    · have later : ¬ ∀ step ∈ path, step ∉ avoided := fun rest =>
        taken (List.forall_mem_cons.mpr ⟨bad, rest⟩)
      obtain ⟨before, turn, next, below_, ⟨reached, kept⟩, first, hb⟩ := ih later
      exact ⟨step :: before, turn, next, below_,
        ⟨.there hc reached, List.forall_mem_cons.mpr ⟨bad, kept⟩⟩, first, hb⟩

theorem step_of_mem_optionSteps {options : List Value} {index : Nat} {step : String}
    {child : Value} (h : (step, child) ∈ optionSteps index options) :
    ∃ i : Nat, step = "oneOf[" ++ toString i ++ "]" := by
  induction options generalizing index with
  | nil => cases h
  | cons option rest ih =>
    rcases List.mem_cons.mp h with same | h
    · cases same
      exact ⟨index, rfl⟩
    · exact ih h

theorem step_ne_of_mem_optionSteps {options : List Value} {index : Nat} {step : String}
    {child : Value} (h : (step, child) ∈ optionSteps index options) :
    step ≠ "items" ∧ step ≠ "additionalProperties" := by
  obtain ⟨i, rfl⟩ := step_of_mem_optionSteps h
  -- the first characters differ
  have first : ("oneOf[" ++ toString i ++ "]").toList.head? = some 'o' := by
    simp
  constructor <;> intro same <;> rw [same] at first <;> cases first

end Schema

theorem Shape.eq_array_of_mem_steps {shape : Shape} {child : Value}
    (h : ("items", child) ∈ shape.steps) : shape = .array child := by
  cases shape with
  | oneOf options => exact absurd rfl (Schema.step_ne_of_mem_optionSteps h).1
  | array items =>
    obtain ⟨-, rfl⟩ := Prod.mk.inj (List.mem_singleton.mp h)
    rfl
  | map values => exact absurd (Prod.mk.inj (List.mem_singleton.mp h)).1 (by decide)
  | _ => cases h

theorem Shape.eq_map_of_mem_steps {shape : Shape} {child : Value}
    (h : ("additionalProperties", child) ∈ shape.steps) : shape = .map child := by
  cases shape with
  | oneOf options => exact absurd rfl (Schema.step_ne_of_mem_optionSteps h).2
  | array items => exact absurd (Prod.mk.inj (List.mem_singleton.mp h)).1 (by decide)
  | map values =>
    obtain ⟨-, rfl⟩ := Prod.mk.inj (List.mem_singleton.mp h)
    rfl
  | _ => cases h

end TypedApi
