import TypedApi.Proofs.Schema.Nodes
import TypedApi.Proofs.Schema.Refusals
import TypedApi.Proofs.Schema.Resolution

/-! # The components that a schema mentions

Resolving a schema asks the registry for the kinds of the components that its references name and for
nothing else (`resolveSlot_congr`).  A reference is one at any depth: in an alternative, an item or a
value of a map, and in a property, since the file of a component is made from the properties of its
schema.
-/
namespace TypedApi

/-- A reference in the schema, at any depth, names the component. -/
inductive Schema.Mentions : Value → Identifier → Prop
  | reference {members : Members} {text : String} {name : Identifier} :
      (members.getD "$ref").text? = some text → parseReference text = .ok name →
        Mentions (.map members) name
  | inner {schema part : Value} {step : String} {name : Identifier} :
      (step, part) ∈ below schema → Mentions part name → Mentions schema name
  | property {members properties : Members} {key : Scalar} {part : Value} {name : Identifier} :
      members.getD "properties" = .map properties → (key, part) ∈ properties →
        Mentions part name → Mentions (.map members) name

/-- Two registries have the same kind for each of the components named. -/
def Registry.AgreesOn (registry other : Registry) (named : Identifier → Prop) : Prop :=
  ∀ name, named name → registry.kind? name.upperCamel = other.kind? name.upperCamel

section Agreement
variable {registry other : Registry} {named fewer : Identifier → Prop}

theorem Registry.AgreesOn.mono (agree : registry.AgreesOn other named)
    (included : ∀ name, fewer name → named name) : registry.AgreesOn other fewer :=
  fun name h => agree name (included name h)

end Agreement

/-- A reference with nothing but annotations beside it mentions the component that it names only. -/
theorem Schema.eq_of_mentions_reference {target : String} {beside : Members}
    {found name : Identifier} (spelled : parseReference target = .ok found)
    (flat : below (.map ((.text "$ref", .text target) :: beside)) = [])
    (bare : Members.getD "properties" ((.text "$ref", .text target) :: beside) = .null)
    (h : Mentions (.map ((.text "$ref", .text target) :: beside)) name) : name = found := by
  cases h with
  | reference same named =>
    cases same
    cases spelled.symm.trans named
    rfl
  | inner hb _ =>
    rw [flat] at hb
    cases hb
  | property found _ _ => cases bare.symm.trans found

/-! ## Where a shape has references -/

namespace Schema
variable {place : Place} {members : Members} {text : String} {name : Identifier}

theorem target_of_reference (h : reference place members = .ok (.reference text name)) :
    (members.getD "$ref").text? = some text := by
  obtain ⟨⟨⟩, -, h⟩ := Except.bind_eq_ok.mp h
  split at h
  · next target found =>
    obtain ⟨spelled, -, h⟩ := Except.bind_eq_ok.mp h
    cases h
    exact found
  · cases h

theorem target_of_ofMembers (h : ofMembers place members = .ok (.reference text name)) :
    (members.getD "$ref").text? = some text := by
  unfold ofMembers at h
  split at h
  · exact target_of_reference h
  · split at h
    · cases h
    · split at h
      · exact absurd h oneOf_ne_reference
      · exact absurd h typed_ne_reference

theorem mentions_of_reference {schema : Value}
    (h : classify place schema = .ok (.reference text name)) : Mentions schema name := by
  have spelled := parseReference_of_classify h
  unfold classify at h
  split at h
  · exact .reference (target_of_ofMembers h) spelled
  · cases h

/-- What the parts of a shape mention is mentioned in the schema. -/
theorem mentions_of_steps {schema : Value} {shape : Shape} {part : String × Value}
    (h : classify place schema = .ok shape) (hp : part ∈ shape.steps)
    (mentioned : Mentions part.2 name) : Mentions schema name :=
  .inner (below_of_classify h ▸ hp) mentioned

theorem exists_step_of_mem {options : List Value} {option : Value} (h : option ∈ options)
    (index : Nat) : ∃ step, (step, option) ∈ optionSteps index options := by
  induction options generalizing index with
  | nil => cases h
  | cons first rest ih =>
    rcases List.mem_cons.mp h with rfl | h
    · exact ⟨_, List.mem_cons_self⟩
    · obtain ⟨step, hs⟩ := ih h (index + 1)
      exact ⟨step, List.mem_cons_of_mem _ hs⟩

/-- What the properties of an object mention is mentioned in its schema. -/
theorem mentions_of_property {schema : Value} {properties : List (String × Value)}
    {required : List String} {property : String × Value}
    (h : classify place schema = .ok (.object properties required)) (hp : property ∈ properties)
    (mentioned : Mentions property.2 name) : Mentions schema name := by
  obtain ⟨members, rfl, listed⟩ := properties_of_classify h
  obtain ⟨found, same, hm⟩ := mem_of_properties? listed hp
  exact .property same hm mentioned

end Schema

/-! ## Resolution -/

section Resolution
open Schema
variable {registry other : Registry} {place : Place}

theorem resolveReference_congr {name : Identifier}
    (same : registry.kind? name.upperCamel = other.kind? name.upperCamel) :
    resolveReference registry place name = resolveReference other place name := by
  rw [resolveReference, resolveReference, Registry.kindOf, Registry.kindOf, same]

/-- **A schema resolves alike under registries that agree on the components it mentions.** -/
theorem resolve_congr (registry other : Registry) :
    (∀ place schema, registry.AgreesOn other (Mentions schema) →
      resolve registry place schema = resolve other place schema) ∧
    ∀ place index options, (∀ option ∈ options, registry.AgreesOn other (Mentions option)) →
      resolveOptions registry place index options = resolveOptions other place index options := by
  refine resolve.mutual_induct
    (fun place schema => registry.AgreesOn other (Mentions schema) →
      resolve registry place schema = resolve other place schema)
    (fun place index options => (∀ option ∈ options, registry.AgreesOn other (Mentions option)) →
      resolveOptions registry place index options = resolveOptions other place index options)
    ?error ?reference ?oneOf ?boolean ?number ?date ?dateTime ?text ?map ?array ?enumeration
    ?object ?nil ?cons
  case error =>
    intro place schema e h _
    rw [resolve_of_error h, resolve_of_error h]
  case reference =>
    intro place schema text name h agree
    rw [resolve_of_reference h, resolve_of_reference h]
    exact resolveReference_congr (agree name (mentions_of_reference h))
  case oneOf =>
    intro place schema options h _ ih agree
    rw [resolve_of_oneOf h, resolve_of_oneOf h, ih fun option ho => ?_]
    obtain ⟨step, hs⟩ := exists_step_of_mem ho 0
    exact agree.mono fun name => mentions_of_steps h hs
  case map =>
    intro place schema values h _ ih agree
    rw [resolve_of_map h, resolve_of_map h, ih]
    exact agree.mono fun name => mentions_of_steps h (List.mem_singleton_self _)
  case array =>
    intro place schema items h _ ih agree
    rw [resolve_of_array h, resolve_of_array h, ih]
    exact agree.mono fun name => mentions_of_steps h (List.mem_singleton_self _)
  case boolean =>
    intro place schema h _
    rw [resolve_of_boolean h, resolve_of_boolean h]
  case number =>
    intro place schema integer h _
    rw [resolve_of_number h, resolve_of_number h]
  case date =>
    intro place schema h _
    rw [resolve_of_date h, resolve_of_date h]
  case dateTime =>
    intro place schema h _
    rw [resolve_of_dateTime h, resolve_of_dateTime h]
  case text =>
    intro place schema limits h _
    rw [resolve_of_text h, resolve_of_text h]
  case enumeration =>
    intro place schema values h _
    rw [resolve_of_enumeration h, resolve_of_enumeration h]
  case object =>
    intro place schema properties required h _
    rw [resolve_of_object h, resolve_of_object h]
  case nil =>
    intro place index _
    rw [resolveOptions, resolveOptions]
  case cons =>
    intro place index option rest ih ihs agree
    obtain ⟨own, later⟩ := List.forall_mem_cons.mp agree
    rw [resolveOptions, resolveOptions, ih own, ihs later]

theorem resolveSlot_congr {schema : Value} (agree : registry.AgreesOn other (Mentions schema))
    (place : Place) (required : Bool) :
    resolveSlot registry place schema required = resolveSlot other place schema required := by
  rw [resolveSlot, resolveSlot, (resolve_congr registry other).1 place schema agree]

end Resolution
end TypedApi
