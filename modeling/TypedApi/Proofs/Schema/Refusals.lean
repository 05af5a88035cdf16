import TypedApi.Proofs.Refusal
import TypedApi.Proofs.Schema.Acceptance
import TypedApi.Proofs.Schema.Registry

/-! # Schemas are refused properly

What stops the classification of a schema is a fault of its shape, the text of a reference or a key
that cannot be named (`stoppedBy_of_classify`), so that a schema whose keys are texts has a shape or
is refused (`classify_refuses`).  And so it is with its resolution: what stops a resolution is an
objection to a single node (`failure?_resolveSlot`), and the nodes of such a schema have texts as
keys again (`keyed_of_reaches`).  A registry accepts exactly components that have a kind
(`Registry.declares_of_mem`), so that nothing is left to go wrong when the same schemas are
classified once more for their models.
-/
namespace TypedApi

/-! ## Shapes -/

namespace Schema
variable {place : Place} {label : String} {members : Members} {allowed : List String}

/-- Texts can be read off keys which are texts, whatever is done to other keys. -/
theorem mapM_texts {f : Scalar → Option String} (h : ∀ name, f (.text name) = some name) :
    ∀ names : List String, (names.map Scalar.text).mapM f = some names
  | [] => rfl
  | name :: rest => by
    rw [List.map_cons, List.mapM_cons, h, mapM_texts h rest]
    rfl

theorem exists_texts {keys : List Scalar} (h : ∀ key ∈ keys, ∃ name, key = .text name) :
    ∃ names : List String, keys = names.map .text := by
  induction keys with
  | nil => exact ⟨[], rfl⟩
  | cons key rest ih =>
    obtain ⟨name, rfl⟩ := h _ List.mem_cons_self
    obtain ⟨names, rfl⟩ := ih fun other ho => h other (List.mem_cons_of_mem _ ho)
    exact ⟨name :: names, rfl⟩

theorem textKeys_of_keyed (keyed : (Value.map members).hasTextKeys = true) :
    ∀ key ∈ members.map (·.1), ∃ name, key = .text name := by
  intro key hk
  obtain ⟨member, hm, rfl⟩ := List.mem_map.mp hk
  exact (Value.textKey_of_mem keyed hm).1

/-- What can stop the classification of a schema with the given members. -/
inductive StoppedBy (place : Place) (members : Members) : Failure → Prop
  | fault (fault : ShapeFault) : StoppedBy place members (.shape place fault)
  | noText : StoppedBy place members (.reference (.notText place))
  /-- Keys that are not expected cannot be named, since not all of them are texts. -/
  | key : ¬ (Value.map members).hasTextKeys = true →
      StoppedBy place members (.defect .unsortableNames)
  /-- The text of a reference is not read; the schema has no other member. -/
  | target {label text : String} {e : Failure} :
      expectOnly place label members ["$ref"] = .ok () →
      (members.getD "$ref").text? = some text → parseReference text = .error e →
      StoppedBy place members e

/-- Every failure of the computation is one of a classification. -/
def Stops {α : Type} (place : Place) (members : Members) (x : Except Failure α) : Prop :=
  ∀ e, x = .error e → StoppedBy place members e

section Stops
variable {α β : Type}

theorem stops_ok (a : α) : Stops place members (.ok a) := by
  intro e h
  cases h

theorem stops_fault (fault : ShapeFault) :
    Stops place members (.error (.shape place fault) : Except Failure α) := by
  intro e h
  cases h
  exact .fault fault

theorem Stops.bind {x : Except Failure α} {f : α → Except Failure β} (hx : Stops place members x)
    (hf : ∀ a, x = .ok a → Stops place members (f a)) : Stops place members (x >>= f) := by
  cases x with
  | error failure =>
    intro e h
    cases h
    exact hx failure rfl
  | ok a => exact hf a rfl

/-- Members that are not expected are named if their keys are texts. -/
theorem expectOnly_stops : Stops place members (expectOnly place label members allowed) := by
  unfold expectOnly
  split
  · exact stops_ok ()
  · split
    · exact stops_fault _
    · rename_i unnamed
      intro e h
      cases h
      refine .key fun keyed => ?_
      have listed : ∀ key ∈ unexpectedKeys members allowed, ∃ name, key = .text name :=
        fun key hk => textKeys_of_keyed keyed key (List.mem_of_mem_filter hk)
      obtain ⟨names, named⟩ := exists_texts listed
      rw [named, mapM_texts fun _ => rfl] at unnamed
      cases unnamed

/-- A shape that is decided after the check of the members. -/
theorem checked_stops {rest : Unit → Except Failure Shape} (h : Stops place members (rest ())) :
    Stops place members (expectOnly place label members allowed >>= rest) :=
  expectOnly_stops.bind fun _ _ => h

theorem reference_stops : Stops place members (reference place members) := by
  refine expectOnly_stops.bind fun _ only => ?_
  split
  · rename_i text found
    intro e h
    cases read : parseReference text with
    | error e' =>
      rw [read] at h
      cases h
      exact .target only found read
    | ok name =>
      rw [read] at h
      cases h
  · intro e h
    cases h
    exact .noText

theorem oneOf_stops : Stops place members (oneOf place members) := by
  refine checked_stops ?_
  split
  · exact stops_ok _
  · exact stops_fault _

theorem enumeration_stops : Stops place members (enumeration place members) := by
  refine checked_stops ?_
  repeat' split
  all_goals first
    | exact stops_ok _
    | exact stops_fault _

theorem length_stops (name : String) : Stops place members (length place members name) := by
  unfold length
  split
  · exact stops_ok _
  · split
    · exact stops_fault _
    · exact stops_ok _
  · exact stops_fault _

theorem boundedText_stops (email : Bool) :
    Stops place members (boundedText place members email) := by
  refine checked_stops ?_
  refine (length_stops _).bind fun minLength _ => (length_stops _).bind fun maxLength _ => ?_
  simp only
  repeat' split
  all_goals first
    | exact stops_ok _
    | exact stops_fault _

theorem text_stops : Stops place members (text place members) := by
  unfold text
  split
  · exact boundedText_stops _
  · exact boundedText_stops _
  · exact checked_stops (stops_ok _)
  · exact checked_stops (stops_ok _)
  · exact stops_fault _

theorem array_stops : Stops place members (array place members) := by
  refine checked_stops ?_
  split
  · exact stops_ok _
  · exact stops_fault _

theorem map_stops : Stops place members (map place members) := by
  refine checked_stops ?_
  split
  · exact stops_ok _
  · exact stops_fault _
  · exact stops_fault _

theorem object_stops : Stops place members (object place members) := by
  refine checked_stops ?_
  repeat' split
  all_goals first
    | exact stops_ok _
    | exact stops_fault _

theorem typed_stops : Stops place members (typed place members) := by
  unfold typed
  split
  · split
    · exact enumeration_stops
    · exact text_stops
  · exact checked_stops (stops_ok _)
  · exact checked_stops (stops_ok _)
  · exact checked_stops (stops_ok _)
  · exact array_stops
  · split
    · exact object_stops
    · exact map_stops
  · exact stops_fault _
  · exact stops_fault _

theorem ofMembers_stops : Stops place members (ofMembers place members) := by
  unfold ofMembers
  split
  · exact reference_stops
  · split
    · exact stops_fault _
    · split
      · exact oneOf_stops
      · exact typed_stops

end Stops
end Schema

/-- What stops a classification. -/
theorem stoppedBy_of_classify {place : Place} {schema : Value} {e : Failure}
    (h : classify place schema = .error e) :
    (∃ members, schema = .map members ∧ Schema.StoppedBy place members e) ∨
      e = .shape place (.notAnObject schema) := by
  unfold classify at h
  split at h
  · exact .inl ⟨_, rfl, Schema.ofMembers_stops e h⟩
  · cases h
    exact .inr rfl

theorem parseReference_refuses (reference : String) : Refuses (parseReference reference) := by
  unfold parseReference
  simp only
  split
  · exact Identifier.ofHumped_refuses _
  · exact refuses_error rfl

/-- **A schema has a shape or is refused.** -/
theorem classify_refuses {place : Place} {schema : Value} (keyed : schema.hasTextKeys = true) :
    Refuses (classify place schema) := by
  intro e h
  obtain ⟨members, rfl, stopped⟩ | rfl := stoppedBy_of_classify h
  · cases stopped with
    | fault _ => rfl
    | noText => rfl
    | key unkeyed => exact absurd keyed unkeyed
    | target _ _ read => exact parseReference_refuses _ _ read
  · rfl

/-! ## The schemas inside a schema -/

namespace Schema

theorem keyed_of_mem_optionSteps {options : List Value}
    (keyed : ∀ option ∈ options, option.hasTextKeys = true) {index : Nat} {child : String × Value}
    (h : child ∈ optionSteps index options) : child.2.hasTextKeys = true := by
  induction options generalizing index with
  | nil => cases h
  | cons option rest ih =>
    rcases List.mem_cons.mp h with rfl | h
    · exact keyed option List.mem_cons_self
    · exact ih (fun other ho => keyed other (List.mem_cons_of_mem _ ho)) h

theorem keyed_of_mem_memberStep {members : Members} {key : String} {child : String × Value}
    (keyed : (Value.map members).hasTextKeys = true) (h : child ∈ memberStep members key) :
    child.2.hasTextKeys = true := by
  obtain ⟨v, hv, rfl⟩ := List.mem_map.mp h
  exact (Value.textKey_of_mem keyed (Members.mem_of_get? (Option.mem_toList.mp hv))).2

theorem keyed_of_mem_below {schema : Value} (keyed : schema.hasTextKeys = true)
    {child : String × Value} (h : child ∈ below schema) : child.2.hasTextKeys = true := by
  cases schema with
  | map members =>
    rcases List.mem_append.mp h with h | h
    · rcases List.mem_append.mp h with h | h
      · refine keyed_of_mem_optionSteps (fun option ho => ?_) h
        unfold alternatives at ho
        split at ho
        · rename_i options found
          have listed := Value.textKey_of_mem keyed (Members.mem_of_get? found)
          exact Value.hasTextKeys_of_mem listed.2 ho
        · cases ho
      · exact keyed_of_mem_memberStep keyed h
    · exact keyed_of_mem_memberStep keyed h
  | _ => cases h

/-- What is reached from a schema with texts as keys has texts as keys. -/
theorem keyed_of_reaches {schema node : Value} {path : Place} (h : Reaches schema path node)
    (keyed : schema.hasTextKeys = true) : node.hasTextKeys = true := by
  induction h with
  | here => exact keyed
  | there hc _ ih => exact ih (keyed_of_mem_below keyed hc)

/-- What a traversal returns was read from the items. -/
theorem exists_of_mapM {α β : Type} {f : α → Option β} {items : List α} {results : List β}
    (h : items.mapM f = some results) : ∀ b ∈ results, ∃ a ∈ items, f a = some b := by
  induction items generalizing results with
  | nil =>
    cases h
    exact fun b hb => by cases hb
  | cons item rest ih =>
    rw [List.mapM_cons] at h
    obtain ⟨first, hf, h⟩ := Option.bind_eq_some_iff.mp h
    obtain ⟨later, hl, h⟩ := Option.bind_eq_some_iff.mp h
    cases h
    intro b hb
    rcases List.mem_cons.mp hb with rfl | hb
    · exact ⟨item, List.mem_cons_self, hf⟩
    · obtain ⟨a, ha, read⟩ := ih hl b hb
      exact ⟨a, List.mem_cons_of_mem item ha, read⟩

/-- The listed properties are members of a mapping. -/
theorem mem_of_properties? {found : Value} {properties : List (String × Value)}
    (h : properties? found = some properties) {property : String × Value}
    (hp : property ∈ properties) :
    ∃ members, found = .map members ∧ (Scalar.text property.1, property.2) ∈ members := by
  unfold properties? at h
  split at h
  · rename_i members
    obtain ⟨⟨key, schema⟩, hm, read⟩ := exists_of_mapM h property hp
    split at read
    · rename_i name inner named mapped
      cases read
      cases named
      cases mapped
      exact ⟨members, rfl, hm⟩
    · cases read
  · cases h

/-- The properties of an object are values of one of the members of the schema. -/
theorem keyed_of_properties? {found : Value} {properties : List (String × Value)}
    (keyed : found.hasTextKeys = true) (h : properties? found = some properties) :
    ∀ property ∈ properties, property.2.hasTextKeys = true := by
  intro property hp
  obtain ⟨members, rfl, hm⟩ := mem_of_properties? h hp
  exact (Value.textKey_of_mem keyed hm).2

end Schema

/-! ## Resolution -/

section Resolution
variable {registry : Registry} {place : Place} {schema : Value}

theorem isRefusal_of_objection {failure : Failure} (keyed : schema.hasTextKeys = true)
    (h : objection? registry place schema = some failure) : failure.isRefusal = true := by
  unfold objection? at h
  split at h
  · rename_i failed
    cases h
    exact classify_refuses keyed _ failed
  · cases h
    rfl
  · cases h
    rfl
  · split at h
    · cases h
    · cases h
      rfl
  · cases h

/-- **A schema resolves or is refused.**  The failure is the objection to one of its nodes, and
these have texts as keys like the schema itself. -/
theorem resolveSlot_refuses (keyed : schema.hasTextKeys = true) (required : Bool) :
    Refuses (resolveSlot registry place schema required).result := by
  intro failure h
  rw [← Noted.failure?_eq_some, failure?_resolveSlot] at h
  obtain ⟨node, hn, objection⟩ := List.exists_of_findSome?_eq_some h
  exact isRefusal_of_objection (Schema.keyed_of_reaches (Schema.mem_nodes.mp hn) keyed) objection

end Resolution

/-! ## Components -/

namespace Schema
variable {place : Place} {members : Members} {properties : List (String × Value)}
  {required : List String}

theorem boundedText_ne_object {email : Bool} :
    boundedText place members email ≠ .ok (.object properties required) := by
  intro h
  simp only [boundedText, bind, Except.bind, pure, Except.pure, throw, throwThe,
    MonadExceptOf.throw] at h
  repeat' split at h
  all_goals cases h

theorem object_eq_ok (h : object place members = .ok (.object properties required)) :
    properties? (members.getD "properties") = some properties := by
  simp only [object, bind, Except.bind, pure, Except.pure, throw, throwThe,
    MonadExceptOf.throw] at h
  repeat' split at h
  all_goals cases h
  assumption

theorem typed_eq_object (h : typed place members = .ok (.object properties required)) :
    properties? (members.getD "properties") = some properties := by
  simp only [typed, enumeration, Schema.text, array, map, bind, Except.bind, pure,
    Except.pure, throw, throwThe, MonadExceptOf.throw] at h
  repeat' split at h
  all_goals first
    | cases h
    | exact absurd h boundedText_ne_object
    | exact object_eq_ok h

theorem ofMembers_eq_object (h : ofMembers place members = .ok (.object properties required)) :
    properties? (members.getD "properties") = some properties := by
  simp only [ofMembers, reference, oneOf, bind, Except.bind, pure, Except.pure, throw, throwThe,
    MonadExceptOf.throw] at h
  repeat' split at h
  all_goals first
    | cases h
    | exact typed_eq_object h

end Schema

/-- The properties of an object are those that its schema lists. -/
theorem properties_of_classify {place : Place} {schema : Value}
    {properties : List (String × Value)} {required : List String}
    (h : classify place schema = .ok (.object properties required)) :
    ∃ members : Members, schema = .map members ∧
      Schema.properties? (members.getD "properties") = some properties := by
  unfold classify at h
  split at h
  · rename_i members
    exact ⟨members, rfl, Schema.ofMembers_eq_object h⟩
  · cases h

namespace Registry

theorem componentKind_refuses (place : Place) (shape : Shape) :
    Refuses (componentKind place shape) := by
  unfold componentKind
  split
  · exact refuses_ok _
  · exact refuses_ok _
  · exact refuses_error rfl

theorem entries_refuses {members : Members} (keyed : (Value.map members).hasTextKeys = true)
    (names : List (String × String)) : Refuses (entries names members) := by
  induction members generalizing names with
  | nil => exact refuses_ok []
  | cons member rest ih =>
    obtain ⟨key, schema⟩ := member
    obtain ⟨⟨raw, rfl⟩, below⟩ := Value.textKey_of_mem keyed List.mem_cons_self
    refine (Identifier.ofHumped_refuses raw).bind fun name _ => ?_
    split
    · exact refuses_error rfl
    · refine (classify_refuses below).bind fun shape _ => ?_
      refine (componentKind_refuses _ shape).bind fun kind _ => ?_
      exact (ih (Value.hasTextKeys_of_cons keyed) _).bind fun _ _ => refuses_ok _

theorem ofSchemas_refuses {schemas : Members} (keyed : (Value.map schemas).hasTextKeys = true) :
    Refuses (ofSchemas schemas) :=
  (entries_refuses keyed []).bind fun _ _ => refuses_ok _

theorem declares_of_mem_entries {names : List (String × String)} {members : Members}
    {kinds : List (String × ComponentKind)} (h : entries names members = .ok kinds)
    {member : Scalar × Value} (hm : member ∈ members) : ∃ name kind, Declares member name kind := by
  induction members generalizing names kinds with
  | nil => cases hm
  | cons first rest ih =>
    obtain ⟨raw, name, kind, later, -, declares, -, hl, -⟩ := entries_cons_eq_ok h
    rcases List.mem_cons.mp hm with rfl | hm
    · exact ⟨name, kind, declares⟩
    · exact ih hl hm

/-- **Every component is declared.**  Each component schema of an accepted document has a name and
a kind. -/
theorem declares_of_mem {schemas : Members} {registry : Registry}
    (h : ofSchemas schemas = .ok registry) {member : Scalar × Value} (hm : member ∈ schemas) :
    ∃ name kind, Declares member name kind := by
  obtain ⟨kinds, hk, -⟩ := Except.bind_eq_ok.mp h
  exact declares_of_mem_entries hk hm

end Registry
end TypedApi
