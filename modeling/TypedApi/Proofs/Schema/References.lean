import TypedApi.Proofs.Schema.Resolution

/-! # The references of a codec

A codec is made of references to components and of plain parts.  For each reference, resolving a
schema notes one import, the type of the component, and every component referred to is registered
under a name that some reference spells (`resolve_resolvesTo`).
-/
namespace TypedApi
namespace Codec

mutual

/-- The components that a codec refers to, at any depth. -/
def references : Codec → List Identifier
  | .enumeration name => [name]
  | .object name _ => [name]
  | .union options => allReferences options
  | .array item => item.references
  | .map value _ => value.references
  | _ => []

/-- The components that some alternatives refer to. -/
def allReferences : List Codec → List Identifier
  | [] => []
  | option :: rest => option.references ++ allReferences rest

end

mutual

/-- The checks that the parts of a codec need besides those of components, as the names of their
helpers go on after `validate`. -/
def checks : Codec → List String
  | .boolean => ["Boolean"]
  | .number true => ["Integer"]
  | .number false => ["Number"]
  | .text _ => ["String"]
  | .date => ["Date"]
  | .dateTime => ["DateTime"]
  | .enumeration _ => []
  | .object _ _ => []
  | .union options => "First" :: allChecks options
  | .array item => "Array" :: item.checks
  | .map value _ => "Map" :: value.checks

/-- The checks that the parts of some alternatives need. -/
def allChecks : List Codec → List String
  | [] => []
  | option :: rest => option.checks ++ allChecks rest

end

end Codec

/-- Some reference in a schema names the component. -/
def Identifier.Referable (name : Identifier) : Prop :=
  ∃ reference, parseReference reference = .ok name

/-- The component is registered under a name that some reference spells. -/
structure Registry.Knows (registry : Registry) (name : Identifier) : Prop where
  referable : name.Referable
  registered : ∃ kind, registry.kind? name.upperCamel = some kind

/-! ## What resolving a schema notes -/

/-- The types of the components among `names`. -/
def TypeOf (names : List Identifier) (i : Code.Import) : Prop :=
  ∃ name ∈ names, i = name.export name.upperCamel

theorem typeOf_append {names others : List Identifier} {i : Code.Import} :
    TypeOf (names ++ others) i ↔ TypeOf names i ∨ TypeOf others i := by
  simp only [TypeOf, List.mem_append, or_and_right, exists_or]

/-- What holds of a computation that yields something with the given references. -/
def ResolvesTo (registry : Registry) {α : Type} (x : Emission α)
    (references : α → List Identifier) : Prop :=
  ∀ a, x.result = .ok a →
    (∀ i, i ∈ x.notes ↔ TypeOf (references a) i) ∧ ∀ name ∈ references a, registry.Knows name

theorem resolvesTo_pure {registry : Registry} {α : Type} {references : α → List Identifier} {a : α}
    (h : references a = []) : ResolvesTo registry (pure a) references := by
  intro b hb
  cases hb
  rw [h]
  exact ⟨fun i => by simp [TypeOf], fun name hn => by cases hn⟩

theorem resolvesTo_fail {registry : Registry} {α : Type} {references : α → List Identifier}
    {e : Failure} : ResolvesTo registry (.fail e) references :=
  fun _ h => by cases h

namespace ResolvesTo
variable {registry : Registry} {α β : Type} {references : α → List Identifier}

/-- What is noted after a part without notes is all that is noted. -/
theorem after {x : Emission α} {f : α → Emission β} {references : β → List Identifier}
    (quiet : x.notes = []) (hf : ∀ a, ResolvesTo registry (f a) references) :
    ResolvesTo registry (x >>= f) references := by
  intro b hb
  obtain ⟨a, ha, hb⟩ := Noted.bind_eq_ok.mp hb
  rw [Noted.notes_bind_of_ok ha, quiet, List.nil_append]
  exact hf a b hb

theorem bind {x : Emission α} {f : α → Emission β} {all : β → List Identifier}
    (hx : ResolvesTo registry x references) (rest : α → β → List Identifier)
    (hf : ∀ a, ResolvesTo registry (f a) (rest a))
    (split : ∀ a b, (f a).result = .ok b → all b = references a ++ rest a b) :
    ResolvesTo registry (x >>= f) all := by
  intro b hb
  obtain ⟨a, ha, hb⟩ := Noted.bind_eq_ok.mp hb
  obtain ⟨notes, known⟩ := hx a ha
  obtain ⟨later, alsoKnown⟩ := hf a b hb
  rw [Noted.notes_bind_of_ok ha, split a b hb]
  refine ⟨fun i => ?_, fun name hn => ?_⟩
  · rw [List.mem_append, typeOf_append, notes, later]
  · exact (List.mem_append.mp hn).elim (known name) (alsoKnown name)

theorem map {x : Emission α} {g : α → β} {all : β → List Identifier}
    (hx : ResolvesTo registry x references) (same : ∀ a, all (g a) = references a) :
    ResolvesTo registry (do return g (← x)) all := by
  refine hx.bind (fun _ _ => []) (fun _ => resolvesTo_pure rfl) fun a b hb => ?_
  cases hb
  rw [same, List.append_nil]

theorem cons {x : Emission α} {y : Emission (List α)} (hx : ResolvesTo registry x references)
    (hy : ResolvesTo registry y (List.flatMap references)) :
    ResolvesTo registry (do let a ← x; let as ← y; return a :: as) (List.flatMap references) := by
  refine hx.bind (fun _ as => as.tail.flatMap references) (fun _ => hy.map fun _ => rfl) ?_
  intro a b hb
  obtain ⟨as, -, hb⟩ := Noted.bind_eq_ok.mp hb
  cases hb
  rfl

end ResolvesTo

/-- **What resolving notes.**  A schema or a list of alternatives that resolves notes the type of
each component that the codec refers to and nothing else, and all of these are known. -/
theorem resolve_resolvesTo (registry : Registry) :
    (∀ place schema, ResolvesTo registry (resolve registry place schema) Codec.references) ∧
    ∀ place index options,
      ResolvesTo registry (resolveOptions registry place index options) Codec.allReferences := by
  refine resolve.mutual_induct
    (fun place schema => ResolvesTo registry (resolve registry place schema) Codec.references)
    (fun place index options =>
      ResolvesTo registry (resolveOptions registry place index options) Codec.allReferences)
    ?error ?reference ?oneOf ?boolean ?number ?date ?dateTime ?text ?map ?array ?enumeration
    ?object ?nil ?cons
  case error =>
    intro place schema e h
    rw [resolve_of_error h]
    exact resolvesTo_fail
  case reference =>
    intro place schema text name h codec hc
    rw [resolve_of_reference h] at hc ⊢
    obtain ⟨kind, found, rfl, notes⟩ := resolveReference_eq_ok hc
    have known : registry.Knows name := ⟨⟨text, parseReference_of_classify h⟩, kind, found⟩
    cases kind <;> simp [notes, Codec.references, TypeOf, known]
  case oneOf =>
    intro place schema options h _ ih
    rw [resolve_of_oneOf h]
    exact ih.map fun _ => rfl
  case map =>
    intro place schema values h _ ih
    rw [resolve_of_map h]
    exact ih.map fun _ => rfl
  case array =>
    intro place schema items h _ ih
    rw [resolve_of_array h]
    exact ih.map fun _ => rfl
  case boolean =>
    intro place schema h
    rw [resolve_of_boolean h]
    exact resolvesTo_pure rfl
  case number =>
    intro place schema integer h
    rw [resolve_of_number h]
    exact resolvesTo_pure rfl
  case date =>
    intro place schema h
    rw [resolve_of_date h]
    exact resolvesTo_pure rfl
  case dateTime =>
    intro place schema h
    rw [resolve_of_dateTime h]
    exact resolvesTo_pure rfl
  case text =>
    intro place schema limits h
    rw [resolve_of_text h]
    exact resolvesTo_pure rfl
  case enumeration =>
    intro place schema values h
    rw [resolve_of_enumeration h]
    exact resolvesTo_fail
  case object =>
    intro place schema properties required h
    rw [resolve_of_object h]
    exact resolvesTo_fail
  case nil =>
    intro place index
    rw [resolveOptions]
    exact resolvesTo_pure rfl
  case cons =>
    intro place index option rest ih ihs
    rw [resolveOptions]
    refine ih.bind (fun _ codecs => Codec.allReferences codecs.tail)
      (fun _ => ihs.map fun _ => rfl) ?_
    intro codec codecs hc
    obtain ⟨later, -, hc⟩ := Noted.bind_eq_ok.mp hc
    cases hc
    rfl

/-! ## Slots -/

section Slot
variable {registry : Registry} {place : Place} {schema : Value} {required : Bool} {slot : Slot}

/-- The components that a slot refers to. -/
def Slot.references (slot : Slot) : List Identifier := slot.codec.references

/-- A slot resolves as its schema does, whether or not a value has to be there. -/
theorem resolveSlot_eq_ok (h : (resolveSlot registry place schema required).result = .ok slot) :
    (resolve registry place schema).result = .ok slot.codec ∧ slot.required = required ∧
      (resolveSlot registry place schema required).notes =
        (resolve registry place schema).notes := by
  obtain ⟨codec, hc, hr⟩ := Noted.bind_eq_ok.mp h
  cases hr
  refine ⟨hc, rfl, ?_⟩
  rw [resolveSlot, Noted.notes_bind_of_ok hc]
  simp

theorem resolveSlot_resolvesTo :
    ResolvesTo registry (resolveSlot registry place schema required) Slot.references := by
  intro slot h
  obtain ⟨hc, -, notes⟩ := resolveSlot_eq_ok h
  rw [notes]
  exact (resolve_resolvesTo registry).1 place schema slot.codec hc

end Slot
end TypedApi
