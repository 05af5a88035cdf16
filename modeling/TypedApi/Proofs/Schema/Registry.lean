import TypedApi.Proofs.Noted
import TypedApi.Schema.Registry

/-! # Registered components

Each entry of a registry stands for a component schema of the document: its type name is that of
the schema, and its kind tells the shape (`Registry.declared_of_kind?`).
-/
namespace TypedApi
namespace Registry

/-- The member declares the component with the given type name and kind. -/
structure Declares (member : Scalar × Value) (name : Identifier) (kind : ComponentKind) : Prop where
  named : ∃ raw, member.1 = .text raw ∧ Identifier.ofHumped raw = .ok name
  kind : ∃ shape, classify [name.upperCamel] member.2 = .ok shape ∧
    componentKind [name.upperCamel] shape = .ok kind

theorem entries_cons_eq_ok {names : List (String × String)} {member : Scalar × Value}
    {rest : Members} {kinds : List (String × ComponentKind)}
    (h : entries names (member :: rest) = .ok kinds) :
    ∃ raw name kind later, member.1 = .text raw ∧ Declares member name kind ∧
      names.lookup name.upperCamel = none ∧
      entries (names ++ [(name.upperCamel, raw)]) rest = .ok later ∧
      kinds = (name.upperCamel, kind) :: later := by
  obtain ⟨key, schema⟩ := member
  cases key with
  | text raw =>
    rw [entries] at h
    obtain ⟨name, hn, h⟩ := Except.bind_eq_ok.mp h
    split at h
    · cases h
    · rename_i new
      obtain ⟨shape, hs, h⟩ := Except.bind_eq_ok.mp h
      obtain ⟨kind, hk, h⟩ := Except.bind_eq_ok.mp h
      obtain ⟨later, hl, h⟩ := Except.bind_eq_ok.mp h
      cases h
      exact ⟨raw, name, kind, later, rfl, ⟨⟨raw, rfl, hn⟩, shape, hs, hk⟩, new, hl, rfl⟩
  | _ => cases h

/-- Every entry of a registry is declared by a member of the component schemas. -/
theorem declared_of_mem_entries {names : List (String × String)} {members : Members}
    {kinds : List (String × ComponentKind)} (h : entries names members = .ok kinds)
    {entry : String × ComponentKind} (he : entry ∈ kinds) :
    ∃ member ∈ members, ∃ name, Declares member name entry.2 ∧ name.upperCamel = entry.1 := by
  induction members generalizing names kinds with
  | nil =>
    cases h
    cases he
  | cons member rest ih =>
    obtain ⟨raw, name, kind, later, -, declares, -, hl, rfl⟩ := entries_cons_eq_ok h
    rcases List.mem_cons.mp he with rfl | he
    · exact ⟨member, List.mem_cons_self, name, declares, rfl⟩
    · obtain ⟨other, ho, declared⟩ := ih hl he
      exact ⟨other, List.mem_cons_of_mem member ho, declared⟩

/-- **Registered components are declared.**  The kind of a type name is that of a component schema
of the document with this type name. -/
theorem declared_of_kind? {schemas : Members} {registry : Registry} {typeName : String}
    {kind : ComponentKind} (h : ofSchemas schemas = .ok registry)
    (found : registry.kind? typeName = some kind) :
    ∃ member ∈ schemas, ∃ name, Declares member name kind ∧ name.upperCamel = typeName := by
  obtain ⟨kinds, hk, hr⟩ := Except.bind_eq_ok.mp h
  cases hr
  obtain ⟨before, after, split, -⟩ := List.lookup_eq_some_iff.mp found
  have entry : (typeName, kind) ∈ kinds := by
    rw [show kinds = before ++ (typeName, kind) :: after from split]
    exact List.mem_append_right before List.mem_cons_self
  exact declared_of_mem_entries hk entry

/-! ## Distinct type names -/

/-- The member of the component schemas has the given name. -/
def Names (member : Scalar × Value) (name : Identifier) : Prop :=
  ∃ raw, member.1 = .text raw ∧ Identifier.ofHumped raw = .ok name

theorem Names.unique {member : Scalar × Value} {name other : Identifier} (h : Names member name)
    (h' : Names member other) : name = other := by
  obtain ⟨raw, key, spelled⟩ := h
  obtain ⟨raw', key', spelled'⟩ := h'
  cases key.symm.trans key'
  exact Except.ok.inj (spelled.symm.trans spelled')

/-- A member that is read has none of the type names that were there before. -/
theorem new_of_entries {names : List (String × String)} {members : Members}
    {kinds : List (String × ComponentKind)} (h : entries names members = .ok kinds)
    {member : Scalar × Value} (hm : member ∈ members) {name : Identifier}
    (named : Names member name) : ∀ entry ∈ names, entry.1 ≠ name.upperCamel := by
  induction members generalizing names kinds with
  | nil => cases hm
  | cons first rest ih =>
    obtain ⟨raw, own, kind, later, -, declares, new, hl, -⟩ := entries_cons_eq_ok h
    rcases List.mem_cons.mp hm with rfl | hm
    · cases named.unique declares.named
      intro entry he same
      simpa [same] using List.lookup_eq_none_iff.mp new entry he
    · exact fun entry he => ih hl hm entry (List.mem_append_left _ he)

/-- Two members with different type names, if they have names. -/
def TypedApart (member other : Scalar × Value) : Prop :=
  ∀ name name', Names member name → Names other name' → name.upperCamel ≠ name'.upperCamel

theorem pairwise_of_entries {names : List (String × String)} {members : Members}
    {kinds : List (String × ComponentKind)} (h : entries names members = .ok kinds) :
    members.Pairwise TypedApart := by
  induction members generalizing names kinds with
  | nil => exact .nil
  | cons first rest ih =>
    obtain ⟨raw, own, kind, later, -, declares, -, hl, -⟩ := entries_cons_eq_ok h
    refine .cons (fun other ho name name' named named' => ?_) (ih hl)
    cases named.unique declares.named
    exact new_of_entries hl ho named' (own.upperCamel, raw) (by simp)

/-- **Registered components have distinct type names.** -/
theorem pairwise_of_ofSchemas {schemas : Members} {registry : Registry}
    (h : ofSchemas schemas = .ok registry) : schemas.Pairwise TypedApart := by
  obtain ⟨kinds, hk, -⟩ := Except.bind_eq_ok.mp h
  exact pairwise_of_entries hk

end Registry
end TypedApi
