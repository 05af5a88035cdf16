import TypedApi.Proofs.Concurrence
import TypedApi.Proofs.Schema.Nodes
import TypedApi.Proofs.Schema.Resolution

/-! # Schemas that say the same

Two schemas are restyled if they differ only in their titles and examples and in the order of their
members, at any depth (`Restyled`).  This is no relation on members alone, since a property may be
called `title`: what a member is depends on the role of the value that it stands in.  Such schemas
have shapes of the same kind with restyled parts (`classify_concur`) and resolve to the same codec
with the same imports (`resolve_concur`).
-/
namespace TypedApi

theorem forall₂_refl {α : Type} {R : α → α → Prop} (refl : ∀ a, R a a) (items : List α) :
    List.Forall₂ R items items :=
  List.forall₂_same.mpr fun a _ => refl a

/-- Members have the same keys in the same order, and the values of each key are related. -/
def MembersAlike {α : Type} (R : α → Value → Value → Prop) :
    List (α × Value) → List (α × Value) → Prop :=
  List.Forall₂ fun member member' => member.1 = member'.1 ∧ R member.1 member.2 member'.2

namespace MembersAlike
variable {α : Type} {R : α → Value → Value → Prop} {members members' : List (α × Value)}

theorem refl (same : ∀ key v, R key v v) (members : List (α × Value)) :
    MembersAlike R members members :=
  forall₂_refl (fun member => ⟨rfl, same member.1 member.2⟩) members

theorem map_fst (h : MembersAlike R members members') :
    members.map Prod.fst = members'.map Prod.fst := by
  induction h with
  | nil => rfl
  | cons own _ ih => rw [List.map_cons, List.map_cons, own.1, ih]

theorem get?_rel {R : Scalar → Value → Value → Prop} {members members' : Members}
    (h : MembersAlike R members members') (name : String) :
    Option.Rel (R (.text name)) (members.get? name) (members'.get? name) := by
  induction h with
  | nil => exact .none
  | @cons member member' rest rest' own _ ih =>
    obtain ⟨key, value⟩ := member
    obtain ⟨key', value'⟩ := member'
    obtain ⟨rfl, related⟩ := own
    rw [Members.get?, Members.get?]
    by_cases found : key = .text name
    · rw [if_pos found, if_pos found]
      subst found
      exact .some related
    · rw [if_neg found, if_neg found]
      exact ih

end MembersAlike

namespace Schema

/-- What stands in a place of a schema. -/
inductive Role where
  | schema
  | schemas
  /-- Schemas under names. -/
  | properties
  /-- Nothing that has schemas in it. -/
  | plain
deriving DecidableEq

/-- What stands in the member of a schema with the given name. -/
def roleOf (name : String) : Role :=
  if name ∈ ["items", "additionalProperties", "not"] then .schema
  else if name ∈ ["oneOf", "anyOf", "allOf"] then .schemas
  else if name = "properties" then .properties
  else .plain

/-- The members of a schema that say nothing about generated code. -/
def asides : List String := ["title", "example"]

/-- Two values say the same in a role.  The nodes of a schema have the same members besides asides,
in any order, with values that say the same. -/
inductive Restyled : Role → Value → Value → Prop
  | same {role : Role} (v : Value) : Restyled role v v
  | node {members members' : Members} :
      (∀ key, key ∉ asides.map Scalar.text →
        (key ∈ members.map Prod.fst ↔ key ∈ members'.map Prod.fst)) →
      (∀ name v v', name ∉ asides → members.get? name = some v → members'.get? name = some v' →
        Restyled (roleOf name) v v') →
      Restyled .schema (.map members) (.map members')
  | list {items items' : List Value} :
      List.Forall₂ (Restyled .schema) items items' → Restyled .schemas (.list items) (.list items')
  | properties {members members' : Members} :
      members.map Prod.fst = members'.map Prod.fst →
      List.Forall₂ (Restyled .schema) (members.map Prod.snd) (members'.map Prod.snd) →
      Restyled .properties (.map members) (.map members')

/-- The members of two nodes say the same. -/
structure NodesAlike (members members' : Members) : Prop where
  keys : ∀ key, key ∉ asides.map Scalar.text →
    (key ∈ members.map Prod.fst ↔ key ∈ members'.map Prod.fst)
  values : ∀ name v v', name ∉ asides → members.get? name = some v → members'.get? name = some v' →
    Restyled (roleOf name) v v'

theorem NodesAlike.refl (members : Members) : NodesAlike members members := by
  refine ⟨fun _ _ => .rfl, fun name v v' _ found found' => ?_⟩
  cases found.symm.trans found'
  exact .same v

/-! ## Restyled values by role -/

section Values
variable {v v' : Value}

theorem Restyled.of_plain (h : Restyled .plain v v') : v = v' := by
  cases h
  rfl

theorem Restyled.of_schema (h : Restyled .schema v v') :
    (∃ members members', v = .map members ∧ v' = .map members' ∧ NodesAlike members members') ∨
      (v' = v ∧ v.isMap = false) := by
  cases h with
  | same =>
    cases v with
    | map members => exact .inl ⟨members, members, rfl, rfl, .refl members⟩
    | _ => exact .inr ⟨rfl, rfl⟩
  | node keys values => exact .inl ⟨_, _, rfl, rfl, keys, values⟩

theorem Restyled.isMap_eq (h : Restyled .schema v v') : v.isMap = v'.isMap := by
  rcases h.of_schema with ⟨_, _, rfl, rfl, -⟩ | ⟨rfl, -⟩
  · rfl
  · rfl

theorem Restyled.of_schemas (h : Restyled .schemas v v') :
    (∃ items items', v = .list items ∧ v' = .list items' ∧
      List.Forall₂ (Restyled .schema) items items') ∨ (v' = v ∧ ∀ items, v ≠ .list items) := by
  cases h with
  | same =>
    cases v with
    | list items => exact .inl ⟨items, items, rfl, rfl, forall₂_refl .same items⟩
    | _ => exact .inr ⟨rfl, fun _ h => by cases h⟩
  | list related => exact .inl ⟨_, _, rfl, rfl, related⟩

end Values

/-- Properties have the same names in the same order, and their schemas say the same. -/
abbrev PropertiesAlike {α : Type} : List (α × Value) → List (α × Value) → Prop :=
  MembersAlike fun _ => Restyled .schema

theorem PropertiesAlike.refl {α : Type} (properties : List (α × Value)) :
    PropertiesAlike properties properties :=
  MembersAlike.refl (fun _ => .same) properties

theorem propertiesAlike_of_maps {α : Type} {properties properties' : List (α × Value)}
    (names : properties.map Prod.fst = properties'.map Prod.fst)
    (schemas : List.Forall₂ (Restyled .schema) (properties.map Prod.snd)
      (properties'.map Prod.snd)) : PropertiesAlike properties properties' := by
  induction properties generalizing properties' with
  | nil =>
    cases properties' with
    | nil => exact .nil
    | cons _ _ => cases names
  | cons property rest ih =>
    cases properties' with
    | nil => cases names
    | cons property' rest' =>
      obtain ⟨first, names⟩ := List.cons.inj names
      cases schemas with
      | cons own later => exact .cons ⟨first, own⟩ (ih names later)

theorem Restyled.of_properties {v v' : Value} (h : Restyled .properties v v') :
    (∃ members members', v = .map members ∧ v' = .map members' ∧
      PropertiesAlike members members') ∨ (v' = v ∧ v.isMap = false) := by
  cases h with
  | same =>
    cases v with
    | map members => exact .inl ⟨members, members, rfl, rfl, .refl members⟩
    | _ => exact .inr ⟨rfl, rfl⟩
  | properties names schemas => exact .inl ⟨_, _, rfl, rfl, propertiesAlike_of_maps names schemas⟩

/-! ## Members of restyled nodes -/

theorem isSome_get?_iff {name : String} {members : Members} :
    (members.get? name).isSome = true ↔ Scalar.text name ∈ members.map Prod.fst := by
  induction members with
  | nil => simp
  | cons member rest ih =>
    obtain ⟨key, value⟩ := member
    rw [Members.get?, List.map_cons, List.mem_cons, ← ih]
    by_cases same : key = .text name
    · simp [same]
    · simp [same, Ne.symm same]

section Nodes
variable {members members' : Members} (alike : NodesAlike members members')
include alike

theorem NodesAlike.has_eq (name : String) (said : name ∉ asides) :
    members.has name = members'.has name := by
  have other : Scalar.text name ∉ asides.map Scalar.text := by
    simpa using said
  rw [Bool.eq_iff_iff, Members.has, Members.has, isSome_get?_iff, isSome_get?_iff]
  exact alike.keys _ other

/-- A member is in neither node, or it is in both with values that say the same. -/
theorem NodesAlike.get?_cases (name : String) (said : name ∉ asides) :
    (members.get? name = none ∧ members'.get? name = none) ∨
      ∃ v v', members.get? name = some v ∧ members'.get? name = some v' ∧
        Restyled (roleOf name) v v' := by
  have both := alike.has_eq name said
  unfold Members.has at both
  cases found : members.get? name with
  | none =>
    rw [found] at both
    exact .inl ⟨rfl, Option.not_isSome_iff_eq_none.mp (by simp [← both])⟩
  | some v =>
    rw [found] at both
    obtain ⟨v', found'⟩ := Option.isSome_iff_exists.mp both.symm
    exact .inr ⟨v, v', rfl, found', alike.values name v v' said found found'⟩

theorem NodesAlike.get?_eq (name : String) (said : name ∉ asides) (plain : roleOf name = .plain) :
    members.get? name = members'.get? name := by
  rcases alike.get?_cases name said with ⟨none_, none_'⟩ | ⟨v, v', found, found', related⟩
  · rw [none_, none_']
  · rw [plain] at related
    rw [found, found', related.of_plain]

theorem NodesAlike.getD_eq (name : String) (said : name ∉ asides) (plain : roleOf name = .plain) :
    members.getD name = members'.getD name := by
  rw [Members.getD, Members.getD, alike.get?_eq name said plain]

theorem NodesAlike.getD_restyled (name : String) (said : name ∉ asides) :
    Restyled (roleOf name) (members.getD name) (members'.getD name) := by
  rw [Members.getD, Members.getD]
  rcases alike.get?_cases name said with ⟨none_, none_'⟩ | ⟨v, v', found, found', related⟩
  · rw [none_, none_']
    exact .same _
  · rw [found, found']
    exact related

end Nodes

/-! ## Nodes with members in another order -/

/-- Whether a member of a node is no aside. -/
def isSaid (member : Scalar × Value) : Bool := !(asides.map Scalar.text).contains member.1

/-- What stands in the member of a schema with the given key. -/
def roleAt : Scalar → Role
  | .text name => roleOf name
  | _ => .plain

theorem get?_filter_isSaid {name : String} (said : name ∉ asides) (members : Members) :
    Members.get? name (members.filter isSaid) = members.get? name := by
  induction members with
  | nil => rfl
  | cons member rest ih =>
    obtain ⟨key, value⟩ := member
    by_cases found : key = .text name
    · subst found
      have kept : isSaid (Scalar.text name, value) = true := by simp [isSaid, said]
      rw [List.filter_cons_of_pos kept, Members.get?, Members.get?, if_pos rfl, if_pos rfl]
    · rw [List.filter_cons, Members.get?, if_neg found]
      split
      · rw [Members.get?, if_neg found, ih]
      · exact ih

theorem mem_keys_filter_isSaid {key : Scalar} (said : key ∉ asides.map Scalar.text)
    (members : Members) :
    key ∈ (members.filter isSaid).map Prod.fst ↔ key ∈ members.map Prod.fst := by
  constructor
  · intro listed
    obtain ⟨member, hm, rfl⟩ := List.mem_map.mp listed
    exact List.mem_map_of_mem (List.mem_filter.mp hm).1
  · intro listed
    obtain ⟨member, hm, rfl⟩ := List.mem_map.mp listed
    exact List.mem_map_of_mem (List.mem_filter.mpr ⟨hm, by simpa [isSaid] using said⟩)

/-- With distinct keys, members are found in any order. -/
theorem get?_eq_of_perm {members members' : Members} (distinct : (members.map Prod.fst).Nodup)
    (reordered : members.Perm members') (name : String) :
    members.get? name = members'.get? name := by
  induction reordered with
  | nil => rfl
  | cons member _ ih =>
    obtain ⟨key, value⟩ := member
    rw [Members.get?, Members.get?, ih (List.nodup_cons.mp distinct).2]
  | swap first second rest =>
    obtain ⟨key, value⟩ := first
    obtain ⟨key', value'⟩ := second
    have other : key' ≠ key := fun same =>
      (List.nodup_cons.mp distinct).1 (List.mem_cons.mpr (.inl same))
    simp only [Members.get?]
    by_cases found : key = .text name
    · rw [if_neg (found ▸ other), if_pos found, if_pos found]
    · rw [if_neg found, if_neg found]
  | trans first _ ih ih' =>
    rw [ih distinct, ih' ((first.map Prod.fst).nodup_iff.mp distinct)]

/-- **Nodes say the same in any order.**  A schema says the same as another one if its members are
those of the other, without asides and in any order, with values that say the same. -/
theorem Restyled.of_perm {members members' arranged : Members}
    (distinct : (members.map Prod.fst).Nodup) (reordered : (members.filter isSaid).Perm arranged)
    (related : MembersAlike (fun key => Restyled (roleAt key)) arranged (members'.filter isSaid)) :
    Restyled .schema (.map members) (.map members') := by
  have apart : ((members.filter isSaid).map Prod.fst).Nodup :=
    distinct.sublist (List.filter_sublist.map _)
  refine .node (fun key said => ?_) fun name v v' said found found' => ?_
  · rw [← mem_keys_filter_isSaid said members, ← mem_keys_filter_isSaid said members',
      (reordered.map Prod.fst).mem_iff, related.map_fst]
  · rw [← get?_filter_isSaid said, get?_eq_of_perm apart reordered] at found
    rw [← get?_filter_isSaid said] at found'
    have both := related.get?_rel name
    rw [found, found'] at both
    cases both with
    | some same => exact same

theorem Restyled.of_filter {members members' : Members} (distinct : (members.map Prod.fst).Nodup)
    (same : members.filter isSaid = members'.filter isSaid) :
    Restyled .schema (.map members) (.map members') :=
  .of_perm distinct (same ▸ .rfl) (.refl (fun _ => .same) _)

/-! ## Classification -/

section Checks
variable {place : Place} {label : String} {members members' : Members} {allowed : List String}

theorem unexpectedKeys_eq_nil_of_keys
    (keys : ∀ key, key ∉ asides.map Scalar.text →
      (key ∈ members'.map Prod.fst → key ∈ members.map Prod.fst))
    (h : unexpectedKeys members allowed = []) : unexpectedKeys members' allowed = [] := by
  rw [unexpectedKeys, List.filter_eq_nil_iff] at h ⊢
  intro key hk unexpected
  have said : key ∉ asides.map Scalar.text := by
    intro aside
    obtain ⟨name, hn, rfl⟩ := List.mem_map.mp aside
    have ignored : name ∈ annotations := by
      rcases List.mem_cons.mp hn with rfl | hn
      · decide
      · cases List.mem_singleton.mp hn
        decide
    simp [ignored] at unexpected
  exact h key (keys key said hk) unexpected

theorem expectOnly_of_nil (h : unexpectedKeys members allowed = []) :
    expectOnly place label members allowed = .ok () := by
  rw [expectOnly, h]

theorem exists_of_expectOnly (place : Place) (label : String)
    (h : unexpectedKeys members allowed ≠ []) :
    ∃ e, expectOnly place label members allowed = .error e := by
  unfold expectOnly
  split
  · next none_ => exact absurd none_ h
  · split
    · exact ⟨_, rfl⟩
    · exact ⟨_, rfl⟩

theorem NodesAlike.expectOnly_concur (alike : NodesAlike members members') :
    Concur Eq (expectOnly place label members allowed)
      (expectOnly place label members' allowed) := by
  by_cases none_ : unexpectedKeys members allowed = []
  · have none_' := unexpectedKeys_eq_nil_of_keys (fun key said => (alike.keys key said).mpr) none_
    rw [expectOnly_of_nil none_, expectOnly_of_nil none_']
    exact .done rfl
  · have some_ : unexpectedKeys members' allowed ≠ [] := fun none_' =>
      none_ (unexpectedKeys_eq_nil_of_keys (fun key said => (alike.keys key said).mp) none_')
    obtain ⟨e, refused⟩ := exists_of_expectOnly place label none_
    obtain ⟨e', refused'⟩ := exists_of_expectOnly place label some_
    rw [refused, refused']
    exact .fail e e'

end Checks

/-- Two shapes of one kind whose parts say the same. -/
inductive ShapesAlike : Shape → Shape → Prop
  | same (shape : Shape) : ShapesAlike shape shape
  | oneOf {options options' : List Value} :
      List.Forall₂ (Restyled .schema) options options' →
        ShapesAlike (.oneOf options) (.oneOf options')
  | map {values values' : Value} :
      Restyled .schema values values' → ShapesAlike (.map values) (.map values')
  | array {items items' : Value} :
      Restyled .schema items items' → ShapesAlike (.array items) (.array items')
  | object {properties properties' : List (String × Value)} {required : List String} :
      PropertiesAlike properties properties' →
        ShapesAlike (.object properties required) (.object properties' required)

namespace ShapesAlike
variable {shape : Shape}

theorem of_oneOf {options : List Value} (h : ShapesAlike (.oneOf options) shape) :
    ∃ options', shape = .oneOf options' ∧ List.Forall₂ (Restyled .schema) options options' := by
  cases h with
  | same => exact ⟨options, rfl, forall₂_refl .same options⟩
  | oneOf related => exact ⟨_, rfl, related⟩

theorem of_map {values : Value} (h : ShapesAlike (.map values) shape) :
    ∃ values', shape = .map values' ∧ Restyled .schema values values' := by
  cases h with
  | same => exact ⟨values, rfl, .same values⟩
  | map related => exact ⟨_, rfl, related⟩

theorem of_array {items : Value} (h : ShapesAlike (.array items) shape) :
    ∃ items', shape = .array items' ∧ Restyled .schema items items' := by
  cases h with
  | same => exact ⟨items, rfl, .same items⟩
  | array related => exact ⟨_, rfl, related⟩

theorem of_object {properties : List (String × Value)} {required : List String}
    (h : ShapesAlike (.object properties required) shape) :
    ∃ properties', shape = .object properties' required ∧
      PropertiesAlike properties properties' := by
  cases h with
  | same => exact ⟨properties, rfl, .refl properties⟩
  | object related => exact ⟨_, rfl, related⟩

end ShapesAlike

theorem rel_bind {α β γ δ : Type} {R : α → β → Prop} {S : γ → δ → Prop} {x : Option α}
    {y : Option β} {f : α → Option γ} {g : β → Option δ} (h : Option.Rel R x y)
    (hf : ∀ a b, R a b → Option.Rel S (f a) (g b)) : Option.Rel S (x >>= f) (y >>= g) := by
  cases h with
  | some related => exact hf _ _ related
  | none => exact .none

/-- A traversal of related items returns related results, or none for either. -/
theorem rel_mapM {α β γ δ : Type} {R : α → β → Prop} {S : γ → δ → Prop} {as : List α}
    {bs : List β} {f : α → Option γ} {g : β → Option δ} (h : List.Forall₂ R as bs)
    (hf : ∀ a b, R a b → Option.Rel S (f a) (g b)) :
    Option.Rel (List.Forall₂ S) (as.mapM f) (bs.mapM g) := by
  induction h with
  | nil => exact .some .nil
  | cons own _ ih =>
    rw [List.mapM_cons, List.mapM_cons]
    refine rel_bind (hf _ _ own) fun c d first => rel_bind ih fun cs ds later => ?_
    exact .some (.cons first later)

/-- Restyled values list properties alike. -/
theorem properties?_rel {v v' : Value} (h : Restyled .properties v v') :
    Option.Rel PropertiesAlike (properties? v) (properties? v') := by
  rcases h.of_properties with ⟨members, members', rfl, rfl, alike⟩ | ⟨rfl, noMap⟩
  · refine rel_mapM alike ?_
    rintro ⟨key, schema⟩ ⟨_, schema'⟩ ⟨rfl, related⟩
    cases key with
    | text name =>
      rcases Restyled.of_schema related with ⟨_, _, rfl, rfl, -⟩ | ⟨same, noMap⟩
      · exact .some ⟨rfl, related⟩
      · cases same
        cases schema with
        | map _ => cases noMap
        | _ => exact .none
    | _ => exact .none
  · cases v' with
    | map _ => cases noMap
    | _ => exact .none

section Shapes
variable {place : Place} {members members' : Members} (alike : NodesAlike members members')
include alike

theorem reference_concur :
    Concur ShapesAlike (reference place members) (reference place members') := by
  refine alike.expectOnly_concur.eq_bind fun _ => ?_
  rw [alike.getD_eq "$ref" (by decide) (by decide)]
  exact .same _ .same

theorem oneOf_concur : Concur ShapesAlike (oneOf place members) (oneOf place members') := by
  refine alike.expectOnly_concur.eq_bind fun _ => ?_
  rcases alike.get?_cases "oneOf" (by decide) with ⟨none_, none_'⟩ |
    ⟨v, v', found, found', related⟩
  · rw [none_, none_']
    exact .fail _ _
  · rw [found, found']
    rcases Restyled.of_schemas related with ⟨items, items', rfl, rfl, options⟩ | ⟨rfl, -⟩
    · cases options with
      | nil => exact .fail _ _
      | cons own later => exact .done (.oneOf (.cons own later))
    · exact .same _ .same

theorem enumeration_concur :
    Concur ShapesAlike (enumeration place members) (enumeration place members') := by
  refine alike.expectOnly_concur.eq_bind fun _ => ?_
  rw [alike.get?_eq "enum" (by decide) (by decide)]
  exact .same _ .same

theorem boundedText_concur (email : Bool) :
    Concur ShapesAlike (boundedText place members email) (boundedText place members' email) := by
  refine alike.expectOnly_concur.eq_bind fun _ => ?_
  have minLength : length place members "minLength" = length place members' "minLength" := by
    rw [length, length, alike.getD_eq "minLength" (by decide) (by decide)]
  have maxLength : length place members "maxLength" = length place members' "maxLength" := by
    rw [length, length, alike.getD_eq "maxLength" (by decide) (by decide)]
  rw [minLength, maxLength]
  exact .same _ .same

theorem text_concur : Concur ShapesAlike (text place members) (text place members') := by
  unfold text
  rw [alike.getD_eq "format" (by decide) (by decide)]
  split
  · exact boundedText_concur alike false
  · exact boundedText_concur alike true
  · exact alike.expectOnly_concur.eq_bind fun _ => .done (.same _)
  · exact alike.expectOnly_concur.eq_bind fun _ => .done (.same _)
  · exact .fail _ _

theorem array_concur : Concur ShapesAlike (array place members) (array place members') := by
  refine alike.expectOnly_concur.eq_bind fun _ => ?_
  rcases alike.get?_cases "items" (by decide) with ⟨none_, none_'⟩ |
    ⟨v, v', found, found', related⟩
  · rw [none_, none_']
    exact .fail _ _
  · rw [found, found']
    have items : Restyled .schema v v' := related
    rcases items.of_schema with ⟨_, _, rfl, rfl, -⟩ | ⟨rfl, -⟩
    · exact .done (.array items)
    · exact .same _ .same

theorem map_concur : Concur ShapesAlike (map place members) (map place members') := by
  refine alike.expectOnly_concur.eq_bind fun _ => ?_
  rcases alike.get?_cases "additionalProperties" (by decide) with ⟨none_, none_'⟩ |
    ⟨v, v', found, found', related⟩
  · rw [none_, none_']
    exact .fail _ _
  · rw [found, found']
    have values : Restyled .schema v v' := related
    rcases values.of_schema with ⟨_, _, rfl, rfl, -⟩ | ⟨rfl, -⟩
    · exact .done (.map values)
    · exact .same _ .same

theorem object_concur : Concur ShapesAlike (object place members) (object place members') := by
  refine alike.expectOnly_concur.eq_bind fun _ => ?_
  have listed := properties?_rel (alike.getD_restyled "properties" (by decide))
  rw [alike.get?_eq "required" (by decide) (by decide)]
  generalize properties? (members.getD "properties") = found,
    properties? (members'.getD "properties") = found' at listed ⊢
  cases listed with
  | none => exact .fail _ _
  | @some properties properties' related =>
    have names : (properties.map fun property => property.1) =
        properties'.map fun property => property.1 := related.map_fst
    simp only [names]
    split
    · exact .fail _ _
    · split
      · exact .done (.object related)
      · exact .fail _ _

theorem typed_concur : Concur ShapesAlike (typed place members) (typed place members') := by
  unfold typed
  rw [alike.getD_eq "type" (by decide) (by decide), alike.has_eq "enum" (by decide),
    alike.has_eq "properties" (by decide)]
  split
  · split
    · exact enumeration_concur alike
    · exact text_concur alike
  · exact alike.expectOnly_concur.eq_bind fun _ => .done (.same _)
  · exact alike.expectOnly_concur.eq_bind fun _ => .done (.same _)
  · exact alike.expectOnly_concur.eq_bind fun _ => .done (.same _)
  · exact array_concur alike
  · split
    · exact object_concur alike
    · exact map_concur alike
  · exact .fail _ _
  · exact .fail _ _

theorem ofMembers_concur :
    Concur ShapesAlike (ofMembers place members) (ofMembers place members') := by
  have compositions : unsupported.find? (fun name => Members.has name members) =
      unsupported.find? fun name => Members.has name members' := by
    simp only [unsupported, List.find?, alike.has_eq "anyOf" (by decide),
      alike.has_eq "allOf" (by decide), alike.has_eq "not" (by decide),
      alike.has_eq "discriminator" (by decide)]
  unfold ofMembers
  rw [alike.has_eq "$ref" (by decide), alike.has_eq "oneOf" (by decide),
    compositions]
  split
  · exact reference_concur alike
  · split
    · exact .fail _ _
    · split
      · exact oneOf_concur alike
      · exact typed_concur alike

end Shapes
end Schema

open Schema

/-- **Restyled schemas have shapes alike.** -/
theorem classify_concur {schema schema' : Value} (place : Place)
    (h : Restyled .schema schema schema') :
    Concur ShapesAlike (classify place schema) (classify place schema') := by
  rcases h.of_schema with ⟨members, members', rfl, rfl, alike⟩ | ⟨rfl, -⟩
  · exact ofMembers_concur alike
  · exact .same _ .same

/-! ## Resolution -/

section Resolution
variable {registry : Registry} {place : Place} {schema schema' : Value}

theorem exists_of_classify {shape : Shape} (h : classify place schema = .ok shape)
    (restyled : Restyled .schema schema schema') :
    ∃ shape', classify place schema' = .ok shape' ∧ ShapesAlike shape shape' :=
  (classify_concur place restyled).exists_of_ok h

/-- **Restyled schemas resolve alike.**  Both or neither resolve, to the same codec and with the
same imports. -/
theorem resolve_concur (registry : Registry) :
    (∀ place schema, ∀ schema', Restyled .schema schema schema' →
      Noted.Concur Eq (resolve registry place schema) (resolve registry place schema')) ∧
    ∀ place index options, ∀ options', List.Forall₂ (Restyled .schema) options options' →
      Noted.Concur Eq (resolveOptions registry place index options)
        (resolveOptions registry place index options') := by
  refine resolve.mutual_induct
    (fun place schema => ∀ schema', Restyled .schema schema schema' →
      Noted.Concur Eq (resolve registry place schema) (resolve registry place schema'))
    (fun place index options => ∀ options', List.Forall₂ (Restyled .schema) options options' →
      Noted.Concur Eq (resolveOptions registry place index options)
        (resolveOptions registry place index options'))
    ?error ?reference ?oneOf ?boolean ?number ?date ?dateTime ?text ?map ?array ?enumeration
    ?object ?nil ?cons
  case error =>
    intro place schema e h schema' restyled
    obtain ⟨e', h'⟩ := (classify_concur place restyled).exists_of_error h
    rw [resolve_of_error h, resolve_of_error h']
    exact .fail e e'
  case reference =>
    intro place schema text name h schema' restyled
    obtain ⟨_, h', alike⟩ := exists_of_classify h restyled
    cases alike
    rw [resolve_of_reference h, resolve_of_reference h']
    exact .same _ fun _ => rfl
  case oneOf =>
    intro place schema options h _ ih schema' restyled
    obtain ⟨_, h', alike⟩ := exists_of_classify h restyled
    obtain ⟨options', rfl, related⟩ := alike.of_oneOf
    rw [resolve_of_oneOf h, resolve_of_oneOf h']
    exact (ih options' related).eq_bind fun _ => .done rfl
  case map =>
    intro place schema values h _ ih schema' restyled
    obtain ⟨_, h', alike⟩ := exists_of_classify h restyled
    obtain ⟨values', rfl, related⟩ := alike.of_map
    rw [resolve_of_map h, resolve_of_map h']
    exact (ih values' related).eq_bind fun _ => .done rfl
  case array =>
    intro place schema items h _ ih schema' restyled
    obtain ⟨_, h', alike⟩ := exists_of_classify h restyled
    obtain ⟨items', rfl, related⟩ := alike.of_array
    rw [resolve_of_array h, resolve_of_array h']
    exact (ih items' related).eq_bind fun _ => .done rfl
  case boolean =>
    intro place schema h schema' restyled
    obtain ⟨_, h', ⟨⟩⟩ := exists_of_classify h restyled
    rw [resolve_of_boolean h, resolve_of_boolean h']
    exact .done rfl
  case number =>
    intro place schema integer h schema' restyled
    obtain ⟨_, h', ⟨⟩⟩ := exists_of_classify h restyled
    rw [resolve_of_number h, resolve_of_number h']
    exact .done rfl
  case date =>
    intro place schema h schema' restyled
    obtain ⟨_, h', ⟨⟩⟩ := exists_of_classify h restyled
    rw [resolve_of_date h, resolve_of_date h']
    exact .done rfl
  case dateTime =>
    intro place schema h schema' restyled
    obtain ⟨_, h', ⟨⟩⟩ := exists_of_classify h restyled
    rw [resolve_of_dateTime h, resolve_of_dateTime h']
    exact .done rfl
  case text =>
    intro place schema limits h schema' restyled
    obtain ⟨_, h', ⟨⟩⟩ := exists_of_classify h restyled
    rw [resolve_of_text h, resolve_of_text h']
    exact .done rfl
  case enumeration =>
    intro place schema values h schema' restyled
    obtain ⟨_, h', ⟨⟩⟩ := exists_of_classify h restyled
    rw [resolve_of_enumeration h, resolve_of_enumeration h']
    exact .fail _ _
  case object =>
    intro place schema properties required h schema' restyled
    obtain ⟨_, h', alike⟩ := exists_of_classify h restyled
    obtain ⟨properties', rfl, -⟩ := alike.of_object
    rw [resolve_of_object h, resolve_of_object h']
    exact .fail _ _
  case nil =>
    intro place index options' restyled
    cases restyled
    exact .same _ fun _ => rfl
  case cons =>
    intro place index option rest ih ihs options' restyled
    cases restyled with
    | cons own later =>
      rw [resolveOptions, resolveOptions]
      exact (ih _ own).eq_bind fun _ => (ihs _ later).eq_bind fun _ => .done rfl

theorem resolveSlot_concur (restyled : Restyled .schema schema schema') (place : Place)
    (required : Bool) :
    Noted.Concur Eq (resolveSlot registry place schema required)
      (resolveSlot registry place schema' required) :=
  ((resolve_concur registry).1 place schema schema' restyled).eq_bind fun _ => .done rfl

end Resolution
end TypedApi
