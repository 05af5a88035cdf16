import TypedApi.Proofs.Code.Import
import TypedApi.Proofs.Schema.Nodes
import TypedApi.Proofs.Schema.ReferenceText

/-! # The layouts of schemas

Each shape has a layout: the members that a schema of this shape may have, and what they have to
hold (`Shape.allowed`, `Shape.Fits`).  A schema has a shape exactly if it has the layout
(`ofMembers_eq_ok_iff`), and the layouts exclude each other, because a member that another layout
asks for is not allowed.  The place of a schema matters for messages only.
-/
namespace TypedApi

namespace Schema

/-! ## Layouts -/

/-- Every member is an annotation or one of those `allowed`. -/
def Only (members : Members) (allowed : List String) : Prop :=
  ∀ m ∈ members, ∃ name, m.1 = .text name ∧ (name ∈ annotations ∨ name ∈ allowed)

/-- The values are the given texts, one for one. -/
def AreTexts (items : List Value) (texts : List String) : Prop :=
  List.Forall₂ (fun item text => item.text? = some text) items texts

/-- The bound on a length that a member gives. A member that is null gives none. -/
inductive Bounds (members : Members) (name : String) : Option Nat → Prop
  | absent : members.getD name = .null → Bounds members name none
  | given (n : Nat) : members.get? name = some (.int n) → Bounds members name (some n)

/-- Whether the format asks for an email address. A format that is null asks for nothing. -/
inductive AsksEmail (members : Members) : Bool → Prop
  | no : members.getD "format" = .null → AsksEmail members false
  | yes : members.get? "format" = some (.text "email") → AsksEmail members true

/-- The members bound the length of a text by the limits: the upper bound is not zero, the lower
is not above it, and a lower bound of zero is none. -/
def BoundsLength (members : Members) (limits : TextLimits) : Prop :=
  ∃ lower, Bounds members "minLength" lower ∧ Bounds members "maxLength" limits.maxLength ∧
    limits.minLength = lower.filter (· != 0) ∧ limits.maxLength ≠ some 0 ∧
    ∀ minimum ∈ limits.minLength, ∀ maximum ∈ limits.maxLength, minimum ≤ maximum

/-- The names of required properties that a list holds; without the list there are none. -/
inductive Requires (members : Members) : List String → Prop
  | absent : members.get? "required" = none → Requires members []
  | listed {items : List Value} {names : List String} :
      members.get? "required" = some (.list items) → AreTexts items names → Requires members names

end Schema

namespace Shape

open Schema

/-- The members that a schema of the shape may have besides annotations. -/
def allowed : Shape → List String
  | .reference _ _ => ["$ref"]
  | .oneOf _ => ["oneOf"]
  | .boolean => ["type"]
  | .number _ => ["type"]
  | .text _ => ["type", "format", "minLength", "maxLength"]
  | .date => ["type", "format"]
  | .dateTime => ["type", "format"]
  | .enumeration _ => ["type", "enum"]
  | .map _ => ["type", "additionalProperties"]
  | .array _ => ["type", "items"]
  | .object _ _ => ["type", "properties", "required"]

/-- What the members of a schema of the shape hold. -/
def Fits (members : Members) : Shape → Prop
  | .reference target name =>
    (∃ found, members.get? "$ref" = some found ∧ found.text? = some target) ∧
      ∃ cs, RefersTo target cs ∧ IsComponentName cs ∧
        name = Identifier.spell (Identifier.humps cs)
  | .oneOf options => members.get? "oneOf" = some (.list options) ∧ options ≠ []
  | .boolean => members.get? "type" = some (.text "boolean")
  | .number integer =>
    members.get? "type" = some (.text (if integer then "integer" else "number"))
  | .text limits =>
    members.get? "type" = some (.text "string") ∧ AsksEmail members limits.email ∧
      BoundsLength members limits
  | .date =>
    members.get? "type" = some (.text "string") ∧ members.get? "format" = some (.text "date")
  | .dateTime =>
    members.get? "type" = some (.text "string") ∧ members.get? "format" = some (.text "date-time")
  | .enumeration values =>
    members.get? "type" = some (.text "string") ∧
      (∃ items, members.get? "enum" = some (.list items) ∧ AreTexts items values) ∧
      values ≠ [] ∧ values.Nodup
  | .map values =>
    members.get? "type" = some (.text "object") ∧
      members.get? "additionalProperties" = some values ∧ values.isMap = true
  | .array items =>
    members.get? "type" = some (.text "array") ∧ members.get? "items" = some items ∧
      items.isMap = true
  | .object properties required =>
    members.get? "type" = some (.text "object") ∧
      members.get? "properties" = some (.map (properties.map fun p => (.text p.1, p.2))) ∧
      (∀ p ∈ properties, p.2.isMap = true) ∧
      ∃ names, Requires members names ∧ (∀ name ∈ names, name ∈ properties.map (·.1)) ∧
        required = Text.sortedSet names

/-- Shapes other than references and choices ask for a type. -/
theorem kinds (shape : Shape) :
    (∃ target name, shape = .reference target name) ∨ (∃ options, shape = .oneOf options) ∨
      ("type" ∈ shape.allowed ∧ "$ref" ∉ shape.allowed ∧ "oneOf" ∉ shape.allowed) := by
  cases shape <;> simp [allowed]

end Shape

namespace Schema

/-- The members of a schema of the given shape. -/
structure Layout (members : Members) (shape : Shape) : Prop where
  only : Only members shape.allowed
  fits : shape.Fits members

variable {place : Place} {label : String} {members : Members} {allowed : List String}
  {shape : Shape} {name : String}

/-! ## Members that are allowed -/

theorem unexpectedKeys_eq_nil_iff : unexpectedKeys members allowed = [] ↔ Only members allowed := by
  rw [unexpectedKeys, List.filter_eq_nil_iff, List.forall_mem_map]
  refine forall₂_congr fun m _ => ?_
  obtain ⟨key, v⟩ := m
  cases key <;> simp [or_iff_not_imp_left]

theorem expectOnly_eq_ok_iff :
    expectOnly place label members allowed = .ok () ↔ Only members allowed := by
  rw [← unexpectedKeys_eq_nil_iff, expectOnly]
  split
  · simp [*]
  · rename_i keys nonempty
    split <;> simp_all

theorem Only.get?_eq_none (only : Only members allowed) (note : name ∉ annotations)
    (other : name ∉ allowed) : members.get? name = none := by
  have accepted : expectOnly [] "" members allowed = .ok () := expectOnly_eq_ok_iff.mpr only
  exact get?_of_expectOnly accepted note other

theorem Only.has_eq_false (only : Only members allowed) (note : name ∉ annotations)
    (other : name ∉ allowed) : members.has name = false := by
  rw [Members.has, only.get?_eq_none note other]
  rfl

/-- A check of the members and what follows it. -/
theorem expectOnly_bind_eq_ok_iff {rest : Unit → Except Failure Shape} :
    (expectOnly place label members allowed >>= rest) = .ok shape ↔
      Only members allowed ∧ rest () = .ok shape := by
  rw [Except.bind_eq_ok]
  constructor
  · rintro ⟨⟨⟩, only, h⟩
    exact ⟨expectOnly_eq_ok_iff.mp only, h⟩
  · rintro ⟨only, h⟩
    exact ⟨(), expectOnly_eq_ok_iff.mpr only, h⟩

/-! ## What members hold -/

theorem getD_eq_iff {v : Value} (given : v ≠ .null) :
    members.getD name = v ↔ members.get? name = some v := by
  rw [Members.getD]
  cases members.get? name with
  | none => simpa using Ne.symm given
  | some found => simp

theorem text?_getD_eq_some_iff {text : String} :
    (members.getD name).text? = some text ↔
      ∃ found, members.get? name = some found ∧ found.text? = some text := by
  rw [Members.getD]
  cases members.get? name with
  | none => simp [Value.text?]
  | some found => simp

theorem isMap_iff {v : Value} : v.isMap = true ↔ ∃ inner, v = .map inner := by
  cases v <;> simp [Value.isMap]

theorem has_iff : members.has name = true ↔ ∃ found, members.get? name = some found := by
  rw [Members.has, Option.isSome_iff_exists]

theorem allTexts?_eq_some_iff {items : List Value} {texts : List String} :
    allTexts? items = some texts ↔ AreTexts items texts := by
  rw [allTexts?, AreTexts]
  constructor
  · intro h
    induction items generalizing texts with
    | nil =>
      cases h
      exact .nil
    | cons item items ih =>
      rw [List.mapM_cons] at h
      obtain ⟨text, found, h⟩ := Option.bind_eq_some_iff.mp h
      obtain ⟨later, rest, h⟩ := Option.bind_eq_some_iff.mp h
      cases h
      exact .cons found (ih rest)
  · intro h
    induction h with
    | nil => rfl
    | cons found _ ih =>
      rw [List.mapM_cons, found, ih]
      rfl

theorem length_eq_ok_iff {bound : Option Nat} :
    length place members name = .ok bound ↔ Bounds members name bound := by
  unfold length
  constructor
  · intro h
    split at h
    · rename_i absent
      cases h
      exact .absent absent
    · rename_i n found
      split at h
      · cases h
      · rename_i nonneg
        cases h
        refine .given _ ?_
        rw [(getD_eq_iff (by simp)).mp found, Int.toNat_of_nonneg (Int.not_lt.mp nonneg)]
    · cases h
  · intro h
    cases h with
    | absent absent => rw [absent]
    | given n found =>
      rw [(getD_eq_iff (by simp)).mpr found]
      simp

/-! ## The layout of each shape -/

theorem pure_eq_ok_iff {found : Shape} :
    (pure found : Except Failure Shape) = .ok shape ↔ shape = found := by
  constructor
  · intro h
    cases h
    rfl
  · rintro rfl
    rfl

theorem reference_eq_ok_iff :
    reference place members = .ok shape ↔
      ∃ target name, shape = .reference target name ∧ Layout members shape := by
  rw [reference, expectOnly_bind_eq_ok_iff]
  constructor
  · rintro ⟨only, h⟩
    split at h
    · rename_i target found
      obtain ⟨name, parsed, same⟩ := Except.bind_eq_ok.mp h
      cases same
      exact ⟨target, name, rfl, only, text?_getD_eq_some_iff.mp found,
        parseReference_eq_ok_iff.mp parsed⟩
    · cases h
  · rintro ⟨target, name, rfl, only, found, spelled⟩
    refine ⟨only, ?_⟩
    rw [text?_getD_eq_some_iff.mpr found]
    exact Except.bind_eq_ok.mpr ⟨name, parseReference_eq_ok_iff.mpr spelled, rfl⟩

theorem oneOf_eq_ok_iff :
    oneOf place members = .ok shape ↔
      ∃ options, shape = .oneOf options ∧ Layout members shape := by
  rw [oneOf, expectOnly_bind_eq_ok_iff]
  constructor
  · rintro ⟨only, h⟩
    split at h
    · rename_i first rest found
      cases h
      exact ⟨_, rfl, only, found, List.cons_ne_nil first rest⟩
    · cases h
  · rintro ⟨options, rfl, only, found, nonempty⟩
    obtain ⟨first, rest, rfl⟩ := List.exists_cons_of_ne_nil nonempty
    refine ⟨only, ?_⟩
    rw [found]
    rfl

/-- A shape that is decided by the type alone. -/
theorem plain_eq_ok_iff {plain : Shape} (fits : plain.Fits members) :
    (expectOnly place label members plain.allowed >>= fun _ => pure plain) = .ok shape ↔
      shape = plain ∧ Layout members shape := by
  rw [expectOnly_bind_eq_ok_iff]
  constructor
  · rintro ⟨only, h⟩
    cases h
    exact ⟨rfl, only, fits⟩
  · rintro ⟨rfl, layout⟩
    exact ⟨layout.only, rfl⟩

theorem enumeration_eq_ok_iff (type : members.get? "type" = some (.text "string")) :
    enumeration place members = .ok shape ↔
      ∃ values, shape = .enumeration values ∧ Layout members shape := by
  rw [enumeration, expectOnly_bind_eq_ok_iff]
  constructor
  · rintro ⟨only, h⟩
    split at h
    · rename_i first rest found
      split at h
      · rename_i values texts
        split at h
        · rename_i different
          cases h
          have are := allTexts?_eq_some_iff.mp texts
          refine ⟨values, rfl, only, type, ⟨_, found, are⟩, ?_,
            Code.length_eraseDups_eq_iff.mp (by simpa using different)⟩
          rintro rfl
          cases are
        · cases h
      · cases h
    · cases h
  · rintro ⟨values, rfl, only, -, ⟨items, found, are⟩, nonempty, nodup⟩
    refine ⟨only, ?_⟩
    cases are with
    | nil => exact absurd rfl nonempty
    | @cons first text rest texts own later =>
      rw [found]
      dsimp only
      rw [allTexts?_eq_some_iff.mpr (.cons own later)]
      simp only [Code.length_eraseDups_eq_iff.mpr nodup, beq_self_eq_true, if_true]
      rfl

theorem withinLimits_eq_ok_iff {lower upper : Option Nat} {email : Bool} :
    (do
      if upper == some 0 then throw (.shape place .zeroMaxLength)
      let lower := if lower == some 0 then none else lower
      match lower, upper with
      | some minimum, some maximum =>
        if maximum < minimum then throw (.shape place (.crossedLengths minimum maximum))
        else return .text ⟨lower, upper, email⟩
      | _, _ => return .text ⟨lower, upper, email⟩ : Except Failure Shape) = .ok shape ↔
      shape = .text ⟨lower.filter (· != 0), upper, email⟩ ∧ upper ≠ some 0 ∧
        ∀ minimum ∈ lower.filter (· != 0), ∀ maximum ∈ upper, minimum ≤ maximum := by
  have kept : (if lower == some 0 then none else lower) = lower.filter (· != 0) := by
    rcases lower with _ | _ | n <;> rfl
  simp only [kept]
  by_cases zero : upper = some 0
  · subst zero
    simp [Except.error_bind, throw, throwThe, MonadExceptOf.throw]
  · simp only [beq_iff_eq, zero, if_false]
    cases lower.filter (· != 0) with
    | none => simp [zero, pure_eq_ok_iff]
    | some minimum =>
      cases upper with
      | none => simp [pure_eq_ok_iff]
      | some maximum =>
        by_cases crossed : maximum < minimum
        · simp [crossed, Nat.not_le.mpr crossed, throw, throwThe, MonadExceptOf.throw]
        · simpa [crossed, Nat.not_lt.mp crossed, pure_eq_ok_iff] using fun _ => zero

theorem boundedText_eq_ok_iff {email : Bool} (type : members.get? "type" = some (.text "string"))
    (asks : AsksEmail members email) :
    boundedText place members email = .ok shape ↔
      ∃ limits, shape = .text limits ∧ limits.email = email ∧ Layout members shape := by
  rw [boundedText, expectOnly_bind_eq_ok_iff]
  constructor
  · rintro ⟨only, h⟩
    obtain ⟨lower, hl, h⟩ := Except.bind_eq_ok.mp h
    obtain ⟨upper, hu, h⟩ := Except.bind_eq_ok.mp h
    obtain ⟨rfl, positive, ordered⟩ := withinLimits_eq_ok_iff.mp h
    exact ⟨_, rfl, rfl, only, type, asks, lower, length_eq_ok_iff.mp hl, length_eq_ok_iff.mp hu,
      rfl, positive, ordered⟩
  · rintro ⟨⟨minLength, maxLength, email'⟩, rfl, rfl, only, -, -, lower, hl, hu, same, positive,
      ordered⟩
    obtain rfl : minLength = lower.filter (· != 0) := same
    refine ⟨only, Except.bind_eq_ok.mpr ⟨lower, length_eq_ok_iff.mpr hl,
      Except.bind_eq_ok.mpr ⟨maxLength, length_eq_ok_iff.mpr hu, ?_⟩⟩⟩
    exact withinLimits_eq_ok_iff.mpr ⟨rfl, positive, ordered⟩

theorem array_eq_ok_iff (type : members.get? "type" = some (.text "array")) :
    array place members = .ok shape ↔
      ∃ items, shape = .array items ∧ Layout members shape := by
  rw [array, expectOnly_bind_eq_ok_iff]
  constructor
  · rintro ⟨only, h⟩
    split at h
    · rename_i items found
      cases h
      exact ⟨_, rfl, only, type, found, rfl⟩
    · cases h
  · rintro ⟨items, rfl, only, -, found, isMap⟩
    refine ⟨only, ?_⟩
    obtain ⟨inner, rfl⟩ := isMap_iff.mp isMap
    rw [found]
    rfl

theorem map_eq_ok_iff (type : members.get? "type" = some (.text "object")) :
    map place members = .ok shape ↔ ∃ values, shape = .map values ∧ Layout members shape := by
  rw [map, expectOnly_bind_eq_ok_iff]
  constructor
  · rintro ⟨only, h⟩
    split at h
    · rename_i values found
      cases h
      exact ⟨_, rfl, only, type, found, rfl⟩
    · cases h
    · cases h
  · rintro ⟨values, rfl, only, -, found, isMap⟩
    refine ⟨only, ?_⟩
    obtain ⟨inner, rfl⟩ := isMap_iff.mp isMap
    rw [found]
    rfl

theorem properties?_eq_some_iff {v : Value} {properties : List (String × Value)} :
    properties? v = some properties ↔
      v = .map (properties.map fun p => (.text p.1, p.2)) ∧ ∀ p ∈ properties, p.2.isMap = true := by
  constructor
  · intro h
    unfold properties? at h
    split at h
    · rename_i members
      induction members generalizing properties with
      | nil =>
        cases h
        exact ⟨rfl, List.forall_mem_nil _⟩
      | cons m members ih =>
        rw [List.mapM_cons] at h
        obtain ⟨p, own, h⟩ := Option.bind_eq_some_iff.mp h
        obtain ⟨later, rest, h⟩ := Option.bind_eq_some_iff.mp h
        cases h
        obtain ⟨same, maps⟩ := ih rest
        obtain ⟨key, v⟩ := m
        split at own
        · rename_i name schema key_ value_
          cases own
          simp only at key_ value_
          subst key_ value_
          cases same
          exact ⟨rfl, List.forall_mem_cons.mpr ⟨rfl, maps⟩⟩
        · cases own
    · cases h
  · rintro ⟨rfl, maps⟩
    rw [properties?]
    induction properties with
    | nil => rfl
    | cons p later ih =>
      obtain ⟨name, v⟩ := p
      obtain ⟨own, rest⟩ := List.forall_mem_cons.mp maps
      obtain ⟨inner, rfl⟩ := isMap_iff.mp own
      rw [List.map_cons, List.mapM_cons, ih rest]
      rfl

theorem requiredNames?_eq_some_iff {names : List String} :
    requiredNames? (members.get? "required") = some names ↔ Requires members names := by
  constructor
  · intro h
    unfold requiredNames? at h
    split at h
    · rename_i absent
      cases h
      exact .absent absent
    · rename_i items found
      exact .listed found (allTexts?_eq_some_iff.mp h)
    · cases h
  · intro h
    cases h with
    | absent absent => rw [absent, requiredNames?]
    | listed found texts => rw [found, requiredNames?, allTexts?_eq_some_iff.mpr texts]

theorem object_eq_ok_iff (type : members.get? "type" = some (.text "object")) :
    object place members = .ok shape ↔
      ∃ properties required, shape = .object properties required ∧ Layout members shape := by
  rw [object, expectOnly_bind_eq_ok_iff]
  constructor
  · rintro ⟨only, h⟩
    split at h
    · cases h
    · rename_i properties listed
      obtain ⟨found, maps⟩ := properties?_eq_some_iff.mp listed
      split at h
      · cases h
      · rename_i names required
        split at h
        · rename_i declared
          cases h
          refine ⟨_, _, rfl, only, type, (getD_eq_iff (by simp)).mp found, maps, names,
            requiredNames?_eq_some_iff.mp required, ?_, rfl⟩
          simpa [List.filter_eq_nil_iff] using declared
        · cases h
  · rintro ⟨properties, required, rfl, only, -, found, maps, names, requires, declared, rfl⟩
    refine ⟨only, ?_⟩
    have none_ : names.filter (fun name => !(properties.map (·.1)).contains name) = [] := by
      simpa [List.filter_eq_nil_iff] using declared
    rw [(getD_eq_iff (by simp)).mpr found, properties?_eq_some_iff.mpr ⟨rfl, maps⟩,
      requiredNames?_eq_some_iff.mpr requires]
    simp only [none_]
    rfl

theorem text_eq_ok_iff (type : members.get? "type" = some (.text "string")) :
    text place members = .ok shape ↔
      ((∃ limits, shape = .text limits) ∨ shape = .date ∨ shape = .dateTime) ∧
        Layout members shape := by
  constructor
  · intro h
    unfold text at h
    split at h
    · rename_i absent
      obtain ⟨limits, rfl, -, layout⟩ := (boundedText_eq_ok_iff type (.no absent)).mp h
      exact ⟨.inl ⟨limits, rfl⟩, layout⟩
    · rename_i found
      have asks := AsksEmail.yes ((getD_eq_iff (by simp)).mp found)
      obtain ⟨limits, rfl, -, layout⟩ := (boundedText_eq_ok_iff type asks).mp h
      exact ⟨.inl ⟨limits, rfl⟩, layout⟩
    · rename_i found
      have fits : Shape.date.Fits members := ⟨type, (getD_eq_iff (by simp)).mp found⟩
      obtain ⟨rfl, layout⟩ := (plain_eq_ok_iff fits).mp h
      exact ⟨.inr (.inl rfl), layout⟩
    · rename_i found
      have fits : Shape.dateTime.Fits members := ⟨type, (getD_eq_iff (by simp)).mp found⟩
      obtain ⟨rfl, layout⟩ := (plain_eq_ok_iff fits).mp h
      exact ⟨.inr (.inr rfl), layout⟩
    · cases h
  · rintro ⟨⟨limits, rfl⟩ | rfl | rfl, layout⟩
    · have asks := layout.fits.2.1
      have bounded : boundedText place members limits.email = .ok (.text limits) :=
        (boundedText_eq_ok_iff type asks).mpr ⟨limits, rfl, rfl, layout⟩
      unfold text
      cases email : limits.email with
      | false =>
        rw [email] at asks bounded
        cases asks with
        | no absent =>
          rw [absent]
          exact bounded
      | true =>
        rw [email] at asks bounded
        cases asks with
        | yes found =>
          rw [(getD_eq_iff (by simp)).mpr found]
          exact bounded
    · rw [text, (getD_eq_iff (by simp)).mpr layout.fits.2]
      exact (plain_eq_ok_iff layout.fits).mpr ⟨rfl, layout⟩
    · rw [text, (getD_eq_iff (by simp)).mpr layout.fits.2]
      exact (plain_eq_ok_iff layout.fits).mpr ⟨rfl, layout⟩

/-! ## The layout that a schema has -/

theorem not_annotation_of_unsupported (h : name ∈ unsupported) : name ∉ annotations := by
  intro note
  fin_cases h <;> simp [annotations] at note

theorem not_allowed_of_unsupported (h : name ∈ unsupported) : name ∉ shape.allowed := by
  intro other
  cases shape <;> fin_cases h <;> simp [Shape.allowed] at other

theorem layout_of_typed (h : typed place members = .ok shape) : Layout members shape := by
  unfold typed at h
  split at h
  · rename_i found
    have type := (getD_eq_iff (by simp)).mp found
    split at h
    · obtain ⟨_, -, layout⟩ := (enumeration_eq_ok_iff type).mp h
      exact layout
    · exact ((text_eq_ok_iff type).mp h).2
  · rename_i found
    have fits : Shape.boolean.Fits members := (getD_eq_iff (by simp)).mp found
    exact ((plain_eq_ok_iff fits).mp h).2
  · rename_i found
    have fits : (Shape.number false).Fits members := (getD_eq_iff (by simp)).mp found
    exact ((plain_eq_ok_iff fits).mp h).2
  · rename_i found
    have fits : (Shape.number true).Fits members := (getD_eq_iff (by simp)).mp found
    exact ((plain_eq_ok_iff fits).mp h).2
  · rename_i found
    obtain ⟨_, -, layout⟩ := (array_eq_ok_iff ((getD_eq_iff (by simp)).mp found)).mp h
    exact layout
  · rename_i found
    have type := (getD_eq_iff (by simp)).mp found
    split at h
    · obtain ⟨_, _, -, layout⟩ := (object_eq_ok_iff type).mp h
      exact layout
    · obtain ⟨_, -, layout⟩ := (map_eq_ok_iff type).mp h
      exact layout
  · cases h
  · cases h

theorem typed_of_layout (layout : Layout members shape) (typed_ : "type" ∈ shape.allowed) :
    typed place members = .ok shape := by
  have type {kind : String} (h : members.get? "type" = some (.text kind)) :
      members.getD "type" = .text kind := (getD_eq_iff (by simp)).mpr h
  have fits := layout.fits
  unfold typed
  cases shape with
  | reference _ _ => simp [Shape.allowed] at typed_
  | oneOf _ => simp [Shape.allowed] at typed_
  | boolean =>
    rw [type fits]
    exact (plain_eq_ok_iff fits).mpr ⟨rfl, layout⟩
  | number integer =>
    rw [type fits]
    cases integer
    · exact (plain_eq_ok_iff fits).mpr ⟨rfl, layout⟩
    · exact (plain_eq_ok_iff fits).mpr ⟨rfl, layout⟩
  | text limits =>
    rw [type fits.1]
    have noEnum : members.has "enum" = false :=
      layout.only.has_eq_false (by decide) (by simp [Shape.allowed])
    simp only [noEnum]
    exact (text_eq_ok_iff fits.1).mpr ⟨.inl ⟨limits, rfl⟩, layout⟩
  | date =>
    rw [type fits.1]
    have noEnum : members.has "enum" = false :=
      layout.only.has_eq_false (by decide) (by simp [Shape.allowed])
    simp only [noEnum]
    exact (text_eq_ok_iff fits.1).mpr ⟨.inr (.inl rfl), layout⟩
  | dateTime =>
    rw [type fits.1]
    have noEnum : members.has "enum" = false :=
      layout.only.has_eq_false (by decide) (by simp [Shape.allowed])
    simp only [noEnum]
    exact (text_eq_ok_iff fits.1).mpr ⟨.inr (.inr rfl), layout⟩
  | enumeration values =>
    obtain ⟨items, found, -⟩ := fits.2.1
    rw [type fits.1]
    simp only [has_iff.mpr ⟨_, found⟩, if_true]
    exact (enumeration_eq_ok_iff fits.1).mpr ⟨values, rfl, layout⟩
  | map values =>
    rw [type fits.1]
    have noProperties : members.has "properties" = false :=
      layout.only.has_eq_false (by decide) (by simp [Shape.allowed])
    simp only [noProperties]
    exact (map_eq_ok_iff fits.1).mpr ⟨values, rfl, layout⟩
  | array items =>
    rw [type fits.1]
    exact (array_eq_ok_iff fits.1).mpr ⟨items, rfl, layout⟩
  | object properties required =>
    rw [type fits.1]
    simp only [has_iff.mpr ⟨_, fits.2.1⟩, if_true]
    exact (object_eq_ok_iff fits.1).mpr ⟨properties, required, rfl, layout⟩

/-- A schema has a shape exactly if it has the layout of the shape. -/
theorem ofMembers_eq_ok_iff : ofMembers place members = .ok shape ↔ Layout members shape := by
  constructor
  · intro h
    unfold ofMembers at h
    split at h
    · obtain ⟨_, _, -, layout⟩ := reference_eq_ok_iff.mp h
      exact layout
    · split at h
      · cases h
      · split at h
        · obtain ⟨_, -, layout⟩ := oneOf_eq_ok_iff.mp h
          exact layout
        · exact layout_of_typed h
  · intro layout
    -- what another branch looks for is no member that the layout allows
    have absent : ∀ name, name ∉ annotations → name ∉ shape.allowed → members.has name = false :=
      fun name note other => layout.only.has_eq_false note other
    have supported : unsupported.find? members.has = none :=
      List.find?_eq_none.mpr fun name hn => by
        simp [absent name (not_annotation_of_unsupported hn) (not_allowed_of_unsupported hn)]
    unfold ofMembers
    rcases shape.kinds with ⟨target, name, rfl⟩ | ⟨options, rfl⟩ | ⟨type, noReference, noOptions⟩
    · obtain ⟨⟨found, there, -⟩, -⟩ := layout.fits
      rw [if_pos (has_iff.mpr ⟨found, there⟩)]
      exact reference_eq_ok_iff.mpr ⟨target, name, rfl, layout⟩
    · have there : members.has "oneOf" = true := has_iff.mpr ⟨_, layout.fits.1⟩
      simp only [absent "$ref" (by decide) (by simp [Shape.allowed]), supported, there, if_true]
      exact oneOf_eq_ok_iff.mpr ⟨options, rfl, layout⟩
    · simp only [absent "$ref" (by decide) noReference, supported,
        absent "oneOf" (by decide) noOptions]
      exact typed_of_layout layout type

theorem classify_eq_ok_iff {v : Value} :
    classify place v = .ok shape ↔ ∃ members, v = .map members ∧ Layout members shape := by
  constructor
  · intro h
    unfold classify at h
    split at h
    · exact ⟨_, rfl, ofMembers_eq_ok_iff.mp h⟩
    · cases h
  · rintro ⟨members, rfl, layout⟩
    exact ofMembers_eq_ok_iff.mpr layout

end Schema
end TypedApi
