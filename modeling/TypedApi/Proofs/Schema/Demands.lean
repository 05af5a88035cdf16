import TypedApi.Proofs.Schema.Layout

/-! # What a shape keeps of a schema

The shape of a schema keeps all that the schema demands (`classify_exact`): two schemas of one shape
have the same members, annotations aside, up to members that demand nothing (`DemandsNothing`) and
the order of the required names.  This is about schemas that JSON can write; a document in YAML has
a second way to write some texts.
-/
namespace TypedApi

/-! ## Values of JSON -/

/-- A scalar that JSON can write. -/
def Scalar.isJson : Scalar → Bool
  | .null | .bool _ | .int _ | .float _ | .text _ => true
  | _ => false

/-- A text. -/
def Scalar.isText : Scalar → Bool
  | .text _ => true
  | _ => false

mutual

/-- A value that JSON can write: lists and objects over its scalars, the keys of objects being
texts. -/
def Value.isJson : Value → Bool
  | .scalar s => s.isJson
  | .list items => Value.itemsJson items
  | .map members => Value.membersJson members
  | _ => false

/-- JSON can write all of some values. -/
def Value.itemsJson : List Value → Bool
  | [] => true
  | v :: rest => v.isJson && Value.itemsJson rest

/-- JSON can write all of some members. -/
def Value.membersJson : List (Scalar × Value) → Bool
  | [] => true
  | (key, v) :: rest => key.isText && v.isJson && Value.membersJson rest

end

namespace Schema

variable {members others : Members} {shape : Shape} {name : String}

/-! ## Demands -/

/-- A member that demands nothing, or none: a format or a bound that is null, a lower bound of zero,
an empty list of required names. -/
inductive DemandsNothing : String → Option Value → Prop
  | absent {key : String} : DemandsNothing key none
  | null {key : String} :
      key ∈ ["format", "minLength", "maxLength"] → DemandsNothing key (some .null)
  | zero : DemandsNothing "minLength" (some (.int 0))
  | unrequired : DemandsNothing "required" (some (.list []))

/-- Members of one name that demand the same: they are equal, neither demands anything, or they list
the same required names. -/
inductive SameDemand : String → Option Value → Option Value → Prop
  | same {key : String} (found : Option Value) : SameDemand key found found
  | nothing {key : String} {found other : Option Value} :
      DemandsNothing key found → DemandsNothing key other → SameDemand key found other
  | required {names names' : List String} : (∀ name, name ∈ names ↔ name ∈ names') →
      SameDemand "required" (some (.list (names.map .text))) (some (.list (names'.map .text)))

theorem SameDemand.of_eq_some {v : Value} (h : members.get? name = some v)
    (h' : others.get? name = some v) :
    SameDemand name (members.get? name) (others.get? name) := by
  rw [h, h']
  exact .same _

theorem isJson_of_get? (json : Value.membersJson members = true) {v : Value}
    (h : members.get? name = some v) : v.isJson = true := by
  induction members with
  | nil => cases h
  | cons m rest ih =>
    obtain ⟨key, w⟩ := m
    rw [Value.membersJson, Bool.and_eq_true, Bool.and_eq_true] at json
    rw [Members.get?] at h
    split at h
    · cases h
      exact json.1.2
    · exact ih json.2 h

/-- JSON has one way to write a text. -/
theorem eq_text_of_text? {v : Value} {text : String} (json : v.isJson = true)
    (h : v.text? = some text) : v = .text text := by
  unfold Value.text? at h
  split at h
  · cases h
    rfl
  · cases json
  · cases h

theorem AreTexts.eq_map {items : List Value} {texts : List String} (h : AreTexts items texts)
    (json : Value.itemsJson items = true) : items = texts.map .text := by
  induction h with
  | nil => rfl
  | cons own _ ih =>
    rw [Value.itemsJson, Bool.and_eq_true] at json
    rw [List.map_cons, eq_text_of_text? json.1 own, ih json.2]

theorem demandsNothing_of_getD (optional : name ∈ ["format", "minLength", "maxLength"])
    (h : members.getD name = .null) : DemandsNothing name (members.get? name) := by
  rw [Members.getD] at h
  cases found : members.get? name with
  | none => exact .absent
  | some v =>
    rw [found] at h
    cases h
    exact .null optional

theorem AsksEmail.sameDemand {email : Bool} (h : AsksEmail members email)
    (h' : AsksEmail others email) :
    SameDemand "format" (members.get? "format") (others.get? "format") := by
  cases h with
  | no absent =>
    cases h' with
    | no absent' =>
      exact .nothing (demandsNothing_of_getD (by decide) absent)
        (demandsNothing_of_getD (by decide) absent')
  | yes found =>
    cases h' with
    | yes found' => exact .of_eq_some found found'

theorem Bounds.sameDemand (optional : name ∈ ["format", "minLength", "maxLength"])
    {bound : Option Nat} (h : Bounds members name bound) (h' : Bounds others name bound) :
    SameDemand name (members.get? name) (others.get? name) := by
  cases h with
  | absent absent =>
    cases h' with
    | absent absent' =>
      exact .nothing (demandsNothing_of_getD optional absent)
        (demandsNothing_of_getD optional absent')
  | given n found =>
    cases h' with
    | given _ found' => exact .of_eq_some found found'

/-- A lower bound that leaves every length demands nothing. -/
theorem Bounds.demandsNothing {bound : Option Nat} (h : Bounds members "minLength" bound)
    (none_ : bound.filter (· != 0) = none) :
    DemandsNothing "minLength" (members.get? "minLength") := by
  cases h with
  | absent absent => exact demandsNothing_of_getD (by decide) absent
  | given n found =>
    obtain rfl : n = 0 := by simpa [Option.filter] using none_
    rw [found]
    exact .zero

theorem Bounds.sameDemand_of_filter {lower lower' : Option Nat}
    (h : Bounds members "minLength" lower) (h' : Bounds others "minLength" lower')
    (same : lower.filter (· != 0) = lower'.filter (· != 0)) :
    SameDemand "minLength" (members.get? "minLength") (others.get? "minLength") := by
  cases kept : lower.filter (· != 0) with
  | none => exact .nothing (h.demandsNothing kept) (h'.demandsNothing (same ▸ kept))
  | some n =>
    obtain ⟨rfl, -⟩ := Option.filter_eq_some_iff.mp kept
    obtain ⟨rfl, -⟩ := Option.filter_eq_some_iff.mp (same ▸ kept)
    exact h.sameDemand (by decide) h'

theorem Requires.demandsNothing (h : Requires members []) :
    DemandsNothing "required" (members.get? "required") := by
  cases h with
  | absent absent =>
    rw [absent]
    exact .absent
  | listed found texts =>
    cases texts
    rw [found]
    exact .unrequired

theorem Requires.sameDemand {names names' : List String} (h : Requires members names)
    (h' : Requires others names') (json : Value.membersJson members = true)
    (json' : Value.membersJson others = true)
    (same : Text.sortedSet names = Text.sortedSet names') :
    SameDemand "required" (members.get? "required") (others.get? "required") := by
  have both : ∀ name, name ∈ names ↔ name ∈ names' := fun name => by
    rw [← Code.mem_sortedSet, same, Code.mem_sortedSet]
  by_cases empty : names = []
  · subst empty
    obtain rfl : names' = [] :=
      List.eq_nil_iff_forall_not_mem.mpr fun name hn => List.not_mem_nil ((both name).mpr hn)
    exact .nothing h.demandsNothing h'.demandsNothing
  · cases h with
    | absent _ => exact absurd rfl empty
    | listed found texts =>
      cases h' with
      | absent _ =>
        exact absurd (List.eq_nil_iff_forall_not_mem.mpr fun name hn =>
          List.not_mem_nil ((both name).mp hn)) empty
      | listed found' texts' =>
        have written := isJson_of_get? json found
        have written' := isJson_of_get? json' found'
        rw [Value.isJson] at written written'
        rw [found, found', texts.eq_map written, texts'.eq_map written']
        exact .required both

/-- Members that fit one shape demand the same wherever the shape allows a member. -/
theorem sameDemand_of_fits (fits : shape.Fits members) (fits' : shape.Fits others)
    (json : Value.membersJson members = true) (json' : Value.membersJson others = true)
    (inside : name ∈ shape.allowed) :
    SameDemand name (members.get? name) (others.get? name) := by
  cases shape with
  | reference target component =>
    obtain rfl := List.mem_singleton.mp inside
    obtain ⟨⟨v, found, own⟩, -⟩ := fits
    obtain ⟨⟨v', found', own'⟩, -⟩ := fits'
    rw [eq_text_of_text? (isJson_of_get? json found) own] at found
    rw [eq_text_of_text? (isJson_of_get? json' found') own'] at found'
    exact .of_eq_some found found'
  | oneOf options =>
    obtain rfl := List.mem_singleton.mp inside
    exact .of_eq_some fits.1 fits'.1
  | boolean =>
    obtain rfl := List.mem_singleton.mp inside
    exact .of_eq_some fits fits'
  | number integer =>
    obtain rfl := List.mem_singleton.mp inside
    exact .of_eq_some fits fits'
  | text limits =>
    obtain ⟨type, asks, lower, hl, hu, same, -⟩ := fits
    obtain ⟨type', asks', lower', hl', hu', same', -⟩ := fits'
    simp only [Shape.allowed, List.mem_cons, List.not_mem_nil, or_false] at inside
    rcases inside with rfl | rfl | rfl | rfl
    · exact .of_eq_some type type'
    · exact asks.sameDemand asks'
    · exact hl.sameDemand_of_filter hl' (same.symm.trans same')
    · exact hu.sameDemand (by decide) hu'
  | date =>
    simp only [Shape.allowed, List.mem_cons, List.not_mem_nil, or_false] at inside
    rcases inside with rfl | rfl
    · exact .of_eq_some fits.1 fits'.1
    · exact .of_eq_some fits.2 fits'.2
  | dateTime =>
    simp only [Shape.allowed, List.mem_cons, List.not_mem_nil, or_false] at inside
    rcases inside with rfl | rfl
    · exact .of_eq_some fits.1 fits'.1
    · exact .of_eq_some fits.2 fits'.2
  | enumeration values =>
    obtain ⟨type, ⟨items, found, texts⟩, -⟩ := fits
    obtain ⟨type', ⟨items', found', texts'⟩, -⟩ := fits'
    simp only [Shape.allowed, List.mem_cons, List.not_mem_nil, or_false] at inside
    rcases inside with rfl | rfl
    · exact .of_eq_some type type'
    · have written := isJson_of_get? json found
      have written' := isJson_of_get? json' found'
      rw [Value.isJson] at written written'
      rw [texts.eq_map written] at found
      rw [texts'.eq_map written'] at found'
      exact .of_eq_some found found'
  | map values =>
    simp only [Shape.allowed, List.mem_cons, List.not_mem_nil, or_false] at inside
    rcases inside with rfl | rfl
    · exact .of_eq_some fits.1 fits'.1
    · exact .of_eq_some fits.2.1 fits'.2.1
  | array items =>
    simp only [Shape.allowed, List.mem_cons, List.not_mem_nil, or_false] at inside
    rcases inside with rfl | rfl
    · exact .of_eq_some fits.1 fits'.1
    · exact .of_eq_some fits.2.1 fits'.2.1
  | object properties required =>
    obtain ⟨type, found, -, names, requires, -, same⟩ := fits
    obtain ⟨type', found', -, names', requires', -, same'⟩ := fits'
    simp only [Shape.allowed, List.mem_cons, List.not_mem_nil, or_false] at inside
    rcases inside with rfl | rfl | rfl
    · exact .of_eq_some type type'
    · exact .of_eq_some found found'
    · exact requires.sameDemand requires' json json' (same.symm.trans same')

/-- Schemas of one shape demand the same in every member that is no annotation. -/
theorem Layout.sameDemand (layout : Layout members shape) (layout' : Layout others shape)
    (json : Value.membersJson members = true) (json' : Value.membersJson others = true)
    (note : name ∉ annotations) :
    SameDemand name (members.get? name) (others.get? name) := by
  by_cases inside : name ∈ shape.allowed
  · exact sameDemand_of_fits layout.fits layout'.fits json json' inside
  · rw [layout.only.get?_eq_none note inside, layout'.only.get?_eq_none note inside]
    exact .same none

/-- **Classification is exact.**  A value has a shape at a place exactly if it is an object with the
layout of the shape.  And a shape drops nothing: two JSON objects of one shape demand the same in
every member that is no annotation. -/
theorem classify_exact :
    (∀ (place : Place) (v : Value) (shape : Shape),
      classify place v = .ok shape ↔ ∃ members, v = .map members ∧ Layout members shape) ∧
    ∀ (place place' : Place) (members others : Members) (shape : Shape),
      (Value.map members).isJson = true → (Value.map others).isJson = true →
      classify place (.map members) = .ok shape → classify place' (.map others) = .ok shape →
      ∀ key, key ∉ annotations → SameDemand key (members.get? key) (others.get? key) := by
  refine ⟨fun _ _ _ => classify_eq_ok_iff, ?_⟩
  intro place place' members others shape json json' h h' key note
  rw [Value.isJson] at json json'
  obtain ⟨_, same, layout⟩ := classify_eq_ok_iff.mp h
  obtain ⟨_, same', layout'⟩ := classify_eq_ok_iff.mp h'
  cases same
  cases same'
  exact layout.sameDemand layout' json json' note

/-- An object with two properties, both required. -/
def petMembers (required : List String) : Members :=
  [(.text "type", .text "object"),
   (.text "title", .text "A pet"),
   (.text "properties", .map
     [(.text "name", .map [(.text "type", .text "string")]),
      (.text "age", .map [(.text "type", .text "integer")])]),
   (.text "required", .list (required.map .text))]

/-- The order and the repetition of required names do not show in the shape. -/
theorem classify_exact_pet :
    ∃ shape, classify ["Pet"] (.map (petMembers ["name", "age", "name"])) = .ok shape ∧
      classify ["Pet"] (.map (petMembers ["age", "name"])) = .ok shape ∧
      SameDemand "required" (Members.get? "required" (petMembers ["name", "age", "name"]))
        (Members.get? "required" (petMembers ["age", "name"])) := by
  have first : classify ["Pet"] (.map (petMembers ["name", "age", "name"])) =
      .ok (.object [("name", .map [(.text "type", .text "string")]),
        ("age", .map [(.text "type", .text "integer")])] ["age", "name"]) := by rfl
  have second : classify ["Pet"] (.map (petMembers ["age", "name"])) =
      .ok (.object [("name", .map [(.text "type", .text "string")]),
        ("age", .map [(.text "type", .text "integer")])] ["age", "name"]) := by rfl
  exact ⟨_, first, second, classify_exact.2 ["Pet"] ["Pet"] _ _ _ (by decide) (by decide) first
    second "required" (by decide)⟩

end Schema
end TypedApi
