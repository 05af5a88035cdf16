import TypedApi.Proofs.Code.MemberKeys
import TypedApi.Proofs.Output.Model

/-! # The names of properties in model files

A property stands in the type, the printer and the validator of its component under the key that is
written for its name, and the code reads it from an object by the access that is written for it.
All of them stand for exactly the name, and different properties for different names, unless the
name is an identifier with a line feed behind it, which is written as the identifier alone
(`keysExact_iff`).
-/
namespace TypedApi.Model
open Text (utf16)
open Code (denoted isIdentifier keyName? memberName? typeMemberName? accessedName? memberKey
  memberAccess)

/-! ## The lines of a property -/

/-- The lines of a property show the given name: the type in its last line, behind the comment. -/
structure Shows (name : String) (lines : PropertyLines) : Prop where
  type : lines.type.getLast?.bind typeMemberName? = some (utf16 name.toList)
  printer : memberName? lines.printer = some (utf16 name.toList)
  validator : memberName? lines.validator = some (utf16 name.toList)

section Lines
variable {registry : Registry} {name : String} {required : List String}

/-- What is written for a property shows the denoted name. -/
theorem shows_denoted {property : String × Value} {lines : PropertyLines}
    (h : (propertyLines registry name required property).result = .ok lines) :
    Shows (denoted property.1) lines := by
  obtain ⟨key, schema⟩ := property
  unfold propertyLines at h
  obtain ⟨slot, -, h⟩ := Noted.bind_eq_ok.mp h
  obtain ⟨comment, -, h⟩ := Noted.bind_eq_ok.mp h
  obtain ⟨printed, -, h⟩ := Noted.bind_eq_ok.mp h
  obtain ⟨checked, -, h⟩ := Noted.bind_eq_ok.mp h
  cases h
  refine ⟨?_, ?_, ?_⟩
  · rw [List.getLast?_concat, Option.bind_some, @String.append_assoc _ slot.typeName ";"]
    exact Code.typeMemberName?_line key _ _
  · rw [@String.append_assoc _ printed ","]
    exact Code.memberName?_line key _
  · rw [@String.append_assoc _ checked ","]
    exact Code.memberName?_line key _

theorem shows_all {properties : List (String × Value)} {own : List PropertyLines}
    (h : (allPropertyLines registry name required properties).result = .ok own) :
    List.Forall₂ (fun property lines => Shows (denoted property.1) lines) properties own := by
  induction properties generalizing own with
  | nil =>
    cases h
    exact .nil
  | cons property rest ih =>
    rw [allPropertyLines] at h
    obtain ⟨first, hf, h⟩ := Noted.bind_eq_ok.mp h
    obtain ⟨later, hl, h⟩ := Noted.bind_eq_ok.mp h
    cases h
    exact .cons (shows_denoted hf) (ih hl)

/-- The lines of an object hold those of its properties. -/
theorem objectLines_own {properties : List (String × Value)}
    {description : Except Failure (List String)} {lines : List String}
    (h : (objectLines registry name properties required description).result = .ok lines) :
    ∃ own, (allPropertyLines registry name required properties).result = .ok own ∧
      ∀ property ∈ own, property.type ⊆ lines ∧ property.printer ∈ lines ∧
        property.validator ∈ lines := by
  unfold objectLines at h
  obtain ⟨_, -, h⟩ := Noted.bind_eq_ok.mp h
  obtain ⟨own, ho, h⟩ := Noted.bind_eq_ok.mp h
  obtain ⟨text, -, h⟩ := Noted.bind_eq_ok.mp h
  cases h
  refine ⟨own, ho, fun property hp => ?_⟩
  have some_ : own.isEmpty = false := by
    cases own with
    | nil => cases hp
    | cons => rfl
  refine ⟨fun line hl => ?_, ?_, ?_⟩
  · have inside : line ∈ own.flatMap (·.type) := List.mem_flatMap.mpr ⟨property, hp, hl⟩
    simp [some_, inside]
  · have inside : property.printer ∈ own.map (·.printer) := List.mem_map_of_mem hp
    simp [inside]
  · have inside : property.validator ∈ own.map (·.validator) := List.mem_map_of_mem hp
    simp [inside]

end Lines

/-! ## Names that survive -/

/-- The code of an object keeps the names of its properties. -/
structure KeysExact (properties : List (String × Value)) (own : List PropertyLines) : Prop where
  /-- Every property shows its name in the type, the printer and the validator. -/
  shown : List.Forall₂ (fun property lines => Shows property.1 lines) properties own
  key : ∀ property ∈ properties,
    keyName? (memberKey property.1) = some (utf16 property.1.toList)
  access : ∀ property ∈ properties, ∀ target,
    accessedName? target (memberAccess target property.1) = some (utf16 property.1.toList)
  distinct : ∀ property ∈ properties, ∀ other ∈ properties, property.1 ≠ other.1 →
    keyName? (memberKey property.1) ≠ keyName? (memberKey other.1)

theorem keysExact_of_denoted {properties : List (String × Value)} {own : List PropertyLines}
    (shown : List.Forall₂ (fun property lines => Shows (denoted property.1) lines) properties own)
    (kept : ∀ property ∈ properties, denoted property.1 = property.1) :
    KeysExact properties own := by
  have key (property : String × Value) (hp : property ∈ properties) :
      keyName? (memberKey property.1) = some (utf16 property.1.toList) := by
    rw [Code.keyName?_memberKey, kept property hp]
  refine ⟨?_, key, fun property hp target => ?_, fun property hp other ho differ same => ?_⟩
  · clear key
    induction shown with
    | nil => exact .nil
    | cons own _ ih =>
      obtain ⟨first, later⟩ := List.forall_mem_cons.mp kept
      rw [first] at own
      exact .cons own (ih later)
  · rw [Code.accessedName?_memberAccess, kept property hp]
  · rw [key property hp, key other ho, Option.some.injEq] at same
    exact differ (String.toList_inj.mp (Text.utf16_injective same))

section Emitted
variable {registry : Registry} {raw : String} {name : Identifier} {schema : Value}
variable {emitted : Code.SourceFile} {properties : List (String × Value)} {required : List String}

/-- **Which names survive.**  The file of an object keeps the names of its properties exactly if
none of them is an identifier with a line feed behind it. -/
theorem keysExact_iff (h : file registry raw schema = .ok emitted)
    (named : Identifier.ofHumped raw = .ok name)
    (shaped : classify [name.upperCamel] schema = .ok (.object properties required)) :
    ∃ lines own, emitted.Holds ("model/" ++ name.kebab ++ ".ts") lines ∧
      (allPropertyLines registry name.upperCamel required properties).result = .ok own ∧
      (∀ property ∈ own, property.type ⊆ lines ∧ property.printer ∈ lines ∧
        property.validator ∈ lines) ∧
      (KeysExact properties own ↔
        ∀ property ∈ properties,
          ¬(isIdentifier property.1 = true ∧ '\n' ∈ property.1.toList)) := by
  obtain ⟨name', named', h⟩ := Except.bind_eq_ok.mp h
  obtain rfl := Except.ok.inj (named'.symm.trans named)
  obtain ⟨lines, hl, h⟩ := Except.bind_eq_ok.mp h
  rcases lines_eq_ok hl with ⟨_, _, other, -⟩ | ⟨_, _, text, same, ho, -⟩
  · rw [shaped] at other
    cases other
  · rw [shaped] at same
    cases same
    obtain ⟨own, hown, inside⟩ := objectLines_own ho
    have shown := shows_all hown
    refine ⟨lines, own, ?_, hown, inside, fun exact_ property hp => ?_, fun plain => ?_⟩
    · cases h
      exact ⟨_, rfl⟩
    · have key := exact_.key property hp
      rw [Code.keyName?_memberKey, Option.some.injEq] at key
      exact Code.denoted_eq_iff.mp (String.toList_inj.mp (Text.utf16_injective key))
    · exact keysExact_of_denoted shown fun property hp =>
        Code.denoted_eq_iff.mpr (plain property hp)

/-- Properties with the given names, all of them texts. -/
def texts (names : List String) : List (String × Value) :=
  names.map fun n => (n, .map [(.text "type", .text "string")])

/-- An object with the given properties. -/
def objectWith (properties : List (String × Value)) : Value :=
  .map [(.text "type", .text "object"),
    (.text "properties", .map (properties.map fun property => (.text property.1, property.2)))]

/-- Names are kept that start with a digit, are empty, go beyond ASCII or are a line feed. -/
theorem keysExact_iff_quoted :
    ∃ emitted lines own,
      file ⟨[("Counter", .object)]⟩ "Counter" (objectWith (texts ["id", "2nd", "", "\n", "ï🙂"])) =
        .ok emitted ∧
      emitted.Holds "model/counter.ts" lines ∧
      (∀ property ∈ own, property.type ⊆ lines ∧ property.printer ∈ lines ∧
        property.validator ∈ lines) ∧
      KeysExact (texts ["id", "2nd", "", "\n", "ï🙂"]) own := by
  have named : Identifier.ofHumped "Counter" =
      .ok ⟨"counter", "Counter", "Counter", "counter"⟩ :=
    Except.eq_ok_of_toOption (by decide +kernel)
  obtain ⟨emitted, h⟩ := Except.exists_of_isOk (show (file ⟨[("Counter", .object)]⟩ "Counter"
    (objectWith (texts ["id", "2nd", "", "\n", "ï🙂"]))).isOk = true by decide +kernel)
  have shaped : classify ["Counter"] (objectWith (texts ["id", "2nd", "", "\n", "ï🙂"])) =
      .ok (.object (texts ["id", "2nd", "", "\n", "ï🙂"]) []) := by rfl
  obtain ⟨lines, own, holds, -, inside, iff⟩ := keysExact_iff h named shaped
  exact ⟨emitted, lines, own, h, holds, inside, iff.mpr (by decide +kernel)⟩

/-- Two names of which one is the other with a line feed behind it: both are written bare, so that
the code knows one name only. -/
theorem not_keysExact_lineFeed :
    ∃ emitted, file ⟨[("W", .object)]⟩ "W" (objectWith (texts ["a", "a\n"])) = .ok emitted ∧
      keyName? (memberKey "a\n") = keyName? (memberKey "a") ∧
      ∀ own, ¬KeysExact (texts ["a", "a\n"]) own := by
  obtain ⟨emitted, h⟩ := Except.exists_of_isOk (show
    (file ⟨[("W", .object)]⟩ "W" (objectWith (texts ["a", "a\n"]))).isOk = true by decide +kernel)
  have same : keyName? (memberKey "a\n") = keyName? (memberKey "a") := by decide +kernel
  have listed : ∀ n ∈ ["a", "a\n"],
      (n, .map [(.text "type", .text "string")]) ∈ texts ["a", "a\n"] := by simp [texts]
  exact ⟨emitted, h, same, fun own exact_ => exact_.distinct _ (listed "a\n" (by simp)) _
    (listed "a" (by simp)) (by decide) same⟩

end Emitted
end TypedApi.Model
