import TypedApi.Proofs.Operation.Parameters
import TypedApi.Proofs.Schema.ParameterText
import TypedApi.Proofs.Schema.Usage

/-! # Lists in path parameters

A list has no written form in a path.  Signatures refuse a path parameter whose schema is a list,
but they look at the schema itself only, and the probe that follows accepts lists.  A list among
the alternatives of a choice therefore gets through.  This is the only gap: the values of a path
parameter are plain values exactly if no alternative of its schema, however deep, is a list, and
that shows in its static type (`Signature.pathParameters_scalar_iff`).
-/
namespace TypedApi
open Noted
open Code (IsWord wordsBefore opens)

/-! ## Plain values -/

namespace Codec

/-- A codec of plain values: of one kind, or of a choice between kinds. -/
inductive Scalar : Codec → Prop
  | boolean : Scalar .boolean
  | number {integer : Bool} : Scalar (.number integer)
  | text {limits : TextLimits} : Scalar (.text limits)
  | date : Scalar .date
  | dateTime : Scalar .dateTime
  | enumeration {name : Identifier} : Scalar (.enumeration name)
  | union {options : List Codec} (h : ∀ option ∈ options, Scalar option) : Scalar (.union options)

/-- A codec that does not look like one of lists, objects or maps. -/
def Plain (codec : Codec) : Prop := (∀ item, codec ≠ .array item) ∧ codec.fault? = none

mutual

/-- The values are plain exactly if no part is a list, an object or a map. -/
theorem scalar_iff : ∀ codec : Codec, codec.Scalar ↔ ∀ part ∈ codec.nodes, Plain part.2
  | .boolean => by simp [nodes, Plain, fault?, Scalar.boolean]
  | .number _ => by simp [nodes, Plain, fault?, Scalar.number]
  | .text _ => by simp [nodes, Plain, fault?, Scalar.text]
  | .date => by simp [nodes, Plain, fault?, Scalar.date]
  | .dateTime => by simp [nodes, Plain, fault?, Scalar.dateTime]
  | .enumeration _ => by simp [nodes, Plain, fault?, Scalar.enumeration]
  | .object name place => by
    refine ⟨(nomatch ·), fun plain => ?_⟩
    cases (plain _ (self_mem_nodes _)).2
  | .map value place => by
    refine ⟨(nomatch ·), fun plain => ?_⟩
    cases (plain _ (self_mem_nodes _)).2
  | .array item => by
    refine ⟨(nomatch ·), fun plain => ?_⟩
    exact absurd rfl ((plain _ (self_mem_nodes _)).1 item)
  | .union options => by
    have own : Plain (.union options) := ⟨fun _ => Codec.noConfusion, rfl⟩
    rw [nodes, List.forall_mem_cons, ← all_scalar_iff options 0]
    constructor
    · intro scalar
      cases scalar with
      | union h => exact ⟨own, h⟩
    · exact fun h => .union h.2

theorem all_scalar_iff : ∀ (options : List Codec) (index : Nat),
    (∀ option ∈ options, option.Scalar) ↔ ∀ part ∈ optionNodes index options, Plain part.2
  | [], _ => by simp [optionNodes]
  | option :: rest, index => by
    rw [List.forall_mem_cons, optionNodes, List.forall_mem_append, List.forall_mem_map,
      option.scalar_iff, all_scalar_iff rest (index + 1)]

end

/-- Some part is a list. -/
def HasArray (parts : List (Place × Codec)) : Prop := ∃ part ∈ parts, ∃ item, part.2 = .array item

theorem hasArray_cons {part : Place × Codec} {parts : List (Place × Codec)} :
    HasArray (part :: parts) ↔ (∃ item, part.2 = .array item) ∨ HasArray parts :=
  List.exists_mem_cons_iff _ _ _

theorem hasArray_append {parts others : List (Place × Codec)} :
    HasArray (parts ++ others) ↔ HasArray parts ∨ HasArray others := by
  simp only [HasArray, List.mem_append, or_and_right, exists_or]

theorem hasArray_map {parts : List (Place × Codec)} {step : String} :
    HasArray (parts.map fun part => (step :: part.1, part.2)) ↔ HasArray parts := by
  constructor
  · rintro ⟨part, hp, array⟩
    obtain ⟨inner, hi, rfl⟩ := List.mem_map.mp hp
    exact ⟨inner, hi, array⟩
  · rintro ⟨part, hp, array⟩
    exact ⟨_, List.mem_map_of_mem hp, array⟩

/-- A single word applies no type, and a codec without parts has it as its type. -/
theorem mem_calls_word {word : String} (h : IsWord word) {codec : Codec}
    (alone : codec.nodes = [([], codec)]) (other : ∀ item, codec ≠ .array item) :
    "ReadonlyArray" ∈ wordsBefore opens word ↔ HasArray codec.nodes := by
  rw [Code.calls_of_isWord h, alone, hasArray_cons]
  simp [HasArray, other]

mutual

/-- The type of lists is applied in a static type exactly if some part is a list. -/
theorem mem_calls_typeName : ∀ codec : Codec, Spelled codec.references →
    ("ReadonlyArray" ∈ wordsBefore opens codec.typeName ↔ HasArray codec.nodes)
  | .boolean, _ => mem_calls_word (show IsWord "boolean" by decide) rfl fun _ => nofun
  | .number _, _ => mem_calls_word (show IsWord "number" by decide) rfl fun _ => nofun
  | .text _, _ => mem_calls_word (show IsWord "string" by decide) rfl fun _ => nofun
  | .date, _ | .dateTime, _ => mem_calls_word (show IsWord "Date" by decide) rfl fun _ => nofun
  | .enumeration _, h | .object _ _, h => mem_calls_word h.word rfl fun _ => nofun
  | .union options, h => by
    show "ReadonlyArray" ∈ wordsBefore opens (" | ".intercalate (typeNames options)) ↔ _
    rw [Code.wordsBefore_intercalate (by decide), mem_calls_typeNames options 0 h, nodes,
      hasArray_cons]
    simp
  | .array item, h => by
    have own : wordsBefore opens "ReadonlyArray<" = ["ReadonlyArray"] := by decide
    show "ReadonlyArray" ∈ wordsBefore opens ("ReadonlyArray<" ++ item.typeName ++ ">") ↔ _
    rw [Code.wordsBefore_append_of_starts (by decide), Code.wordsBefore_append_of_ends (by decide),
      own, nodes, hasArray_cons]
    simp
  | .map value _, h => by
    have own : wordsBefore opens "Readonly<Record<string, " = ["Readonly", "Record"] := by decide
    have close : wordsBefore opens ">>" = [] := by decide
    show "ReadonlyArray" ∈ wordsBefore opens
      ("Readonly<Record<string, " ++ value.typeName ++ ">>") ↔ _
    rw [Code.wordsBefore_append_of_starts (by decide), Code.wordsBefore_append_of_ends (by decide),
      own, close, List.append_nil, List.mem_append, value.mem_calls_typeName h, nodes,
      hasArray_cons, hasArray_map]
    simp

theorem mem_calls_typeNames : ∀ (options : List Codec) (index : Nat),
    Spelled (allReferences options) →
    ("ReadonlyArray" ∈ (typeNames options).flatMap (wordsBefore opens) ↔
      HasArray (optionNodes index options))
  | [], _, _ => by simp [typeNames, optionNodes, HasArray]
  | option :: rest, index, h => by
    show _ ∈ (option.typeName :: typeNames rest).flatMap (wordsBefore opens) ↔ _
    rw [List.flatMap_cons, List.mem_append, option.mem_calls_typeName h.left,
      mem_calls_typeNames rest (index + 1) h.right, optionNodes, hasArray_append, hasArray_map]

end

end Codec

/-! ## Lists among the alternatives -/

/-- No alternative of the schema, however deep, is a list. -/
def Schema.NoListOption (place : Place) (schema : Value) : Prop :=
  ∀ path node, ReachesWithout ["items", "additionalProperties"] schema path node →
    ∀ items, classify (place ++ path) node ≠ .ok (.array items)

section Resolved
variable {registry : Registry} {place : Place} {schema : Value} {codec : Codec}

theorem array_of_resolve (h : (resolve registry place schema).result = .ok codec) :
    (∃ item, codec = .array item) ↔ ∃ items, classify place schema = .ok (.array items) := by
  obtain ⟨shape, found, heads⟩ := heads_of_resolve h
  rw [found]
  cases heads <;> simp

/-- Where nothing is an object or a map, a list is reached only through lists or as an alternative,
so that the first list on the way is an alternative. -/
theorem noListOption_iff (h : (resolve registry place schema).result = .ok codec)
    (readable : codec.unreadable? = none) :
    Schema.NoListOption place schema ↔ ¬ Codec.HasArray codec.nodes := by
  constructor
  · rintro flat ⟨⟨path, _⟩, listed, item, rfl⟩
    obtain ⟨node, reached, resolved⟩ := exists_reaches_of_part h listed
    obtain ⟨items, found⟩ := (array_of_resolve resolved).mp ⟨item, rfl⟩
    by_cases kept : ∀ step ∈ path, step ∉ ["items", "additionalProperties"]
    · exact flat path node ⟨reached, kept⟩ items found
    · obtain ⟨before, turn, step, child, to_, avoided, below⟩ := Schema.exists_turn reached kept
      obtain ⟨part, placed, resolved⟩ := exists_part_of_reaches h to_.1
      obtain ⟨shape, found, heads⟩ := heads_of_resolve resolved
      rw [Schema.below_of_classify found] at below
      rcases List.mem_cons.mp avoided with rfl | avoided
      · -- the path goes into a list, which is an alternative
        rw [Shape.eq_array_of_mem_steps below] at found
        exact flat before turn to_ child found
      · -- the path goes into a map, which is refused
        rw [List.mem_singleton.mp avoided] at below
        rw [Shape.eq_map_of_mem_steps below] at heads
        rw [Codec.unreadable?_eq, List.findSome?_eq_none_iff] at readable
        cases heads
        cases readable _ placed
  · rintro none_ path node ⟨reached, -⟩ items found
    obtain ⟨part, listed, resolved⟩ := exists_part_of_reaches h reached
    obtain ⟨item, rfl⟩ := (array_of_resolve resolved).mpr ⟨items, found⟩
    exact none_ ⟨_, listed, item, rfl⟩

theorem scalar_iff_not_hasArray (readable : codec.unreadable? = none) :
    codec.Scalar ↔ ¬ Codec.HasArray codec.nodes := by
  rw [Codec.unreadable?_eq, List.findSome?_eq_none_iff] at readable
  rw [Codec.scalar_iff]
  constructor
  · rintro plain ⟨part, hp, item, array⟩
    exact (plain part hp).1 item array
  · intro none_ part hp
    exact ⟨fun item array => none_ ⟨part, hp, item, array⟩, readable part hp⟩

end Resolved

/-! ## What the checks of a path parameter leave -/

/-- A path parameter with its schema: the schema itself is no list.  Whether there is one among its
alternatives decides about its values and shows in its type. -/
structure PathParameter (schema : Value) (spec : ParameterSpec) : Prop where
  root : ∀ items, classify spec.place schema ≠ .ok (.array items)
  scalar : Schema.NoListOption spec.place schema ↔ spec.slot.codec.Scalar
  type : Schema.NoListOption spec.place schema ↔ "ReadonlyArray" ∉ Code.calls spec.slot.typeName

theorem refuseArray_eq_ok {place : Place} {schema : Value}
    (h : Signature.refuseArray place schema = .ok ()) (items : Value) :
    classify place schema ≠ .ok (.array items) := by
  intro found
  rw [Signature.refuseArray, found] at h
  cases h

namespace Signature
variable {registry : Registry} {method : String}

/-- A probed parameter stands where its place says. -/
theorem place_of_probed {parameter : Members} {name : String} {location : ParameterLocation}
    {required : Bool} {spec : ParameterSpec}
    (h : (do
      silent (readable registry [method, location.key, name]
        (parameter.getD "schema") required name)
      let slot ← resolveSlot registry [method, location.key, name]
        (parameter.getD "schema") required
      return ⟨name, location, slot, (parameter.getD "description").visibleText?,
        [method, location.key, name]⟩ : Emission ParameterSpec).result = .ok spec) :
    spec.location = location ∧ spec.place = [method, location.key, name] := by
  obtain ⟨_, -, h⟩ := bind_eq_ok.mp h
  obtain ⟨slot, -, h⟩ := bind_eq_ok.mp h
  cases h
  exact ⟨rfl, rfl⟩

/-- The schema of a path parameter has passed the check for lists. -/
theorem refuseArray_of_parameterSpec {parameter : Members} {spec : ParameterSpec}
    (h : (parameterSpec registry method parameter).result = .ok spec)
    (path : spec.location = .path) :
    refuseArray spec.place (parameter.getD "schema") = .ok () := by
  obtain ⟨name, -, h⟩ := bind_eq_ok.mp h
  obtain ⟨location, -, h⟩ := bind_eq_ok.mp h
  simp only at h
  -- the first split is on whether a value has to be given
  split at h
  all_goals
    split at h
    · cases h
    · split at h
      · cases h
      · split at h
        · obtain ⟨⟨⟩, refused, h⟩ := bind_eq_ok.mp h
          rw [(place_of_probed h).2]
          exact refused
        · rename_i query
          exact absurd ((place_of_probed h).1.symm.trans path) query

/-- A path parameter is no list, is read from text, and refers to registered components. -/
theorem pathParameter_of_readAs {parameter : Members} {spec : ParameterSpec}
    (h : ReadAs registry method parameter spec) (path : spec.location = .path) :
    PathParameter (parameter.getD "schema") spec := by
  have described := (describes_of_parameterSpec h).1
  have required := (describes_of_parameterSpec h).2.required path
  obtain ⟨sound, -⟩ := parameterSpec_yields spec h
  have resolved := Slot.codec_of_resolveSlot described.slot
  have readable : spec.slot.codec.unreadable? = none := by
    have read := Slot.fromParam_ok_iff.mp (sound.readable "" "")
    simpa [Option.eq_none_iff_forall_ne_some] using read
  have spelled : Codec.Spelled spec.slot.codec.references := spelled_of_known sound.known
  have flat := noListOption_iff resolved readable
  refine ⟨refuseArray_eq_ok (refuseArray_of_parameterSpec h path), ?_, ?_⟩
  · rw [flat, scalar_iff_not_hasArray readable]
  · rw [flat, Slot.typeName, if_pos required, ← Codec.mem_calls_typeName _ spelled]

/-- **Which path parameters are plain values.**  The parameters of a signature are those of its
parameter objects, in order.  The schema of a path parameter is no list.  Its values are plain
values, without a list type in its static type, exactly if no alternative of the schema is a
list. -/
theorem pathParameters_scalar_iff {group : TagGroup} {signatures : List Signature}
    (h : (ofGroup registry group).result = .ok signatures) :
    ∀ signature ∈ signatures, List.Forall₂
      (fun parameter spec => Describes registry signature.methodName parameter spec ∧
        (spec.location = .path → PathParameter (parameter.getD "schema") spec))
      signature.operation.parameters signature.parameters := by
  obtain ⟨tag, made⟩ := made_of_ofGroup h
  intro signature member
  refine (readAs_of_matchingParameters (made signature member).parameters).imp ?_
  intro parameter spec read
  exact ⟨(describes_of_parameterSpec read).1, pathParameter_of_readAs read⟩

/-- The paths with one operation, whose path parameter has the given schema. -/
def wordPaths (schema : Value) : Members :=
  [(.text "/words/{ids}", .map
    [(.text "get", .map
      [(.text "operationId", .text "getWords"),
        (.text "tags", .list [.text "words"]),
        (.text "parameters", .list [.map
          [(.text "name", .text "ids"), (.text "in", .text "path"), (.text "required", .bool true),
            (.text "schema", schema)]]),
        (.text "responses", .map [(.text "200", .map [(.text "description", .text "Done.")])])])])]

/-- A text or a whole number. -/
def textOrNumber : Value :=
  .map [(.text "oneOf", .list
    [.map [(.text "type", .text "string")], .map [(.text "type", .text "integer")]])]

theorem pathParameters_scalar_iff_textOrNumber :
    ∃ groups group signatures,
      Operation.grouped (wordPaths textOrNumber) [.map [(.text "name", .text "words")]] =
        .ok groups ∧
      group ∈ groups ∧ (ofGroup ⟨[]⟩ group).result = .ok signatures ∧
      (signatures.flatMap fun s => s.parameters.map fun p => (p.location, p.slot.typeName)) =
        [(.path, "string | number")] ∧
      ∀ signature ∈ signatures, List.Forall₂
        (fun parameter spec => Describes ⟨[]⟩ signature.methodName parameter spec ∧
          (spec.location = .path → PathParameter (parameter.getD "schema") spec))
        signature.operation.parameters signature.parameters := by
  have signed : ((Operation.grouped (wordPaths textOrNumber)
      [.map [(.text "name", .text "words")]]).toOption.bind fun groups =>
        groups.head?.bind fun group => (ofGroup ⟨[]⟩ group).result.toOption.map fun signatures =>
          signatures.flatMap fun s => s.parameters.map fun p => (p.location, p.slot.typeName)) =
      some [(.path, "string | number")] := by
    decide +kernel
  obtain ⟨groups, grouped, signed⟩ := Option.bind_eq_some_iff.mp signed
  obtain ⟨group, first, signed⟩ := Option.bind_eq_some_iff.mp signed
  obtain ⟨signatures, found, types⟩ := Option.map_eq_some_iff.mp signed
  have built := Except.eq_ok_of_toOption found
  exact ⟨groups, group, signatures, Except.eq_ok_of_toOption grouped, List.mem_of_mem_head? first,
    built, types, pathParameters_scalar_iff built⟩

/-- Several texts. -/
def texts : Value := .map [(.text "type", .text "array"), (.text "items", .map
  [(.text "type", .text "string")])]

/-- Several texts or one. -/
def textsOrText : Value :=
  .map [(.text "oneOf", .list [texts, .map [(.text "type", .text "string")]])]

/-- A list among two alternatives gets into a path. -/
theorem not_noListOption_textsOrText :
    ∃ groups group signatures,
      Operation.grouped (wordPaths textsOrText) [.map [(.text "name", .text "words")]] =
        .ok groups ∧
      group ∈ groups ∧ (ofGroup ⟨[]⟩ group).result = .ok signatures ∧
      (signatures.flatMap fun s => s.parameters.map fun p => (p.place, p.slot.typeName)) =
        [(["getWords", "path", "ids"], "ReadonlyArray<string> | string")] ∧
      (signatures.map fun s => (Client.urlExpression s).result.toOption) =
        [some ("new UrlBuilder().addLiteral(" ++ Text.literal "/words/"
          ++ ").addPathParam(ids).toString()")] ∧
      ¬ Schema.NoListOption ["getWords", "path", "ids"] textsOrText := by
  have signed : ((Operation.grouped (wordPaths textsOrText)
      [.map [(.text "name", .text "words")]]).toOption.bind fun groups =>
        groups.head?.bind fun group => (ofGroup ⟨[]⟩ group).result.toOption.map fun signatures =>
          (signatures.flatMap (fun s => s.parameters.map fun p => (p.place, p.slot.typeName)),
            signatures.map fun s => (Client.urlExpression s).result.toOption)) =
      some ([(["getWords", "path", "ids"], "ReadonlyArray<string> | string")],
        [some ("new UrlBuilder().addLiteral(" ++ Text.literal "/words/"
          ++ ").addPathParam(ids).toString()")]) := by
    decide +kernel
  obtain ⟨groups, grouped, signed⟩ := Option.bind_eq_some_iff.mp signed
  obtain ⟨group, first, signed⟩ := Option.bind_eq_some_iff.mp signed
  obtain ⟨signatures, found, facts⟩ := Option.map_eq_some_iff.mp signed
  obtain ⟨types, urls⟩ := Prod.mk.inj facts
  refine ⟨groups, group, signatures, Except.eq_ok_of_toOption grouped, List.mem_of_mem_head? first,
    Except.eq_ok_of_toOption found, types, urls, fun flat => ?_⟩
  have option : ("oneOf[0]", texts) ∈ Schema.below textsOrText := by
    simp [textsOrText, Schema.below, Schema.alternatives, Members.get?, optionSteps,
      show "oneOf[" ++ Nat.repr 0 ++ "]" = "oneOf[0]" from rfl]
  exact flat ["oneOf[0]"] texts ⟨.there option .here, by decide⟩
    (.map [(.text "type", .text "string")]) rfl

end Signature
end TypedApi
