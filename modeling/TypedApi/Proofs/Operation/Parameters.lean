import TypedApi.Proofs.Code.Import
import TypedApi.Proofs.Operation.Grouping
import TypedApi.Proofs.Operation.Route
import TypedApi.Proofs.Output.TagFiles

/-! # The parameters of a method and its path

A signature has one parameter for each parameter object that remains when those of the path item
and those of the operation are merged, in this order (`Describes`).  The checks that build it leave
distinct names and, among the path parameters, exactly those of the template
(`Signature.matching_of_matchingParameters`).  Because of this the client finds each part of the
template and hands every parameter over once, with its own codec (`Client.exists_buildsFrom`).
-/
namespace TypedApi
open Noted

/-- The parameter object describes a parameter of the method with the given name. -/
structure Describes (registry : Registry) (method : String) (parameter : Members)
    (spec : ParameterSpec) : Prop where
  name : (parameter.getD "name").text? = some spec.name
  location : parameter.getD "in" = .text spec.location.key
  place : spec.place = [method, spec.location.key, spec.name]
  description : spec.description = (parameter.getD "description").visibleText?
  required : spec.slot.required = true ↔ parameter.getD "required" = .bool true
  /-- The codec is that of the schema of the object. -/
  slot : (resolveSlot registry spec.place (parameter.getD "schema") spec.slot.required).result =
    .ok spec.slot

/-- What the checks of a single parameter leave. -/
structure ParameterSpec.Fit (parameter : ParameterSpec) : Prop where
  identifier : Code.isIdentifier parameter.name = true
  name : parameter.name ∉ Signature.reservedArguments
  required : parameter.location = .path → parameter.slot.required = true

namespace Signature

variable {registry : Registry} {method : String}

/-! ## Single parameters -/

theorem parameterName_eq_ok {parameter : Members} {name : String}
    (h : parameterName method parameter = .ok name) :
    (parameter.getD "name").text? = some name ∧ Code.isIdentifier name = true ∧
      name ∉ reservedArguments := by
  unfold parameterName at h
  simp only at h
  split at h
  · rename_i found
    split at h
    · cases h
    · rename_i valid
      cases h
      rw [Bool.or_eq_true, not_or, Bool.not_eq_true', Bool.not_eq_false] at valid
      exact ⟨found, valid.1, by simpa using valid.2⟩
  · cases h

theorem parameterLocation_eq_ok {name : String} {parameter : Members}
    {location : ParameterLocation} (h : parameterLocation method name parameter = .ok location) :
    parameter.getD "in" = .text location.key := by
  unfold parameterLocation at h
  split at h
  · rename_i found
    cases h
    exact found
  · rename_i found
    cases h
    exact found
  · cases h

theorem required_resolveSlot {place : Place} {schema : Value} {required : Bool} {slot : Slot}
    (h : (resolveSlot registry place schema required).result = .ok slot) :
    slot.required = required := by
  obtain ⟨codec, -, h⟩ := bind_eq_ok.mp h
  cases h
  rfl

/-- After the checks of its name and its place, a parameter gets the codec of its schema. -/
theorem describes_of_probed {parameter : Members} {name : String} {location : ParameterLocation}
    {required : Bool} {spec : ParameterSpec}
    (text : (parameter.getD "name").text? = some name) (valid : Code.isIdentifier name = true)
    (free : name ∉ reservedArguments)
    (located : parameter.getD "in" = .text location.key)
    (given : required = true ↔ parameter.getD "required" = .bool true)
    (path : location = .path → required = true)
    (h : (do
      silent (readable registry [method, location.key, name]
        (parameter.getD "schema") required name)
      let slot ← resolveSlot registry [method, location.key, name]
        (parameter.getD "schema") required
      return ⟨name, location, slot, (parameter.getD "description").visibleText?,
        [method, location.key, name]⟩ : Emission ParameterSpec).result = .ok spec) :
    Describes registry method parameter spec ∧ spec.Fit := by
  -- the probe before it resolves the same schema and leaves nothing
  obtain ⟨_, -, h⟩ := bind_eq_ok.mp h
  obtain ⟨slot, found, h⟩ := bind_eq_ok.mp h
  cases h
  obtain rfl := required_resolveSlot found
  exact ⟨⟨text, located, rfl, rfl, given, found⟩, valid, free, path⟩

theorem describes_of_parameterSpec {parameter : Members} {spec : ParameterSpec}
    (h : (parameterSpec registry method parameter).result = .ok spec) :
    Describes registry method parameter spec ∧ spec.Fit := by
  obtain ⟨name, named, h⟩ := bind_eq_ok.mp h
  obtain ⟨location, located, h⟩ := bind_eq_ok.mp h
  obtain ⟨text, valid, free⟩ := parameterName_eq_ok named
  have place := parameterLocation_eq_ok located
  simp only at h
  -- the first split is on whether a value has to be given
  split at h
  · rename_i given
    have always : true = true ↔ parameter.getD "required" = .bool true := by simp [given]
    split at h
    · cases h
    · split at h
      · cases h
      · split at h
        · obtain ⟨_, -, h⟩ := bind_eq_ok.mp h
          exact describes_of_probed text valid free place always (fun _ => rfl) h
        · exact describes_of_probed text valid free place always (fun _ => rfl) h
  · rename_i other
    have never : false = true ↔ parameter.getD "required" = .bool true := by simpa using other
    split at h
    · cases h
    · rename_i query
      have nowhere : location = .path → false = true := fun path =>
        absurd path (by simpa using query)
      split at h
      · cases h
      · split at h
        · obtain ⟨_, -, h⟩ := bind_eq_ok.mp h
          exact describes_of_probed text valid free place never nowhere h
        · exact describes_of_probed text valid free place never nowhere h

/-! ## The parameters of an operation -/

/-- A parameter object is read as the parameter. -/
def ReadAs (registry : Registry) (method : String) (parameter : Members) (spec : ParameterSpec) :
    Prop :=
  (parameterSpec registry method parameter).result = .ok spec

theorem readAs_of_parameterSpecs {parameters : List Members} {specs : List ParameterSpec}
    (h : (parameterSpecs registry method parameters).result = .ok specs) :
    List.Forall₂ (ReadAs registry method) parameters specs := by
  induction parameters generalizing specs with
  | nil =>
    cases h
    exact .nil
  | cons parameter rest ih =>
    obtain ⟨spec, own, h⟩ := bind_eq_ok.mp h
    obtain ⟨later, others, h⟩ := bind_eq_ok.mp h
    cases h
    exact .cons own (ih others)

/-- The parameters of an operation are described by its parameter objects, have different names and
are, as far as they stand in the path, those of the template. -/
structure Matching (registry : Registry) (method : String) (operation : Operation)
    (specs : List ParameterSpec) : Prop where
  described : List.Forall₂ (Describes registry method) operation.parameters specs
  fit : ∀ spec ∈ specs, spec.Fit
  distinct : (specs.map (·.name)).Nodup
  template : (pathNames specs).Perm operation.url.parameterNames

theorem readAs_of_matchingParameters {operation : Operation} {specs : List ParameterSpec}
    (h : (matchingParameters registry method operation).result = .ok specs) :
    List.Forall₂ (ReadAs registry method) operation.parameters specs := by
  obtain ⟨found, built, h⟩ := bind_eq_ok.mp h
  simp only at h
  split at h
  · cases h
  · split at h
    · cases h
    · cases h
      exact readAs_of_parameterSpecs built

theorem matching_of_matchingParameters {operation : Operation} {specs : List ParameterSpec}
    (h : (matchingParameters registry method operation).result = .ok specs) :
    Matching registry method operation specs := by
  have read := readAs_of_matchingParameters h
  obtain ⟨found, -, h⟩ := bind_eq_ok.mp h
  simp only at h
  split at h
  · cases h
  · rename_i different
    split at h
    · cases h
    · rename_i same
      cases h
      have distinct : (specs.map (·.name)).Nodup :=
        Code.length_eraseDups_eq_iff.mp (by simpa [allDifferent] using different)
      have sorted : Text.sorted (pathNames specs) = Text.sorted operation.url.parameterNames := by
        simpa using same
      have own : (Text.sorted (pathNames specs)).Perm (pathNames specs) := Text.perm_sortedBy id _
      have named : (Text.sorted operation.url.parameterNames).Perm operation.url.parameterNames :=
        Text.perm_sortedBy id _
      rw [sorted] at own
      refine ⟨read.imp fun _ _ own => (describes_of_parameterSpec own).1, fun spec hs => ?_,
        distinct, own.symm.trans named⟩
      obtain ⟨parameter, -, own⟩ := exists_of_mem_right read hs
      exact (describes_of_parameterSpec own).2

/-- A signature is that of its operation, with the name that the operation has in the tag. -/
structure Made (registry : Registry) (tag : Identifier) (signature : Signature) : Prop where
  named : methodNameOf tag signature.operation = .ok signature.methodName
  made : (ofOperation registry signature.methodName signature.operation).result = .ok signature

theorem made_of_ofOperations {tag : Identifier} {tagName : String}
    {seen : List (String × String)} {operations : List Operation} {signatures : List Signature}
    (h : (ofOperations registry tag tagName seen operations).result = .ok signatures) :
    ∀ signature ∈ signatures, Made registry tag signature := by
  induction operations generalizing seen signatures with
  | nil =>
    cases h
    exact List.forall_mem_nil _
  | cons operation rest ih =>
    obtain ⟨name, named, h⟩ := bind_eq_ok.mp h
    split at h
    · cases h
    · obtain ⟨signature, own, h⟩ := bind_eq_ok.mp h
      obtain ⟨later, others, h⟩ := bind_eq_ok.mp h
      cases h
      refine List.forall_mem_cons.mpr ⟨?_, ih others⟩
      -- the signature has the operation and the name that it was made with
      have made := own
      obtain ⟨body, -, own⟩ := bind_eq_ok.mp own
      obtain ⟨specs, -, own⟩ := bind_eq_ok.mp own
      obtain ⟨response, -, own⟩ := bind_eq_ok.mp own
      cases own
      exact ⟨named, made⟩

/-- Each signature of a tag is made from its operation. -/
theorem made_of_ofGroup {group : TagGroup} {signatures : List Signature}
    (h : (ofGroup registry group).result = .ok signatures) :
    ∃ tag, ∀ signature ∈ signatures, Made registry tag signature := by
  obtain ⟨tag, -, h⟩ := bind_eq_ok.mp h
  exact ⟨tag, made_of_ofOperations h⟩

theorem Made.parameters {tag : Identifier} {signature : Signature}
    (h : Made registry tag signature) :
    (matchingParameters registry signature.methodName signature.operation).result =
      .ok signature.parameters := by
  obtain ⟨body, -, made⟩ := bind_eq_ok.mp h.made
  obtain ⟨specs, built, made⟩ := bind_eq_ok.mp made
  obtain ⟨response, -, made⟩ := bind_eq_ok.mp made
  rw [← Except.ok.inj made]
  exact built

theorem matching_of_ofGroup {group : TagGroup} {signatures : List Signature}
    (h : (ofGroup registry group).result = .ok signatures) :
    ∀ signature ∈ signatures,
      Matching registry signature.methodName signature.operation signature.parameters := by
  obtain ⟨tag, made⟩ := made_of_ofGroup h
  exact fun signature member => matching_of_matchingParameters (made signature member).parameters

end Signature
/-! ## The URL of the client -/

namespace Client

/-- The call adds the part to the path of a URL, a parameter of the template in its printed form. -/
def AddsPart (parameters : List ParameterSpec) : PathPart → String → Prop
  | .literal text, call => call = ".addLiteral(" ++ Text.literal text ++ ")"
  | .parameter name, call =>
    ∃ parameter ∈ parameters, parameter.location = .path ∧ parameter.name = name ∧
      ∃ printed, (parameter.slot.toJson name).result = .ok printed ∧
        call = ".addPathParam(" ++ printed ++ ")"

/-- The call adds the parameter to the query of a URL, in its printed form. -/
def AddsQuery (parameter : ParameterSpec) (call : String) : Prop :=
  ∃ printed, (parameter.slot.toJson parameter.name).result = .ok printed ∧
    call = ".addQuery(" ++ Text.literal parameter.name ++ ", " ++ printed ++ ")"

/-- The expression builds a URL from the parts of the template in order and the query parameters in
the order of the signature, with one call for each of them. -/
def BuildsFrom (signature : Signature) (expression : String) : Prop :=
  ∃ calls queries,
    List.Forall₂ (AddsPart signature.parameters) signature.operation.url.parts calls ∧
      List.Forall₂ AddsQuery (signature.parameters.filter fun p => p.location = .query) queries ∧
      expression =
        "new UrlBuilder()" ++ String.join calls ++ String.join queries ++ ".toString()"

variable {registry : Registry} {signature : Signature}

theorem addsPart_of_adds {part : PathPart} {call : String} (h : Adds signature part call) :
    AddsPart signature.parameters part call := by
  cases part with
  | literal text => exact h
  | parameter name =>
    obtain ⟨slot, printed, found, prints, rfl⟩ := h
    unfold pathSlot at found
    split at found
    · rename_i parameter first
      cases found
      have listed := List.mem_reverse.mp (List.mem_of_find?_eq_some first)
      have named := List.find?_some first
      simp only [Bool.and_eq_true, decide_eq_true_eq, beq_iff_eq] at named
      exact ⟨parameter, listed, named.1, named.2, printed, prints, rfl⟩
    · cases found

theorem queryCalls_eq_ok {parameters : List ParameterSpec} {text : String}
    (h : (queryCalls parameters).result = .ok text) :
    ∃ queries, List.Forall₂ AddsQuery parameters queries ∧ text = String.join queries := by
  induction parameters generalizing text with
  | nil =>
    cases h
    exact ⟨[], .nil, rfl⟩
  | cons parameter rest ih =>
    obtain ⟨printed, prints, h⟩ := bind_eq_ok.mp h
    obtain ⟨later, others, h⟩ := bind_eq_ok.mp h
    cases h
    obtain ⟨queries, adds, rfl⟩ := ih others
    exact ⟨_ :: queries, .cons ⟨printed, prints, rfl⟩ adds, by rw [String.join_cons]⟩

/-- A sound signature whose URL has parameters gets an expression that builds it. -/
theorem exists_buildsFrom (sound : signature.Sound registry) (builds : buildsUrl signature = true) :
    ∃ expression, (urlExpression signature).result = .ok expression ∧
      BuildsFrom signature expression := by
  obtain ⟨expression, written, -⟩ := urlExpression_delivers sound
  refine ⟨expression, written, ?_⟩
  simp only [urlExpression] at written
  split at written
  · rename_i plain
    simp only [Bool.and_eq_true, Bool.not_eq_true', List.isEmpty_iff, List.filter_eq_nil_iff,
      decide_eq_true_eq] at plain
    simp only [buildsUrl, Bool.or_eq_true, List.any_eq_true, decide_eq_true_eq] at builds
    rcases builds with template | ⟨parameter, hp, query⟩
    · rw [plain.1] at template
      cases template
    · exact absurd query (plain.2 parameter hp)
  · obtain ⟨_, -, written⟩ := bind_eq_ok.mp written
    obtain ⟨path, hp, written⟩ := bind_eq_ok.mp written
    obtain ⟨query, hq, written⟩ := bind_eq_ok.mp written
    cases written
    obtain ⟨calls, adds, rfl⟩ := pathCalls_eq_ok hp
    obtain ⟨queries, addsQuery, rfl⟩ := queryCalls_eq_ok hq
    exact ⟨calls, queries, adds.imp fun _ _ => addsPart_of_adds, addsQuery, rfl⟩

/-- A method with parameters builds its URL: those that are no query parameters are named by the
template. -/
theorem buildsUrl_of_matching
    (matching : Signature.Matching registry signature.methodName signature.operation
      signature.parameters)
    (given : signature.parameters ≠ []) : buildsUrl signature = true := by
  obtain ⟨parameter, rest, split⟩ := List.exists_cons_of_ne_nil given
  have listed : parameter ∈ signature.parameters := split ▸ List.mem_cons_self
  rw [buildsUrl, Bool.or_eq_true]
  cases location : parameter.location with
  | query => exact .inr (List.any_eq_true.mpr ⟨parameter, listed, by simp [location]⟩)
  | path =>
    have named : parameter.name ∈ Signature.pathNames signature.parameters :=
      List.mem_map_of_mem (List.mem_filter.mpr ⟨listed, by simp [location]⟩)
    obtain ⟨part, inside, is_⟩ := List.mem_filterMap.mp (matching.template.mem_iff.mp named)
    refine .inl (List.any_eq_true.mpr ⟨part, inside, ?_⟩)
    cases part with
    | literal text => cases is_
    | parameter name => rfl

end Client

/-! ## Signatures and their paths -/

/-- A signature follows from the path item and the operation object that it is for. -/
structure Signature.Consistent (registry : Registry) (paths : Members) (signature : Signature) :
    Prop where
  /-- The parameters are those of the path item that the operation does not redefine and then those
  of the operation, in order. -/
  merged : ∃ member ∈ MethodMember.ofPaths paths, ReadFrom member signature.operation ∧
    ∃ shared own, ListsParameters (member.item.getD "parameters") shared ∧
      ListsParameters (signature.operation.members.getD "parameters") own ∧
      List.Forall₂ (Describes registry signature.methodName)
        ((shared.filter fun parameter => !own.any (samePlace parameter)) ++ own)
        signature.parameters
  distinct : (signature.parameters.map (·.name)).Nodup
  free : ∀ parameter ∈ signature.parameters,
    parameter.name ≠ "body" ∧ parameter.name ≠ "overrideConfig"
  required : ∀ parameter ∈ signature.parameters,
    parameter.location = .path → parameter.slot.required = true
  /-- The path parameters and the parameters of the template correspond, each occurring once. -/
  template : (Signature.pathNames signature.parameters).Perm
    signature.operation.url.parameterNames ∧ signature.operation.url.parameterNames.Nodup
  /-- The URL of a method with parameters is built from the template and the query parameters. -/
  url : signature.parameters ≠ [] → ∃ expression,
    (Client.urlExpression signature).result = .ok expression ∧
      Client.BuildsFrom signature expression

/-- The operation of a group is read from one of the paths. -/
theorem Operation.exists_readFrom {paths : Members} {tags : List Value} {groups : List TagGroup}
    (h : grouped paths tags = .ok groups) {group : TagGroup} (hg : group ∈ groups)
    {operation : Operation} (ho : operation ∈ group.operations) :
    ∃ member ∈ MethodMember.ofPaths paths, ReadFrom member operation := by
  obtain ⟨declarations, -, h⟩ := Except.bind_eq_ok.mp h
  obtain ⟨operations, read, h⟩ := Except.bind_eq_ok.mp h
  cases h
  obtain ⟨declaration, -, rfl⟩ := List.mem_map.mp hg
  obtain ⟨member, hm, from_, -⟩ :=
    exists_of_mem_right (readPaths_forall₂ read) (List.mem_of_mem_filter ho)
  exact ⟨member, hm, from_⟩

/-- **Signatures follow their paths.**  The signatures of a tag are those of its operations in
order, and each is consistent with the path item and the operation object that it was read from. -/
theorem Signature.consistent_of_ofGroup {registry : Registry} {paths : Members} {tags : List Value}
    {groups : List TagGroup} {group : TagGroup} {signatures : List Signature}
    (h : Operation.grouped paths tags = .ok groups) (hg : group ∈ groups)
    (hs : (ofGroup registry group).result = .ok signatures) :
    signatures.map (·.operation) = group.operations ∧
      ∀ signature ∈ signatures, signature.Consistent registry paths := by
  obtain ⟨⟨sound, operations⟩, -⟩ := ofGroup_yields signatures hs
  refine ⟨operations, fun signature member => ?_⟩
  have matching := matching_of_ofGroup hs signature member
  obtain ⟨source, hm, read⟩ := Operation.exists_readFrom h hg
    (operations ▸ List.mem_map_of_mem member)
  obtain ⟨shared, own, sharedListed, ownListed, merged⟩ := read.parameters
  refine ⟨⟨source, hm, read, shared, own, sharedListed, ownListed, ?_⟩, matching.distinct,
    fun parameter hp => ?_, fun parameter hp => (matching.fit parameter hp).required,
    ⟨matching.template, ?_⟩, fun given => ?_⟩
  · exact merged ▸ matching.described
  · simpa [reservedArguments] using (matching.fit parameter hp).name
  · refine matching.template.nodup_iff.mp ?_
    exact matching.distinct.sublist (List.filter_sublist.map _)
  · exact Client.exists_buildsFrom (sound signature member)
      (Client.buildsUrl_of_matching matching given)

/-- A path with two parameters, of which its only operation redefines one. -/
def itemPaths : Members :=
  let parameter (name location type : String) : Value :=
    .map [(.text "name", .text name), (.text "in", .text location), (.text "required", .bool true),
      (.text "schema", .map [(.text "type", .text type)])]
  [(.text "/items/\x7bid\x7d", .map
    [(.text "parameters", .list [parameter "id" "path" "string",
        parameter "limit" "query" "integer"]),
      (.text "get", .map
        [(.text "operationId", .text "getItem"),
          (.text "tags", .list [.text "items"]),
          (.text "parameters", .list [parameter "verbose" "query" "boolean",
            parameter "id" "path" "integer"]),
          (.text "responses", .map [
            (.text "200", .map [(.text "description", .text "Done.")])])])])]

/-- The parameter that is redefined stands where the operation has it. -/
theorem Signature.consistent_items :
    ∃ groups group signatures,
      Operation.grouped itemPaths [.map [(.text "name", .text "items")]] = .ok groups ∧
        group ∈ groups ∧ (ofGroup ⟨[]⟩ group).result = .ok signatures ∧
        signatures.map (fun s => s.parameters.map (·.name)) = [["limit", "verbose", "id"]] ∧
        ∀ signature ∈ signatures, signature.Consistent ⟨[]⟩ itemPaths := by
  have signed : ((Operation.grouped itemPaths
      [.map [(.text "name", .text "items")]]).toOption.bind fun groups =>
        groups.head?.bind fun group => (ofGroup ⟨[]⟩ group).result.toOption.map fun signatures =>
          signatures.map fun s => s.parameters.map (·.name)) =
      some [["limit", "verbose", "id"]] := by
    decide +kernel
  obtain ⟨groups, grouped, signed⟩ := Option.bind_eq_some_iff.mp signed
  obtain ⟨group, first, signed⟩ := Option.bind_eq_some_iff.mp signed
  obtain ⟨signatures, found, names⟩ := Option.map_eq_some_iff.mp signed
  have listed := Except.eq_ok_of_toOption grouped
  have member := List.mem_of_mem_head? first
  have built := Except.eq_ok_of_toOption found
  exact ⟨groups, group, signatures, listed, member, built, names,
    (consistent_of_ofGroup listed member built).2⟩

end TypedApi
