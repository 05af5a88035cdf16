import TypedApi.Proofs.Operation.Parameters
import TypedApi.Proofs.Output.Handler
import TypedApi.Proofs.Schema.Usage

/-! # The names in a handler

The expressions of a handler refer to the request and to the functions that the file imports, in
the scope in which the handler declares its variables.  Parameters keep the names that the document
gives them.  A signature sets `body` and `overrideConfig` aside, but neither `result` nor `req` nor
the functions of the runtime, so that a parameter may take a name that the handler needs.
`Controller.usable_iff` says exactly when it does not.

A name with a line feed behind it gets past the comparison with the names that are set aside and
with those of other parameters, although it binds the same identifier.
-/
namespace TypedApi
open Code (IsWord wordsBefore opens anything)

namespace Code

/-- The context of a check calls nothing if it is made of names. -/
theorem calls_contextLiteral {segments : List String} (h : ∀ segment ∈ segments, Tame segment) :
    wordsBefore opens (contextLiteral segments none) = [] := by
  show wordsBefore opens ("[" ++ Text.commaList (segments.map Text.literal) ++ "]") = []
  have opening : wordsBefore opens "[" = [] := by decide
  have close : wordsBefore opens "]" = [] := by decide
  rw [wordsBefore_append_of_starts (by decide), wordsBefore_append_of_ends (by decide), opening,
    close, List.nil_append, List.append_nil, calls_commaList, List.flatMap_eq_nil_iff]
  intro written hw
  obtain ⟨segment, hs, rfl⟩ := List.mem_map.mp hw
  exact calls_literal (h segment hs)

end Code

namespace Controller

/-! ## What a handler refers to -/

namespace Handler

/-- The expressions that are evaluated. -/
def expressions (handler : Handler) : List String :=
  (handler.inputs.map fun input => input.expression) ++ handler.answer.expressions

/-- A name that the expressions refer to: the request, where a text is read from it, and every
function of the runtime that is called. -/
def Refers (registry : Registry) (handler : Handler) (name : String) : Prop :=
  (∃ input ∈ handler.inputs, (Code.words input.source).head? = some name) ∨
    registry.RuntimeName name ∧ name ∈ callsOf handler.expressions

/-- The variables are different, and no parameter hides a name that the expressions refer to. -/
structure Usable (registry : Registry) (handler : Handler) : Prop where
  distinct : handler.declared.Nodup
  free : ∀ input ∈ handler.parameters, ¬ handler.Refers registry (Code.boundName input.name)

end Handler
end Controller

/-- The identifiers that the parameters bind are different, and are none that the route needs. -/
structure Signature.Unshadowed (signature : Signature) : Prop where
  distinct : (signature.parameters.map fun p => Code.boundName p.name).Nodup
  body : signature.body.isSome → ∀ p ∈ signature.parameters, Code.boundName p.name ≠ "body"
  result : signature.response.isSome →
    ∀ p ∈ signature.parameters, Code.boundName p.name ≠ "result"
  request : ∀ p ∈ signature.parameters, Code.boundName p.name ≠ "req"
  imported : ∀ p ∈ signature.parameters, ∀ i ∈ (Controller.routeLines signature).notes,
    Code.boundName p.name ≠ i.name

theorem Signature.unshadowed_iff {signature : Signature} :
    signature.Unshadowed ↔
      (signature.parameters.map fun p => Code.boundName p.name).Nodup ∧
      (signature.body.isSome → ∀ p ∈ signature.parameters, Code.boundName p.name ≠ "body") ∧
      (signature.response.isSome → ∀ p ∈ signature.parameters, Code.boundName p.name ≠ "result") ∧
      (∀ p ∈ signature.parameters, Code.boundName p.name ≠ "req") ∧
      ∀ p ∈ signature.parameters, ∀ i ∈ (Controller.routeLines signature).notes,
        Code.boundName p.name ≠ i.name := by
  constructor
  · intro h
    exact ⟨h.distinct, h.body, h.result, h.request, h.imported⟩
  · rintro ⟨distinct, body, result, request, imported⟩
    exact ⟨distinct, body, result, request, imported⟩

instance (signature : Signature) : Decidable signature.Unshadowed :=
  decidable_of_iff' _ Signature.unshadowed_iff

open Noted

namespace Signature
variable {registry : Registry}

theorem methodNameOf_eq_ok {tag : Identifier} {operation : Operation} {name : String}
    (h : methodNameOf tag operation = .ok name) : Code.isIdentifier name = true := by
  unfold methodNameOf at h
  split at h
  · cases h
  · simp only at h
    split at h
    · cases h
    · rename_i valid
      split at h
      · cases h
      · cases h
        simpa using valid

theorem place_of_bodySpec {place : Place} {owner : String} {content description : Value}
    {body : BodySpec}
    (h : (bodySpec registry place owner content description).result = .ok body) :
    body.place = place := by
  obtain ⟨schema, -, h⟩ := bind_eq_ok.mp h
  obtain ⟨slot, -, h⟩ := bind_eq_ok.mp h
  cases h
  rfl

theorem place_of_requestBody {method : String} {operation : Operation} {body : BodySpec}
    (h : (requestBody registry method operation).result = .ok (some body)) :
    body.place = [method, "requestBody"] := by
  unfold requestBody at h
  split at h
  · cases h
  · split at h
    · cases h
    · split at h
      · obtain ⟨found, built, h⟩ := bind_eq_ok.mp h
        cases h
        exact place_of_bodySpec built
      · cases h
  · cases h

end Signature

namespace Controller
variable {registry : Registry} {signature : Signature}

/-! ## Texts that a handler passes on -/

/-- The names that stand in the texts of a route are identifiers. -/
structure Spelled (signature : Signature) : Prop where
  method : Code.isIdentifier signature.methodName = true
  parameters : ∀ p ∈ signature.parameters, Code.isIdentifier p.name = true
  body : ∀ body ∈ signature.body, body.place = [signature.methodName, "requestBody"]
  places : ∀ p ∈ signature.parameters, p.place = [signature.methodName, p.location.key, p.name]

theorem spelled_of_made {tag : Identifier} (h : Signature.Made registry tag signature) :
    Spelled signature := by
  have matching := Signature.matching_of_matchingParameters h.parameters
  refine ⟨Signature.methodNameOf_eq_ok h.named, fun p hp => (matching.fit p hp).identifier,
    fun body hb => ?_, fun p hp => ?_⟩
  · obtain ⟨found, built, made⟩ := bind_eq_ok.mp h.made
    obtain ⟨specs, -, made⟩ := bind_eq_ok.mp made
    obtain ⟨response, -, made⟩ := bind_eq_ok.mp made
    rw [← Except.ok.inj made] at hb
    cases hb
    exact Signature.place_of_requestBody built
  · obtain ⟨parameter, -, described⟩ := exists_of_mem_right matching.described hp
    exact described.place

/-! ## The texts that a handler reads from -/

theorem words_sourceOf (p : ParameterSpec) : (Code.words (sourceOf p)).head? = some "req" := by
  rw [sourceOf, Code.words]
  cases p.location with
  | path =>
    have own : wordsBefore anything "req.params." = ["req", "params"] := by decide
    rw [holder, Code.wordsBefore_append_of_ends (by decide), own]
    rfl
  | query =>
    have own : wordsBefore anything "req.query." = ["req", "query"] := by decide
    rw [holder, Code.wordsBefore_append_of_ends (by decide), own]
    rfl

theorem calls_sourceOf {p : ParameterSpec} (h : Code.isIdentifier p.name = true) :
    wordsBefore opens (sourceOf p) = [] := by
  have name : wordsBefore opens p.name = [] := Code.calls_eq_nil fun c hc =>
    Code.not_opening_of_tame (Code.tame_of_isIdentifier h c hc)
  rw [sourceOf]
  cases p.location with
  | path =>
    have own : wordsBefore opens "req.params." = [] := by decide
    rw [holder, Code.wordsBefore_append_of_ends (by decide), own, name]
    rfl
  | query =>
    have own : wordsBefore opens "req.query." = [] := by decide
    rw [holder, Code.wordsBefore_append_of_ends (by decide), own, name]
    rfl

theorem calls_place {p : ParameterSpec} (spelled : Spelled signature)
    (hp : p ∈ signature.parameters) :
    wordsBefore opens (Code.contextLiteral p.place none) = [] := by
  refine Code.calls_contextLiteral fun segment hs => Code.tame_of_isIdentifier ?_
  rw [spelled.places p hp] at hs
  simp only [List.mem_cons, List.not_mem_nil, or_false] at hs
  rcases hs with rfl | rfl | rfl
  · exact spelled.method
  · cases p.location <;> decide
  · exact spelled.parameters p hp

theorem calls_bodyPlace {body : BodySpec} (spelled : Spelled signature)
    (hb : body ∈ signature.body) :
    wordsBefore opens (Code.contextLiteral body.place none) = [] := by
  refine Code.calls_contextLiteral fun segment hs => Code.tame_of_isIdentifier ?_
  rw [spelled.body body hb] at hs
  simp only [List.mem_cons, List.not_mem_nil, or_false] at hs
  rcases hs with rfl | rfl
  · exact spelled.method
  · decide

/-! ## The functions that a handler calls -/

/-- The functions that the expressions of some inputs call. -/
def inputCalls (inputs : List Input) : List String :=
  callsOf (inputs.map fun input => input.expression)

theorem bodyInput?_exact (sound : signature.Sound registry) (spelled : Spelled signature) :
    Exact registry.RuntimeName (fun body : Option Input => inputCalls body.toList)
      (bodyInput? signature.body) := by
  cases found : signature.body with
  | none => exact exact_pure rfl
  | some body =>
    have use : Exact registry.RuntimeName (wordsBefore opens)
        ((Use.fromJson "req.body" (Code.contextLiteral body.place none)).expression body.slot) := by
      refine Use.expression_exact registry.spares_runtimeName
        (spelled_of_known (sound.body body found)) _ fun text ht => ?_
      rcases List.mem_cons.mp ht with rfl | ht
      · exact silent_of_nil (by decide)
      · rw [List.mem_singleton.mp ht]
        exact silent_of_nil (calls_bodyPlace spelled found)
    have input : Exact registry.RuntimeName
        (fun input : Input => wordsBefore opens input.expression) (bodyInput body) :=
      use.wrap fun _ => rfl
    exact input.wrap fun input => List.append_nil _

theorem parameterInput_exact (sound : signature.Sound registry) (spelled : Spelled signature)
    {p : ParameterSpec} (hp : p ∈ signature.parameters) :
    Exact registry.RuntimeName (fun input : Input => wordsBefore opens input.expression)
      (parameterInput p) := by
  refine Exact.wrap (x := (Use.fromParam (sourceOf p)
    (Code.contextLiteral p.place none)).expression p.slot) ?_ fun _ => rfl
  refine Use.expression_exact registry.spares_runtimeName
    (spelled_of_known (sound.parameters p hp).known) _ fun text ht => ?_
  rcases List.mem_cons.mp ht with rfl | ht
  · exact silent_of_nil (calls_sourceOf (spelled.parameters p hp))
  · rw [List.mem_singleton.mp ht]
    exact silent_of_nil (calls_place spelled hp)

theorem parameterInputs_exact (sound : signature.Sound registry) (spelled : Spelled signature)
    {parameters : List ParameterSpec} (listed : ∀ p ∈ parameters, p ∈ signature.parameters) :
    Exact registry.RuntimeName inputCalls (parameters.mapM parameterInput) := by
  induction parameters with
  | nil => exact exact_pure rfl
  | cons p rest ih =>
    obtain ⟨own, later⟩ := List.forall_mem_cons.mp listed
    rw [List.mapM_cons]
    exact (parameterInput_exact sound spelled own).both (ih later) fun _ _ => rfl

theorem answerOf_exact (sound : signature.Sound registry) :
    Exact registry.RuntimeName (fun answer : Answer => callsOf answer.expressions)
      (answerOf signature.response) := by
  cases found : signature.response with
  | none => exact exact_pure rfl
  | some response =>
    rw [answerOf]
    split
    · refine Exact.wrap (x := (Use.toJson resultName).expression response.slot) ?_
        fun printed => List.append_nil _
      refine Use.expression_exact registry.spares_runtimeName
        (spelled_of_known (sound.response response found)) _ fun text ht => ?_
      rw [List.mem_singleton.mp ht]
      exact silent_of_nil (by decide)
    · exact exact_pure rfl

/-- Of the functions of the runtime, a handler imports those that its expressions call. -/
theorem handlerOf_exact (sound : signature.Sound registry) (spelled : Spelled signature) :
    Exact registry.RuntimeName (fun handler : Handler => callsOf handler.expressions)
      (handlerOf signature) := by
  have inputs := (bodyInput?_exact sound spelled).both
    (parameterInputs_exact sound spelled fun p => id) (f := Prod.mk)
    (r := fun pair => inputCalls (pair.1.toList ++ pair.2)) fun _ _ => by
      simp [inputCalls, callsOf]
  have whole := inputs.both (answerOf_exact sound)
    (f := fun pair answer => Handler.mk pair.1 pair.2 answer)
    (r := fun handler => callsOf handler.expressions) fun _ _ => by
      simp [inputCalls, callsOf, Handler.expressions, Handler.inputs]
  simpa only [handlerOf, bind_assoc, pure_bind] using whole

/-! ## Every signature has a handler -/

theorem parameterInput_delivers {p : ParameterSpec} (sound : p.Sound registry) :
    Delivers registry.Runs (fun _ => True) (parameterInput p) := by
  obtain ⟨text, read⟩ := sound.readable (sourceOf p) (Code.contextLiteral p.place none)
  have whole : Delivers registry.Runs (fun _ => True)
      (p.slot.fromParam (sourceOf p) (Code.contextLiteral p.place none)) :=
    ⟨text, read, trivial, Slot.fromParam_runs sound.known⟩
  exact whole.bind fun _ _ => delivers_pure trivial

theorem bodyInput?_delivers (sound : signature.Sound registry) :
    Delivers registry.Runs (fun _ => True) (bodyInput? signature.body) := by
  cases found : signature.body with
  | none => exact delivers_pure trivial
  | some body =>
    have known := sound.body body found
    obtain ⟨text, read⟩ :=
      (body.slot.fromJson_spec "req.body" (Code.contextLiteral body.place none)).1
    have whole : Delivers registry.Runs (fun _ => True)
        (body.slot.fromJson "req.body" (Code.contextLiteral body.place none)) :=
      ⟨text, read, trivial, Slot.fromJson_runs known⟩
    exact (whole.bind fun _ _ => delivers_pure (Q := fun _ => True) trivial).bind
      fun _ _ => delivers_pure trivial

theorem answerOf_delivers (sound : signature.Sound registry) :
    Delivers registry.Runs (fun _ => True) (answerOf signature.response) := by
  cases found : signature.response with
  | none => exact delivers_pure trivial
  | some response =>
    rw [answerOf]
    split
    · obtain ⟨text, printed⟩ := (response.slot.toJson_spec resultName).1
      have whole : Delivers registry.Runs (fun _ => True) (response.slot.toJson resultName) :=
        ⟨text, printed, trivial, Slot.toJson_runs (sound.response response found)⟩
      exact whole.bind fun _ _ => delivers_pure trivial
    · exact delivers_pure trivial

/-- A handler can be written, and imports functions of the runtime only. -/
theorem handlerOf_delivers (sound : signature.Sound registry) :
    Delivers registry.Runs (fun _ => True) (handlerOf signature) :=
  (bodyInput?_delivers sound).bind fun _ _ =>
    (delivers_mapM fun p hp => parameterInput_delivers (sound.parameters p hp)).bind
      fun _ _ => (answerOf_delivers sound).bind fun _ _ => delivers_pure trivial

/-! ## The variables of a handler -/

/-- The handler has the variables of the signature. -/
structure Shows (signature : Signature) (handler : Handler) : Prop where
  body : (handler.body.map fun input => input.name) = signature.body.map fun _ => "body"
  names : (handler.parameters.map fun input => input.name) = signature.parameters.map (·.name)
  sources : (handler.parameters.map fun input => input.source) = signature.parameters.map sourceOf
  bodySource : ∀ input ∈ handler.body, input.source = "req.body"
  answer : handler.answer.declared = signature.response.toList.map fun _ => resultName

theorem shows_of_mapM {parameters : List ParameterSpec} {inputs : List Input}
    (h : (parameters.mapM parameterInput).result = .ok inputs) :
    (inputs.map fun input => input.name) = parameters.map (·.name) ∧
      (inputs.map fun input => input.source) = parameters.map sourceOf := by
  induction parameters generalizing inputs with
  | nil =>
    cases h
    exact ⟨rfl, rfl⟩
  | cons p rest ih =>
    rw [List.mapM_cons] at h
    obtain ⟨input, own, h⟩ := bind_eq_ok.mp h
    obtain ⟨later, others, h⟩ := bind_eq_ok.mp h
    obtain ⟨text, -, own⟩ := bind_eq_ok.mp own
    cases own
    cases h
    obtain ⟨names, sources⟩ := ih others
    exact ⟨by rw [List.map_cons, names]; rfl, by rw [List.map_cons, sources]; rfl⟩

theorem shows_of_handlerOf {handler : Handler} (h : (handlerOf signature).result = .ok handler) :
    Shows signature handler := by
  obtain ⟨body, hb, h⟩ := bind_eq_ok.mp h
  obtain ⟨inputs, hi, h⟩ := bind_eq_ok.mp h
  obtain ⟨answer, ha, h⟩ := bind_eq_ok.mp h
  cases h
  obtain ⟨names, sources⟩ := shows_of_mapM hi
  have bodies : (body.map fun input => input.name) = (signature.body.map fun _ => "body") ∧
      ∀ input ∈ body, input.source = "req.body" := by
    cases found : signature.body with
    | none =>
      rw [found] at hb
      cases hb
      exact ⟨rfl, fun _ h => by cases h⟩
    | some spec =>
      rw [found] at hb
      obtain ⟨input, own, hb⟩ := bind_eq_ok.mp hb
      obtain ⟨text, -, own⟩ := bind_eq_ok.mp own
      cases own
      cases hb
      exact ⟨rfl, fun _ h => by cases h; rfl⟩
  refine ⟨bodies.1, names, sources, bodies.2, ?_⟩
  cases found : signature.response with
  | none =>
    rw [found] at ha
    cases ha
    rfl
  | some response =>
    rw [found, answerOf] at ha
    split at ha
    · obtain ⟨printed, -, ha⟩ := bind_eq_ok.mp ha
      cases ha
      rfl
    · cases ha
      rfl

/-- The identifiers that a handler declares: that of the body, those of the parameters and that of
the result. -/
theorem declared_eq {handler : Handler} (shown : Shows signature handler) :
    handler.declared = (signature.body.toList.map fun _ => "body")
      ++ (signature.parameters.map fun p => Code.boundName p.name)
      ++ signature.response.toList.map fun _ => "result" := by
  have bound : (handler.inputs.map fun input => Code.boundName input.name) =
      ((handler.body.map fun input => input.name).toList
        ++ handler.parameters.map fun input => input.name).map Code.boundName := by
    simp [Handler.inputs, Option.toList_map, Function.comp_def]
  have body : Code.boundName "body" = "body" := by decide
  rw [Handler.declared, bound, shown.body, shown.names, shown.answer, Option.toList_map,
    List.map_append, List.map_map, List.map_map]
  simp only [Function.comp_def, body, resultName]

theorem nodup_declared_iff {bound : List String} {body response : Option BodySpec} :
    ((body.toList.map fun _ => "body") ++ bound
      ++ response.toList.map fun _ => "result").Nodup ↔
      bound.Nodup ∧ (body.isSome → "body" ∉ bound) ∧ (response.isSome → "result" ∉ bound) := by
  cases body <;> cases response <;> simp [List.nodup_append] <;> grind

/-- Every text is read from the request. -/
theorem source_of_shows {handler : Handler} (shown : Shows signature handler) {input : Input}
    (hi : input ∈ handler.inputs) : (Code.words input.source).head? = some "req" := by
  rcases List.mem_append.mp hi with hi | hi
  · rw [shown.bodySource input (Option.mem_toList.mp hi)]
    decide
  · have listed : input.source ∈ signature.parameters.map sourceOf :=
      shown.sources ▸ List.mem_map_of_mem hi
    obtain ⟨p, -, same⟩ := List.mem_map.mp listed
    rw [← same]
    exact words_sourceOf p

theorem mem_notes_routeLines {i : Code.Import} :
    i ∈ (routeLines signature).notes ↔ i ∈ (handlerOf signature).notes := by
  rw [routeLines_handlerOf, mem_notes_bind]
  simp

/-- A handler refers to the request, if it reads anything, and to what it imports. -/
theorem refers_iff (sound : signature.Sound registry) (spelled : Spelled signature)
    {handler : Handler} (h : (handlerOf signature).result = .ok handler)
    (reads : handler.inputs ≠ []) {name : String} :
    handler.Refers registry name ↔
      name = "req" ∨ ∃ i ∈ (routeLines signature).notes, name = i.name := by
  have shown := shows_of_handlerOf h
  have imports := handlerOf_exact sound spelled handler h
  obtain ⟨_, -, -, runs⟩ := handlerOf_delivers sound
  constructor
  · rintro (⟨input, hi, first⟩ | ⟨runtime, called⟩)
    · rw [source_of_shows shown hi] at first
      exact .inl (Option.some.inj first).symm
    · obtain ⟨i, hi, same⟩ := List.mem_map.mp ((imports name runtime).mpr called)
      exact .inr ⟨i, mem_notes_routeLines.mpr hi, same.symm⟩
  · rintro (rfl | ⟨i, hi, rfl⟩)
    · obtain ⟨input, rest, first⟩ := List.exists_cons_of_ne_nil reads
      have hi : input ∈ handler.inputs := first ▸ List.mem_cons_self
      exact .inl ⟨input, hi, source_of_shows shown hi⟩
    · have noted := mem_notes_routeLines.mp hi
      have runtime := (runs i noted).name
      exact .inr ⟨runtime, (imports i.name runtime).mp (List.mem_map_of_mem noted)⟩

theorem usable_of_spelled (sound : signature.Sound registry) (spelled : Spelled signature)
    {handler : Handler} (h : (handlerOf signature).result = .ok handler) :
    handler.Usable registry ↔ signature.Unshadowed := by
  have shown := shows_of_handlerOf h
  -- whatever is said of the names of the inputs is said of those of the parameters
  have named : ∀ P : String → Prop, (∀ input ∈ handler.parameters, P input.name) ↔
      ∀ p ∈ signature.parameters, P p.name := by
    intro P
    rw [← List.forall_mem_map (f := fun p : ParameterSpec => p.name), ← shown.names,
      List.forall_mem_map]
  have refers : ∀ input ∈ handler.parameters,
      (handler.Refers registry (Code.boundName input.name) ↔ _) := fun input hi =>
    refers_iff sound spelled h (List.ne_nil_of_mem (List.mem_append_right _ hi))
  constructor
  · intro usable
    have declared := usable.distinct
    rw [declared_eq shown, nodup_declared_iff] at declared
    obtain ⟨distinct, body, result⟩ := declared
    have free := (named fun name => ¬ (Code.boundName name = "req" ∨
      ∃ i ∈ (routeLines signature).notes, Code.boundName name = i.name)).mp fun input hi =>
        (refers input hi).not.mp (usable.free input hi)
    exact ⟨distinct, fun given p hp same => body given (same ▸ List.mem_map_of_mem hp),
      fun given p hp same => result given (same ▸ List.mem_map_of_mem hp),
      fun p hp same => free p hp (.inl same), fun p hp i hi same => free p hp (.inr ⟨i, hi, same⟩)⟩
  · intro unshadowed
    refine ⟨?_, fun input hi hides => ?_⟩
    · rw [declared_eq shown, nodup_declared_iff]
      refine ⟨unshadowed.distinct, fun given hm => ?_, fun given hm => ?_⟩
      · obtain ⟨p, hp, same⟩ := List.mem_map.mp hm
        exact unshadowed.body given p hp same
      · obtain ⟨p, hp, same⟩ := List.mem_map.mp hm
        exact unshadowed.result given p hp same
    · have free := (named fun name => Code.boundName name ≠ "req" ∧
        ∀ i ∈ (routeLines signature).notes, Code.boundName name ≠ i.name).mpr fun p hp =>
          ⟨unshadowed.request p hp, unshadowed.imported p hp⟩
      rcases (refers input hi).mp hides with same | ⟨i, noted, same⟩
      · exact (free input hi).1 same
      · exact (free input hi).2 i noted same

/-- **Which handlers have usable names.**  Every signature has a handler, and its route is written
from it and declares its variables.  They are different, and no parameter hides a name that the
expressions refer to, exactly if no parameter binds the name of another, that of a body or a result
that is there, `req`, or the name of an imported function.  When the signature is built, the names
of other parameters and of the body are ruled out for all names without a line feed. -/
theorem usable_iff {group : TagGroup} {signatures : List Signature}
    (h : (Signature.ofGroup registry group).result = .ok signatures) :
    ∀ signature ∈ signatures, ∃ handler, (handlerOf signature).result = .ok handler ∧
      (routeLines signature).result = .ok (handler.lines signature) ∧
      (handler.lines signature).filterMap declaredName? = handler.declared ∧
      (handler.Usable registry ↔ signature.Unshadowed) ∧
      ((∀ p ∈ signature.parameters, '\n' ∉ p.name.toList) →
        (signature.parameters.map fun p => Code.boundName p.name).Nodup ∧
        ∀ p ∈ signature.parameters, Code.boundName p.name ≠ "body") := by
  intro signature member
  obtain ⟨⟨allSound, -⟩, -⟩ := Signature.ofGroup_yields signatures h
  have sound := allSound signature member
  obtain ⟨tag, made⟩ := Signature.made_of_ofGroup h
  have spelled := spelled_of_made (made signature member)
  have matching := Signature.matching_of_ofGroup h signature member
  obtain ⟨handler, found, -, -⟩ := handlerOf_delivers sound
  refine ⟨handler, found, ?_, declarations_lines signature handler,
    usable_of_spelled sound spelled found, fun noFeed => ?_⟩
  · rw [routeLines_handlerOf, result_bind, found]
    rfl
  · have bound : ∀ p ∈ signature.parameters, Code.boundName p.name = p.name := fun p hp =>
      Code.boundName_of_no_feed (spelled.parameters p hp) (noFeed p hp)
    refine ⟨?_, fun p hp same => ?_⟩
    · rw [List.map_congr_left bound]
      exact matching.distinct
    · rw [bound p hp] at same
      exact (matching.fit p hp).name (same ▸ by decide)

/-- The paths with one operation that finds a text by a query parameter with the given name. -/
def searchPaths (name : String) : Members :=
  let text := Value.map [(.text "type", .text "string")]
  [(.text "/search", .map
    [(.text "get", .map
      [(.text "operationId", .text "search"),
        (.text "tags", .list [.text "texts"]),
        (.text "parameters", .list [.map
          [(.text "name", .text name), (.text "in", .text "query"), (.text "schema", text)]]),
        (.text "responses", .map [(.text "200", .map
          [(.text "description", .text "Found."), (.text "content", .map
            [(.text "application/json", .map [(.text "schema", text)])])])])])])]

/-- What the only handler for `searchPaths` declares, and whether the names are free. -/
def searchNames (name : String) : Option (List String × Bool) :=
  (Operation.grouped (searchPaths name) [.map [(.text "name", .text "texts")]]).toOption.bind
    fun groups => groups.head?.bind fun group =>
      (Signature.ofGroup ⟨[]⟩ group).result.toOption.bind fun signatures =>
        signatures.head?.bind fun signature => (handlerOf signature).result.toOption.map
          fun handler => (handler.declared, decide signature.Unshadowed)

/-- What is found for the only handler is said of a handler of an accepted document. -/
theorem exists_of_searchNames {name : String} {names : List String} {free : Bool}
    (h : searchNames name = some (names, free)) :
    ∃ groups group signatures signature handler,
      Operation.grouped (searchPaths name) [.map [(.text "name", .text "texts")]] = .ok groups ∧
      group ∈ groups ∧ (Signature.ofGroup ⟨[]⟩ group).result = .ok signatures ∧
      signature ∈ signatures ∧ (handlerOf signature).result = .ok handler ∧
      handler.declared = names ∧ (signature.Unshadowed ↔ free = true) := by
  obtain ⟨groups, grouped, h⟩ := Option.bind_eq_some_iff.mp h
  obtain ⟨group, first, h⟩ := Option.bind_eq_some_iff.mp h
  obtain ⟨signatures, built, h⟩ := Option.bind_eq_some_iff.mp h
  obtain ⟨signature, only, h⟩ := Option.bind_eq_some_iff.mp h
  obtain ⟨handler, written, h⟩ := Option.map_eq_some_iff.mp h
  obtain ⟨declared, unshadowed⟩ := Prod.mk.inj h
  refine ⟨groups, group, signatures, signature, handler, Except.eq_ok_of_toOption grouped,
    List.mem_of_mem_head? first, Except.eq_ok_of_toOption built, List.mem_of_mem_head? only,
    Except.eq_ok_of_toOption written, declared, ?_⟩
  rw [← unshadowed, decide_eq_true_iff]

theorem usable_iff_text :
    ∃ groups group signatures signature handler,
      Operation.grouped (searchPaths "text") [.map [(.text "name", .text "texts")]] = .ok groups ∧
      group ∈ groups ∧ (Signature.ofGroup ⟨[]⟩ group).result = .ok signatures ∧
      signature ∈ signatures ∧ (handlerOf signature).result = .ok handler ∧
      handler.declared = ["text", "result"] ∧ handler.Usable ⟨[]⟩ := by
  have found : searchNames "text" = some (["text", "result"], true) := by decide +kernel
  obtain ⟨groups, group, signatures, signature, handler, grouped, first, built, member, written,
    declared, unshadowed⟩ := exists_of_searchNames found
  obtain ⟨other, same, -, -, usable, -⟩ := usable_iff built signature member
  cases written.symm.trans same
  exact ⟨groups, group, signatures, signature, handler, grouped, first, built, member, written,
    declared, usable.mpr (unshadowed.mpr rfl)⟩

/-- A parameter with the name of the result is declared beside it. -/
theorem not_usable_result :
    ∃ groups group signatures signature handler,
      Operation.grouped (searchPaths "result") [.map [(.text "name", .text "texts")]] =
        .ok groups ∧
      group ∈ groups ∧ (Signature.ofGroup ⟨[]⟩ group).result = .ok signatures ∧
      signature ∈ signatures ∧ (handlerOf signature).result = .ok handler ∧
      handler.declared = ["result", "result"] ∧ ¬ handler.Usable ⟨[]⟩ := by
  have found : searchNames "result" = some (["result", "result"], false) := by decide +kernel
  obtain ⟨groups, group, signatures, signature, handler, grouped, first, built, member, written,
    declared, -⟩ := exists_of_searchNames found
  refine ⟨groups, group, signatures, signature, handler, grouped, first, built, member, written,
    declared, fun usable => ?_⟩
  have distinct := usable.distinct
  rw [declared] at distinct
  exact absurd distinct (by decide)

end Controller
end TypedApi
