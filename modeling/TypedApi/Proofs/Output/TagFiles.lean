import Mathlib.Data.List.Forall2
import TypedApi.Output.Client
import TypedApi.Output.Controller
import TypedApi.Output.Index
import TypedApi.Proofs.Operation.Signature
import TypedApi.Proofs.Output.Model

/-! # The files of a tag

The signatures of a tag are all that its two files depend on: once they are found, both classes can
be written (`Controller.lines_delivers`, `Client.lines_delivers`).  The controller declares and the
client defines one method for each signature, under the same heading but for the last argument of
the client.
-/
namespace TypedApi

/-- The heading of a method, with some further arguments after those of the signature. -/
def Signature.heading (signature : Signature) (further : List String) : String :=
  signature.methodName ++ "(" ++ Text.commaList (signature.arguments ++ further) ++ "): Promise<"
    ++ signature.returnType ++ ">"

/-- Whether a tag has operations. -/
def TagGroup.isUsed (group : TagGroup) : Bool := !group.operations.isEmpty

/-- The lines of the description of a tag. -/
def TagGroup.descriptionLines (group : TagGroup) : List String :=
  (group.description.map Text.descriptionLines).getD []

open Noted

section Controllers
variable {registry : Registry} {signature : Signature}

/-! ## Controllers -/

namespace Controller

/-- The lines that declare the method of a signature on the server. -/
def Declares (signature : Signature) (lines : List String) : Prop :=
  lines = Code.docComment "\t" (signature.docLines [])
    ++ ["\tabstract " ++ signature.heading [] ++ ";", ""]

/-- The lines before the methods of a controller. -/
def opening (tag : Identifier) (group : TagGroup) : List String :=
  Code.descriptionComment "" ((tag.display ++ " api.") :: "" :: group.descriptionLines)
    ++ ["export abstract class " ++ tag.upperCamel ++ "Api extends BaseApi \x7b"]

/-- The lines after the methods of a controller, which bind the given routes. -/
def closing (routes : List String) : List String :=
  ["\t/** Register all endpoints. */", "\tregisterEndpoints(app: Express): void \x7b"] ++ routes
    ++ ["\t\x7d", "\x7d"]

/-- The lines of a controller that declares a method for each signature. -/
def Written (tag : Identifier) (group : TagGroup) (signatures : List Signature)
    (lines : List String) : Prop :=
  ∃ methods routes, lines = opening tag group ++ methods.flatten ++ closing routes
    ∧ List.Forall₂ Declares signatures methods

/-- What a controller imports. -/
def Imports (registry : Registry) (i : Code.Import) : Prop :=
  registry.Supplies i ∨ i ∈ commonImports

theorem forall₂_declaration (signatures : List Signature) :
    List.Forall₂ Declares signatures (signatures.map declaration) := by
  rw [List.forall₂_map_right_iff, List.forall₂_same]
  intro signature _
  simp [Declares, declaration, Signature.heading, String.append_assoc]

theorem bodyLines_delivers {body : BodySpec} (known : body.slot.Known registry) :
    Delivers registry.Supplies (fun _ => True) (bodyLines body) :=
  (Slot.fromJson_delivers known _ _).bind fun _ _ => delivers_pure trivial

theorem parameterLine_delivers {parameter : ParameterSpec} (sound : parameter.Sound registry) :
    Delivers registry.Supplies (fun _ => True) (parameterLine parameter) := by
  unfold parameterLine
  simp only
  exact (Slot.fromParam_delivers sound.known sound.readable _ _).bind
    fun _ _ => delivers_pure trivial

theorem parameterLines_delivers {parameters : List ParameterSpec}
    (sound : ∀ parameter ∈ parameters, parameter.Sound registry) :
    Delivers registry.Supplies (fun _ => True) (parameterLines parameters) := by
  induction parameters with
  | nil => exact delivers_pure trivial
  | cons parameter rest ih =>
    refine (parameterLine_delivers (sound parameter List.mem_cons_self)).bind fun _ _ => ?_
    exact (ih fun p hp => sound p (List.mem_cons_of_mem _ hp)).bind
      fun _ _ => delivers_pure trivial

theorem callLines_delivers (sound : signature.Sound registry) :
    Delivers registry.Supplies (fun _ => True) (callLines signature) := by
  unfold callLines
  split
  · exact delivers_pure trivial
  · rename_i response found
    simp only
    split
    · exact (Slot.toJson_delivers (sound.response response found) _).bind
        fun _ _ => delivers_pure trivial
    · exact delivers_pure trivial

theorem routeLines_delivers (sound : signature.Sound registry) :
    Delivers registry.Supplies (fun _ => True) (routeLines signature) := by
  have rest : ∀ written : List String → List String → List String,
      Delivers registry.Supplies (fun _ => True) (do
        let parameters ← parameterLines signature.parameters
        let call ← callLines signature
        return written parameters call) := fun _ =>
    (parameterLines_delivers sound.parameters).bind
      fun _ _ => (callLines_delivers sound).bind fun _ _ => delivers_pure trivial
  unfold routeLines
  simp only
  split
  · exact (delivers_pure (Q := fun _ => True) trivial).bind fun _ _ => rest _
  · rename_i body found
    exact (bodyLines_delivers (sound.body body found)).bind fun _ _ => rest _

/-- Every route of sound signatures can be written. -/
theorem allRouteLines_delivers {signatures : List Signature}
    (sound : ∀ signature ∈ signatures, signature.Sound registry) :
    Delivers registry.Supplies (fun _ => True) (allRouteLines signatures) := by
  induction signatures with
  | nil => exact delivers_pure trivial
  | cons signature rest ih =>
    refine (routeLines_delivers (sound signature List.mem_cons_self)).bind fun _ _ => ?_
    exact (ih fun s hs => sound s (List.mem_cons_of_mem _ hs)).bind
      fun _ _ => delivers_pure trivial

/-- The routes note what each of them notes. -/
theorem mem_notes_allRouteLines {signatures : List Signature}
    (sound : ∀ signature ∈ signatures, signature.Sound registry) {i : Code.Import} :
    i ∈ (allRouteLines signatures).notes ↔
      ∃ signature ∈ signatures, i ∈ (routeLines signature).notes := by
  induction signatures with
  | nil => simp [allRouteLines]
  | cons signature rest ih =>
    obtain ⟨own, later⟩ := List.forall_mem_cons.mp sound
    obtain ⟨lines, hl, -⟩ := routeLines_delivers own
    obtain ⟨others, ho, -⟩ := allRouteLines_delivers later
    rw [allRouteLines, notes_bind_of_ok hl, notes_bind_of_ok ho, pure_notes, List.append_nil,
      List.mem_append, ih later, List.exists_mem_cons_iff]

theorem declares_of_written {tag : Identifier} {group : TagGroup} {signatures : List Signature}
    {lines : List String} (h : Written tag group signatures lines)
    (plain : ∀ c ∈ tag.upperCamel.toList, Code.isNamePart c = true) :
    Code.Declares lines (tag.upperCamel ++ "Api") := by
  have suffix : ∀ c ∈ "Api".toList, Code.isNamePart c = true :=
    List.all_eq_true.mp (by decide)
  obtain ⟨methods, routes, rfl, -⟩ := h
  refine ⟨fun c hc => ?_, "export abstract class ", by simp [Code.exportLeads],
    "export abstract class " ++ tag.upperCamel ++ "Api extends BaseApi \x7b", by simp [opening], ?_⟩
  · rw [String.toList_append] at hc
    exact (List.mem_append.mp hc).elim (plain c) (suffix c)
  · simp only [Code.exportStart, String.toList_append, List.append_assoc,
      List.prefix_append_right_inj]
    exact ⟨_, rfl⟩

theorem signatures_of_lines {tag : Identifier} {group : TagGroup} {ls : List String}
    (h : (lines registry tag group).result = .ok ls) :
    ∃ signatures, (Signature.ofGroup registry group).result = .ok signatures := by
  obtain ⟨_, -, h⟩ := bind_eq_ok.mp h
  obtain ⟨signatures, hs, -⟩ := bind_eq_ok.mp h
  exact ⟨signatures, hs⟩

/-- **The signatures are enough for the controller.** -/
theorem lines_delivers (tag : Identifier) {group : TagGroup} {signatures : List Signature}
    (h : (Signature.ofGroup registry group).result = .ok signatures) :
    Delivers (Imports registry) (Written tag group signatures) (lines registry tag group) := by
  obtain ⟨⟨sound, -⟩, supplies⟩ := Signature.ofGroup_yields signatures h
  unfold lines
  refine (delivers_forM fun i hi => delivers_note (.inr hi)).bind fun _ _ => ?_
  have found : Delivers (Imports registry) (· = signatures) (Signature.ofGroup registry group) :=
    ⟨signatures, h, rfl, fun i hi => .inl (supplies i hi)⟩
  refine found.bind fun s hs => ?_
  subst hs
  refine ((allRouteLines_delivers sound).widen fun _ => .inl).bind fun routes _ => delivers_pure ?_
  refine ⟨s.map declaration, routes, ?_, forall₂_declaration s⟩
  simp only [opening, closing, TagGroup.descriptionLines, List.flatMap_def, List.append_assoc]

end Controller
end Controllers

section Clients
variable {registry : Registry} {signature : Signature}

/-! ## Clients -/

namespace Client

/-- The last argument of every method of a client. -/
def overrideArgument : String := "overrideConfig: Partial<ClientConfig> = \x7b\x7d"

/-- The lines that define the method of a signature on the client. -/
def Defines (signature : Signature) (lines : List String) : Prop :=
  ∃ request, lines =
    Code.docComment "\t" (signature.docLines [("overrideConfig", overrideConfigText)])
      ++ ("\t" ++ signature.heading [overrideArgument] ++ " \x7b") :: request

/-- The lines before the methods of a client. -/
def opening (tag : Identifier) (group : TagGroup) : List String :=
  Code.descriptionComment "" ((tag.display ++ " client.") :: "" :: group.descriptionLines)
    ++ ["export class " ++ tag.upperCamel ++ "Client extends BaseClient \x7b"]

/-- The lines of a client that defines a method for each signature. -/
def Written (tag : Identifier) (group : TagGroup) (signatures : List Signature)
    (lines : List String) : Prop :=
  ∃ methods, lines = opening tag group ++ [""].intercalate methods ++ ["\x7d"]
    ∧ List.Forall₂ Defines signatures methods

/-- What a client imports. -/
def Imports (registry : Registry) (i : Code.Import) : Prop :=
  registry.Supplies i ∨ i ∈ ⟨baseModule, "UrlBuilder"⟩ :: commonImports

/-- Whether the URL of an operation is built from parts. -/
def buildsUrl (signature : Signature) : Bool :=
  signature.operation.url.hasParameters || signature.parameters.any (·.location = .query)

/-- What a method imports. -/
def MethodImports (registry : Registry) (signature : Signature) (i : Code.Import) : Prop :=
  registry.Supplies i ∨ (buildsUrl signature = true ∧ i = ⟨baseModule, "UrlBuilder"⟩)

/-- **Every path parameter is there.**  The template of a sound signature names none that the
signature lacks. -/
theorem pathSlot_of_sound (sound : signature.Sound registry) {name : String}
    (h : name ∈ signature.operation.url.parameterNames) :
    ∃ slot, pathSlot signature name = .ok slot ∧ slot.Known registry := by
  obtain ⟨parameter, hp, path, rfl⟩ := sound.template name h
  unfold pathSlot
  -- the last parameter of that name wins, which need not be the one that is known
  cases found : signature.parameters.reverse.find?
      (fun p => p.location = .path && p.name == parameter.name) with
  | none =>
    have := List.find?_eq_none.mp found parameter (List.mem_reverse.mpr hp)
    simp [path] at this
  | some other =>
    have ho := List.mem_reverse.mp (List.mem_of_find?_eq_some found)
    exact ⟨other.slot, rfl, (sound.parameters other ho).known⟩

theorem pathCalls_delivers (sound : signature.Sound registry) {parts : List PathPart}
    (h : ∀ name, .parameter name ∈ parts → name ∈ signature.operation.url.parameterNames) :
    Delivers registry.Supplies (fun _ => True) (pathCalls signature parts) := by
  induction parts with
  | nil => exact delivers_pure trivial
  | cons part rest ih =>
    have later := ih fun name hn => h name (List.mem_cons_of_mem part hn)
    cases part with
    | literal text => exact later.bind fun _ _ => delivers_pure trivial
    | parameter name =>
      obtain ⟨slot, found, known⟩ := pathSlot_of_sound sound (h name List.mem_cons_self)
      rw [pathCalls, found]
      refine (delivers_pure (Q := (· = slot)) rfl).bind fun s hs => ?_
      subst hs
      exact (Slot.toJson_delivers known name).bind
        fun _ _ => later.bind fun _ _ => delivers_pure trivial

theorem queryCalls_delivers {parameters : List ParameterSpec}
    (sound : ∀ parameter ∈ parameters, parameter.Sound registry) :
    Delivers registry.Supplies (fun _ => True) (queryCalls parameters) := by
  induction parameters with
  | nil => exact delivers_pure trivial
  | cons parameter rest ih =>
    refine (Slot.toJson_delivers (sound parameter List.mem_cons_self).known _).bind fun _ _ => ?_
    exact (ih fun p hp => sound p (List.mem_cons_of_mem _ hp)).bind
      fun _ _ => delivers_pure trivial

theorem mem_parameterNames {template : PathTemplate} {name : String}
    (h : .parameter name ∈ template.parts) : name ∈ template.parameterNames :=
  List.mem_filterMap.mpr ⟨_, h, rfl⟩

/-- A URL that is built imports what builds it. -/
theorem mem_notes_urlExpression (builds : buildsUrl signature = true) :
    ⟨baseModule, "UrlBuilder"⟩ ∈ (urlExpression signature).notes := by
  unfold urlExpression
  simp only
  split
  · next plain =>
    simp [buildsUrl] at builds plain
    grind
  · exact mem_notes_bind.mpr (.inl (List.mem_singleton_self _))

theorem urlExpression_delivers (sound : signature.Sound registry) :
    Delivers (MethodImports registry signature) (fun _ => True) (urlExpression signature) := by
  unfold urlExpression
  simp only
  split
  · exact delivers_pure trivial
  · next built =>
    have builds : buildsUrl signature = true := by
      simp [buildsUrl] at built ⊢
      grind
    refine (delivers_note (.inr ⟨builds, rfl⟩)).bind fun _ _ => ?_
    refine ((pathCalls_delivers sound fun _ => mem_parameterNames).widen
      fun _ => .inl).bind fun _ _ => ?_
    refine ((queryCalls_delivers fun p hp =>
      sound.parameters p (List.mem_of_mem_filter hp)).widen fun _ => .inl).bind fun _ _ => ?_
    exact delivers_pure trivial

theorem bodyLine_delivers {body : BodySpec} (known : body.slot.Known registry) :
    Delivers registry.Supplies (fun _ => True) (bodyLine body) :=
  (Slot.toJson_delivers known _).bind fun _ _ => delivers_pure trivial

theorem responseLine_delivers {response : BodySpec} (known : response.slot.Known registry) :
    Delivers registry.Supplies (fun _ => True) (responseLine response) :=
  (Slot.fromJson_delivers known _ _).bind fun _ _ => delivers_pure trivial

theorem methodLines_delivers (sound : signature.Sound registry) :
    Delivers (MethodImports registry signature) (Defines signature) (methodLines signature) := by
  refine (urlExpression_delivers sound).bind fun url _ => ?_
  refine ((delivers_mapM fun body hb =>
    bodyLine_delivers (sound.body body (Option.mem_toList.mp hb))).widen fun _ => .inl).bind
      fun body _ => ?_
  refine ((delivers_mapM fun response hr =>
    responseLine_delivers (sound.response response (Option.mem_toList.mp hr))).widen
      fun _ => .inl).bind fun response _ => delivers_pure ?_
  simp only [Defines, Signature.heading, overrideArgument, List.cons_append, List.append_assoc,
    String.append_assoc]
  exact ⟨_, rfl⟩

theorem MethodImports.imports {i : Code.Import} (h : MethodImports registry signature i) :
    Imports registry i :=
  h.imp id fun ⟨_, same⟩ => same ▸ List.mem_cons_self

theorem allMethodLines_cons_cons (signature next : Signature) (rest : List Signature) :
    allMethodLines (signature :: next :: rest) = do
      let lines ← methodLines signature
      let later ← allMethodLines (next :: rest)
      return lines ++ "" :: later := rfl

/-- Every method of sound signatures can be written, under the heading of its signature. -/
theorem allMethodLines_delivers {signatures : List Signature}
    (sound : ∀ signature ∈ signatures, signature.Sound registry) :
    Delivers (Imports registry)
      (fun lines => ∃ methods, lines = [""].intercalate methods
        ∧ List.Forall₂ Defines signatures methods)
      (allMethodLines signatures) := by
  fun_induction allMethodLines signatures with
  | case1 => exact delivers_pure ⟨[], rfl, .nil⟩
  | case2 signature =>
    obtain ⟨lines, hl, defines, notes⟩ :=
      (methodLines_delivers (sound signature List.mem_cons_self)).widen
        fun _ => MethodImports.imports
    exact ⟨lines, hl, ⟨[lines], by simp, .cons defines .nil⟩, notes⟩
  | case3 signature rest nonempty ih =>
    have own := (methodLines_delivers (sound signature List.mem_cons_self)).widen
      fun _ => MethodImports.imports
    refine own.bind fun lines defines => ?_
    refine (ih fun s hs => sound s (List.mem_cons_of_mem _ hs)).bind fun later hl => ?_
    obtain ⟨methods, rfl, all⟩ := hl
    refine delivers_pure ⟨lines :: methods, ?_, .cons defines all⟩
    -- an empty line goes between methods only
    cases all with
    | nil => exact absurd rfl nonempty
    | cons _ _ => simp [List.intercalate_cons_cons]

/-- The methods note what each of them notes. -/
theorem mem_notes_allMethodLines {signatures : List Signature}
    (sound : ∀ signature ∈ signatures, signature.Sound registry) {i : Code.Import} :
    i ∈ (allMethodLines signatures).notes ↔
      ∃ signature ∈ signatures, i ∈ (methodLines signature).notes := by
  induction signatures with
  | nil => simp [allMethodLines]
  | cons signature rest ih =>
    obtain ⟨own, later⟩ := List.forall_mem_cons.mp sound
    cases rest with
    | nil => simp [allMethodLines]
    | cons next rest =>
      obtain ⟨lines, hl, -⟩ := methodLines_delivers own
      obtain ⟨others, ho, -⟩ := allMethodLines_delivers later
      rw [allMethodLines_cons_cons, notes_bind_of_ok hl, notes_bind_of_ok ho, pure_notes,
        List.append_nil, List.mem_append, ih later, List.exists_mem_cons_iff _ signature]

theorem declares_of_written {tag : Identifier} {group : TagGroup} {signatures : List Signature}
    {lines : List String} (h : Written tag group signatures lines)
    (plain : ∀ c ∈ tag.upperCamel.toList, Code.isNamePart c = true) :
    Code.Declares lines (tag.upperCamel ++ "Client") := by
  have suffix : ∀ c ∈ "Client".toList, Code.isNamePart c = true :=
    List.all_eq_true.mp (by decide)
  obtain ⟨methods, rfl, -⟩ := h
  refine ⟨fun c hc => ?_, "export class ", by simp [Code.exportLeads],
    "export class " ++ tag.upperCamel ++ "Client extends BaseClient \x7b", by simp [opening], ?_⟩
  · rw [String.toList_append] at hc
    exact (List.mem_append.mp hc).elim (plain c) (suffix c)
  · simp only [Code.exportStart, String.toList_append, List.append_assoc,
      List.prefix_append_right_inj]
    exact ⟨_, rfl⟩

theorem signatures_of_lines {tag : Identifier} {group : TagGroup} {ls : List String}
    (h : (lines registry tag group).result = .ok ls) :
    ∃ signatures, (Signature.ofGroup registry group).result = .ok signatures := by
  obtain ⟨_, -, h⟩ := bind_eq_ok.mp h
  obtain ⟨signatures, hs, -⟩ := bind_eq_ok.mp h
  exact ⟨signatures, hs⟩

/-- **The signatures are enough for the client.** -/
theorem lines_delivers (tag : Identifier) {group : TagGroup} {signatures : List Signature}
    (h : (Signature.ofGroup registry group).result = .ok signatures) :
    Delivers (Imports registry) (Written tag group signatures) (lines registry tag group) := by
  obtain ⟨⟨sound, -⟩, supplies⟩ := Signature.ofGroup_yields signatures h
  unfold lines
  refine (delivers_forM fun i hi =>
    delivers_note (.inr (List.mem_cons_of_mem _ hi))).bind fun _ _ => ?_
  have found : Delivers (Imports registry) (· = signatures) (Signature.ofGroup registry group) :=
    ⟨signatures, h, rfl, fun i hi => .inl (supplies i hi)⟩
  refine found.bind fun s hs => ?_
  subst hs
  refine (allMethodLines_delivers sound).bind fun lines hl => ?_
  obtain ⟨methods, rfl, defines⟩ := hl
  exact delivers_pure ⟨methods, rfl, defines⟩

end Client
end Clients

/-! ## The index -/

namespace Index

/-- The lines of the index of a mode. -/
def lines (mode : Mode) (tags : List Identifier) : Emission (List String) :=
  match mode with
  | .api => registerLines tags
  | .client => clientsLines tags

/-- The class that the file of a tag exports. -/
def classImport (mode : Mode) (tag : Identifier) : Code.Import :=
  match mode with
  | .api => ⟨.generated (some .api) tag.kebab, tag.upperCamel ++ "Api"⟩
  | .client => ⟨.generated (some .client) tag.kebab, tag.upperCamel ++ "Client"⟩

/-- What the index of a mode imports besides the classes of the tags. -/
def commonImport : Mode → Code.Import
  | .api => ⟨.package "express", "Express"⟩
  | .client => ⟨.generated none "base-client", "ClientConfig"⟩

/-- The index can be written for any tags. -/
theorem lines_delivers (mode : Mode) (tags : List Identifier) :
    Delivers (fun i => i = commonImport mode ∨ ∃ tag ∈ tags, i = classImport mode tag)
      (fun _ => True) (lines mode tags) := by
  have classes : Delivers (fun i => i = commonImport mode ∨ ∃ tag ∈ tags, i = classImport mode tag)
      (fun _ => True) (tags.forM fun tag => note (classImport mode tag)) :=
    delivers_forM fun tag ht => delivers_note (.inr ⟨tag, ht, rfl⟩)
  cases mode with
  | api | client =>
    exact (delivers_note (.inl rfl)).bind
      fun _ _ => classes.bind fun _ _ => delivers_pure trivial

end Index
end TypedApi
