import TypedApi.Generation
import TypedApi.Proofs.Output.TagFiles

/-! # Server and client agree

A server and its clients are generated by separate runs from one document.  Both runs fail alike or
both succeed, and then they share the models, and the files of each tag offer the same methods
(`generate_alike`).  The two modes part only after the signatures of a tag are found, and from
there on nothing fails.
-/
namespace TypedApi

/-- Two computations fail with the same failure, or they succeed with related results. -/
def Alike {α β : Type} (R : α → β → Prop) : Except Failure α → Except Failure β → Prop
  | .error e, .error e' => e = e'
  | .ok a, .ok b => R a b
  | _, _ => False

namespace Alike
variable {α β γ δ : Type} {R : α → β → Prop} {S : γ → δ → Prop}

/-- A computation is like itself. -/
theorem same (x : Except Failure α) : Alike (fun a b => b = a ∧ x = .ok a) x x := by
  cases x with
  | error e => rfl
  | ok a => exact ⟨rfl, rfl⟩

theorem bind {x : Except Failure α} {y : Except Failure β} {f : α → Except Failure γ}
    {g : β → Except Failure δ} (h : Alike R x y) (hf : ∀ a b, R a b → Alike S (f a) (g b)) :
    Alike S (x >>= f) (y >>= g) := by
  cases x with
  | error e =>
    cases y with
    | error e' => exact h
    | ok b => cases h
  | ok a =>
    cases y with
    | error e' => cases h
    | ok b => exact hf a b h

/-- What both sides share can be taken out. -/
theorem same_bind {x : Except Failure α} {f : α → Except Failure γ} {g : α → Except Failure δ}
    (hf : ∀ a, x = .ok a → Alike S (f a) (g a)) : Alike S (x >>= f) (x >>= g) := by
  refine (same x).bind fun a b h => ?_
  obtain ⟨rfl, hx⟩ := h
  exact hf b hx

end Alike

/-- The controller and the client of a tag: their methods are those of the same signatures, one for
each operation of the tag, in order. -/
def Counterparts (registry : Registry) (group : TagGroup) (server client : Code.SourceFile) :
    Prop :=
  ∃ tag signatures, Identifier.ofSpaced group.name = .ok tag ∧
    (Signature.ofGroup registry group).result = .ok signatures ∧
    signatures.map (·.operation) = group.operations ∧
    (∃ lines, server.Holds ("api/" ++ tag.kebab ++ ".ts") lines ∧
      Controller.Written tag group signatures lines) ∧
    ∃ lines, client.Holds ("client/" ++ tag.kebab ++ ".ts") lines ∧
      Client.Written tag group signatures lines

namespace Generation
open Noted

/-! ## The files of a tag -/

theorem controller_lines_of_error {registry : Registry} {tag : Identifier} {group : TagGroup}
    {e : Failure} (h : (Signature.ofGroup registry group).result = .error e) :
    (Controller.lines registry tag group).result = .error e := by
  have common : (Controller.commonImports.forM Noted.note).result = .ok () := rfl
  rw [Controller.lines, bind_of_ok common, bind_of_error h]

theorem client_lines_of_error {registry : Registry} {tag : Identifier} {group : TagGroup}
    {e : Failure} (h : (Signature.ofGroup registry group).result = .error e) :
    (Client.lines registry tag group).result = .error e := by
  have common : (Client.commonImports.forM Noted.note).result = .ok () := rfl
  rw [Client.lines, bind_of_ok common, bind_of_error h]

theorem tagFile_alike (registry : Registry) (group : TagGroup) :
    Alike (Counterparts registry group) (tagFile .api registry group)
      (tagFile .client registry group) := by
  refine Alike.same_bind fun tag found => ?_
  -- the signatures decide: what the two emitters do after them does not fail
  cases h : (Signature.ofGroup registry group).result with
  | error e =>
    rw [Emission.toFile_of_error (controller_lines_of_error h),
      Emission.toFile_of_error (client_lines_of_error h)]
    rfl
  | ok signatures =>
    obtain ⟨server, hs, written, -⟩ := Controller.lines_delivers tag h
    obtain ⟨client, hc, written', -⟩ := Client.lines_delivers tag h
    obtain ⟨serverFile, hsf, holds⟩ := Emission.toFile_of_ok hs
    obtain ⟨clientFile, hcf, holds'⟩ := Emission.toFile_of_ok hc
    rw [hsf, hcf]
    exact ⟨tag, signatures, found, h, (Signature.ofGroup_yields signatures h).1.2,
      ⟨server, holds, written⟩, client, holds', written'⟩

/-! ## All tags -/

/-- The controllers and the clients of some tags: the same tags in the same order. -/
structure TagsAlike (registry : Registry) (groups : List TagGroup)
    (server client : TagOutput) : Prop where
  tags : server.tags = client.tags
  files : ∃ pairs, server.files = pairs.map Prod.fst ∧ client.files = pairs.map Prod.snd ∧
    List.Forall₂ (fun group pair => Counterparts registry group pair.1 pair.2)
      (groups.filter TagGroup.isUsed) pairs

theorem tagOutput_alike (registry : Registry) (taken : List (String × String))
    (groups : List TagGroup) :
    Alike (TagsAlike registry groups) (tagOutput .api registry taken groups)
      (tagOutput .client registry taken groups) := by
  induction groups generalizing taken with
  | nil => exact ⟨rfl, [], rfl, rfl, .nil⟩
  | cons group rest ih =>
    unfold tagOutput
    -- a tag without operations has no file in either mode
    by_cases unused : group.operations.isEmpty = true
    · rw [if_pos unused, if_pos unused]
      refine (ih taken).bind fun server client later => ?_
      obtain ⟨tags, pairs, hs, hc, counterparts⟩ := later
      refine ⟨tags, pairs, hs, hc, ?_⟩
      rw [List.filter_cons_of_neg (by simp [TagGroup.isUsed, unused])]
      exact counterparts
    · rw [if_neg unused, if_neg unused]
      refine Alike.same_bind fun tag _ => Alike.same_bind fun taken _ => ?_
      refine (tagFile_alike registry group).bind fun server client own => ?_
      refine (ih taken).bind fun servers clients later => ?_
      obtain ⟨tags, pairs, hs, hc, counterparts⟩ := later
      refine ⟨congrArg (tag :: ·) tags, (server, client) :: pairs, congrArg (server :: ·) hs,
        congrArg (client :: ·) hc, ?_⟩
      rw [List.filter_cons_of_pos (by simp [TagGroup.isUsed, unused])]
      exact .cons own counterparts

/-! ## The whole output -/

theorem index_of_tags (mode : Mode) (tags : List Identifier) :
    ∃ index, Index.file mode tags = .ok index := by
  obtain ⟨lines, hl, -⟩ := Index.lines_delivers mode tags
  cases mode with
  | api | client =>
    obtain ⟨index, hi, -⟩ := Emission.toFile_of_ok hl
    exact ⟨index, hi⟩

/-- The output of the two modes for one document: the models are shared, and each tag with
operations has a controller and a client, at the same position. -/
def SameInterface (document : Value) (server client : OutputTree) : Prop :=
  ∃ parts registry groups models pairs serverIndex clientIndex,
    DocumentParts.ofDocument document = .ok parts ∧
    Registry.ofSchemas parts.schemas = .ok registry ∧
    Operation.grouped parts.paths parts.tags = .ok groups ∧
    modelFiles registry parts.schemas = .ok models ∧
    List.Forall₂ (fun group pair => Counterparts registry group pair.1 pair.2)
      ((sortedGroups groups).filter TagGroup.isUsed) pairs ∧
    server.files = models ++ pairs.map Prod.fst ++ [serverIndex] ++ Support.files .api ∧
    client.files = models ++ pairs.map Prod.snd ++ [clientIndex] ++ Support.files .client

theorem mode?_name (mode : Mode) : mode? (.text mode.name) = .ok mode := by
  rw [mode?, Mode.ofName?_name]

theorem ofParts_alike {document : Value} {parts : DocumentParts}
    (h : DocumentParts.ofDocument document = .ok parts) :
    Alike (SameInterface document) (ofParts .api parts).result (ofParts .client parts).result := by
  simp only [ofParts, result_bind, ofExcept_result, note_result, pure_result]
  refine Alike.same_bind fun registry hr => Alike.same_bind fun groups hg =>
    Alike.same_bind fun models hm => ?_
  -- the progress that is noted next is the same in both modes
  refine Alike.same_bind fun _ _ => ?_
  refine (tagOutput_alike registry [] (sortedGroups groups)).bind
    fun server client later => ?_
  obtain ⟨-, pairs, hs, hc, counterparts⟩ := later
  obtain ⟨serverIndex, hsi⟩ := index_of_tags .api server.tags
  obtain ⟨clientIndex, hci⟩ := index_of_tags .client client.tags
  rw [hsi, hci]
  refine ⟨parts, registry, groups, models, pairs, serverIndex, clientIndex, h, hr, hg, hm,
    counterparts, ?_, ?_⟩
  · rw [← hs]
  · rw [← hc]

/-- **Server and client agree.**  A document is refused in both modes, for the same reason, or in
neither.  If it is accepted, both trees start with the same models, and for the tags with
operations, in order, follow controllers and clients whose methods have the same names, arguments
and results, except that every method of a client takes one argument more. -/
theorem generate_alike (document : Value) :
    Alike (SameInterface document) (generate (.text "api") document).result
      (generate (.text "client") document).result := by
  have server : mode? (.text "api") = .ok .api := mode?_name .api
  have client : mode? (.text "client") = .ok .client := mode?_name .client
  simp only [generate, ofDocument, result_bind, ofExcept_result, server, client]
  exact Alike.same_bind fun parts h => ofParts_alike h

end Generation
end TypedApi
