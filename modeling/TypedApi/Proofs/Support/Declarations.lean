import TypedApi.Proofs.Code.Exports

/-! # The declarations of the support files

The names that generated code takes from the support files, each with the line that declares it
(`Support.helpers_standIn`, `Support.baseNames_standIn`).
-/
namespace TypedApi.Support

/-- A line of a support file that declares a name. -/
structure Declaration where
  lead : String
  name : String
  index : Nat

/-- The declaration stands where it should among some lines.  The characters of the line are bound
apart from the line, so that they need not be computed from it. -/
def Declaration.StandsIn (d : Declaration) (lines : List String) : Prop :=
  ∃ cs, lines[d.index]? = some (String.ofList cs) ∧
    (d.name.toList.all Code.isNamePart && (Code.exportStart d.lead d.name).isPrefixOf cs) = true

theorem declares_of_standsIn {d : Declaration} {lines : List String}
    (lead : d.lead ∈ Code.exportLeads) (h : d.StandsIn lines) : Code.Declares lines d.name := by
  obtain ⟨cs, hl, h⟩ := h
  simp only [Bool.and_eq_true, List.all_eq_true, List.isPrefixOf_iff_prefix] at h
  obtain ⟨plain, start⟩ := h
  refine ⟨plain, d.lead, lead, String.ofList cs, List.mem_of_getElem? hl, ?_⟩
  rw [String.toList_ofList]
  exact start

/-- The helpers that generated code may call. -/
def helpers : List Declaration :=
  [("isUndefined", 10), ("validateObject", 44), ("validateBoolean", 52),
   ("validateBooleanString", 60), ("validateNumber", 71), ("validateNumberString", 81),
   ("validateInteger", 92), ("validateIntegerString", 101), ("validateString", 135),
   ("validateDate", 175), ("validateDateTime", 195), ("printDate", 224), ("printDateTime", 230),
   ("validateArray", 250), ("validateParamArray", 266), ("validateMap", 286), ("printMap", 306),
   ("validateOneOf", 323), ("validateFirst", 344), ("printFirst", 374)].map
    fun (name, index) => ⟨"export const ", name, index⟩

/-- What generated code imports from the base class of controllers or of clients. -/
def baseNames : Mode → List Declaration
  | .api => [⟨"export abstract class ", "BaseApi", 26⟩]
  | .client => [⟨"export abstract class ", "BaseClient", 94⟩, ⟨"export type ", "ClientConfig", 4⟩,
      ⟨"export class ", "UrlBuilder", 23⟩]

/-- The name of the support file with the base class. -/
def baseFile : Mode → String
  | .api => "base-api"
  | .client => "base-client"

/-- The lines of the support file with the base class. -/
def baseLines : Mode → List String
  | .api => baseApiLines
  | .client => baseClientLines

set_option maxRecDepth 4000 in
theorem helpers_standIn : ∀ d ∈ helpers, d.StandsIn validateLines := by
  simp only [helpers, List.map_cons, List.map_nil, List.forall_mem_cons, List.not_mem_nil,
    false_imp_iff, implies_true, and_true]
  and_intros
  all_goals exact ⟨_, rfl, by decide +kernel⟩

theorem baseNames_standIn (mode : Mode) : ∀ d ∈ baseNames mode, d.StandsIn (baseLines mode) := by
  cases mode with
  | api | client =>
    simp only [baseNames, List.forall_mem_cons, List.not_mem_nil, false_imp_iff, implies_true,
      and_true]
    and_intros
    all_goals exact ⟨_, rfl, by decide +kernel⟩

end TypedApi.Support
