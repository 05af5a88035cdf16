import TypedApi.Proofs.Code.Comment
import TypedApi.Proofs.Output.Model
import TypedApi.Proofs.Schema.Layout
import TypedApi.Proofs.Text.Json

/-! # The arrays of strings in generated code

Generated code names a place by an array of strings, and the file of an enumeration lists its values
in one.  Both are JSON, and stand for exactly the strings that they were made from
(`stringArrays_exact`).
-/
namespace TypedApi
open Text (IsPrintable stringArray)

/-! ## Places -/

theorem Code.contextLiteral_none (segments : List String) :
    contextLiteral segments none = stringArray segments := rfl

/-- Behind the elements of another array stand those of the array itself. -/
theorem Code.contextLiteral_some (segments : List String) (parent : String) :
    contextLiteral segments (some parent) = "[..." ++ parent
      ++ (if segments = [] then "" else ", ") ++ Text.commaList (segments.map Text.literal)
      ++ "]" := by
  refine String.toList_inj.mp ?_
  cases segments with
  | nil => simp [contextLiteral, Text.commaList]
  | cons segment rest => simp [contextLiteral, Text.commaList, String.intercalate_cons_cons]

/-! ## Enumerations -/

/-- No line of a comment is one of code. -/
theorem Code.head?_of_mem_docComment {lines : List (Option String)} {line : String}
    (h : line ∈ docComment "" lines) :
    line.toList.head? = some '/' ∨ line.toList.head? = some ' ' := by
  rcases docComment_cases "" lines with ⟨-, none_⟩ | ⟨text, -, single⟩ | ⟨-, block⟩
  · rw [none_] at h
    cases h
  · rw [single, List.mem_singleton] at h
    subst h
    exact .inl (by simp)
  · rw [block, List.mem_cons, List.mem_append, List.mem_map, List.mem_singleton] at h
    rcases h with rfl | ⟨text, -, rfl⟩ | rfl
    · exact .inl (by decide)
    · refine .inr ?_
      unfold decorated
      split <;> simp
    · exact .inr (by decide)

namespace Model

/-- The line that declares the values of an enumeration. -/
def valuesLine (name array : String) : String :=
  "export const values" ++ name ++ ": ReadonlyArray<" ++ name ++ "> = " ++ array ++ ";"

/-- The file of an enumeration declares its values, and nothing else in their place. -/
theorem enumerationLines_values {name : String} {values description lines : List String}
    (h : (enumerationLines name values description).result = .ok lines) :
    valuesLine name (stringArray values) ∈ lines ∧
      ∀ line ∈ lines, "export const values".toList <+: line.toList →
        line = valuesLine name (stringArray values) := by
  cases h
  have own : "export const values" ++ name ++ ": ReadonlyArray<" ++ name ++ "> = ["
      ++ Text.commaList (values.map Text.literal) ++ "];" =
      valuesLine name (stringArray values) := by
    unfold valuesLine stringArray
    exact String.toList_inj.mp (by simp)
  rw [own]
  refine ⟨by simp, fun line hl start => ?_⟩
  rcases List.mem_append.mp hl with comment | code
  · obtain ⟨rest, spelled⟩ := start
    have first := Code.head?_of_mem_docComment comment
    rw [← spelled] at first
    rcases first with first | first <;> cases first
  · simp only [List.mem_cons, List.not_mem_nil, or_false] at code
    rcases code with rfl | rfl | rfl | rfl | rfl | rfl | rfl | rfl | rfl | rfl | rfl
    -- the other lines of code differ from the declaration in their first words
    all_goals first | rfl | simp at start

end Model

/-! ## Arrays and their strings -/

/-- **Arrays of strings survive.**  The array that names a place is printable ASCII and, as JSON,
the array of the given segments; behind the elements of another array it has the same elements.
The file of an enumeration has one line that declares its values, and the array in it is, as JSON,
the array of the values that the schema lists. -/
theorem stringArrays_exact :
    (∀ segments : List String,
      (∀ c ∈ (Code.contextLiteral segments none).toList, IsPrintable c) ∧
      Text.Json.array? (Code.contextLiteral segments none) = some segments ∧
      ∃ elements, Code.contextLiteral segments none = "[" ++ elements ++ "]" ∧
        ∀ parent, Code.contextLiteral segments (some parent) =
          "[..." ++ parent ++ (if segments = [] then "" else ", ") ++ elements ++ "]") ∧
    ∀ (registry : Registry) (raw : String) (name : Identifier) (schema : Value)
      (emitted : Code.SourceFile) (values : List String),
      Model.file registry raw schema = .ok emitted → Identifier.ofHumped raw = .ok name →
      classify [name.upperCamel] schema = .ok (.enumeration values) →
      (∃ (members : Members) (items : List Value), schema = .map members ∧
        members.get? "enum" = some (.list items) ∧ Schema.AreTexts items values) ∧
      ∃ lines array, emitted.Holds ("model/" ++ name.kebab ++ ".ts") lines ∧
        Model.valuesLine name.upperCamel array ∈ lines ∧
        (∀ line ∈ lines, "export const values".toList <+: line.toList →
          line = Model.valuesLine name.upperCamel array) ∧
        (∀ c ∈ array.toList, IsPrintable c) ∧
        Text.Json.array? array = some values := by
  refine ⟨fun segments => ?_, fun registry raw name schema emitted values h named shaped => ?_⟩
  · rw [Code.contextLiteral_none]
    exact ⟨Text.isPrintable_stringArray segments, Text.Json.array?_stringArray segments,
      Text.commaList (segments.map Text.literal), rfl, Code.contextLiteral_some segments⟩
  · obtain ⟨members, rfl, layout⟩ := Schema.classify_eq_ok_iff.mp shaped
    obtain ⟨-, ⟨items, listed, texts⟩, -⟩ := layout.fits
    refine ⟨⟨members, items, rfl, listed, texts⟩, ?_⟩
    obtain ⟨name', named', h⟩ := Except.bind_eq_ok.mp h
    obtain rfl := Except.ok.inj (named'.symm.trans named)
    obtain ⟨lines, hl, h⟩ := Except.bind_eq_ok.mp h
    rcases Model.lines_eq_ok hl with ⟨_, _, same, written, -⟩ | ⟨_, _, _, other, -⟩
    · rw [shaped] at same
      cases same
      obtain ⟨declared, only⟩ := Model.enumerationLines_values written
      refine ⟨lines, stringArray values, ?_, declared, only, Text.isPrintable_stringArray values,
        Text.Json.array?_stringArray values⟩
      cases h
      exact ⟨_, rfl⟩
    · rw [shaped] at other
      cases other

/-- An enumeration whose values hold what separates and closes elsewhere, and a character that takes
two units. -/
def marks : Value :=
  .map [(.text "type", .text "string"), (.text "enum", .list
    [.text "\"a\", \"b\"", .text "]", .text "\\", .text "a\nb", .text "🙂", .text ""])]

theorem stringArrays_exact_marks :
    ∃ emitted lines array,
      Model.file ⟨[("Mark", .enumeration)]⟩ "Mark" marks = .ok emitted ∧
      emitted.Holds "model/mark.ts" lines ∧ Model.valuesLine "Mark" array ∈ lines ∧
      Text.Json.array? array = some ["\"a\", \"b\"", "]", "\\", "a\nb", "🙂", ""] := by
  have named : Identifier.ofHumped "Mark" = .ok ⟨"mark", "Mark", "Mark", "mark"⟩ :=
    Except.eq_ok_of_toOption (by decide +kernel)
  obtain ⟨emitted, h⟩ := Except.exists_of_isOk (show
    (Model.file ⟨[("Mark", .enumeration)]⟩ "Mark" marks).isOk = true by decide +kernel)
  have shaped : classify ["Mark"] marks =
      .ok (.enumeration ["\"a\", \"b\"", "]", "\\", "a\nb", "🙂", ""]) := by rfl
  obtain ⟨-, lines, array, holds, declared, -, -, read⟩ :=
    stringArrays_exact.2 _ _ _ _ _ _ h named shaped
  exact ⟨emitted, lines, array, h, holds, declared, read⟩

end TypedApi
