import TypedApi.Proofs.Naming.Casing
import TypedApi.Proofs.Text.Word

/-! # Which texts refer to a component

A reference is read if the name of a component stands behind the fixed prefix
(`parseReference_eq_ok_iff`).  The name is made of letters, digits and underscores of ASCII and
starts at no digit; then all of its words are accepted, however it is split.
-/
namespace TypedApi

/-- The characters of a name that a component can have. -/
structure IsComponentName (cs : List Char) : Prop where
  plain : ∀ c ∈ cs, Text.isPlainWordChar c = true
  start : ∃ c rest, cs = c :: rest ∧ c.isDigit = false

/-- The text `reference` is the prefix of all references with `cs` behind it.  A line feed at the
end of the text is not read. -/
def RefersTo (reference : String) (cs : List Char) : Prop :=
  reference.toList = referencePrefix.toList ++ cs ∨
    reference.toList = referencePrefix.toList ++ (cs ++ ['\n'])

namespace Identifier

/-- No word of a name is empty. -/
theorem ne_nil_of_mem_humps {cs word : List Char} (h : word ∈ humps cs) : word ≠ [] := by
  cases cs with
  | nil => cases h
  | cons c cs =>
    obtain ⟨rest, words, split⟩ := humps_cons c cs
    rw [split] at h
    rcases List.mem_cons.mp h with rfl | h
    · exact List.cons_ne_nil c rest
    · obtain ⟨d, tail, rfl, -⟩ := tail_humps (c :: cs) word (by rw [split]; exact h)
      exact List.cons_ne_nil d tail

/-- The words of a name without a line feed are accepted exactly if a component can have the
name. -/
theorem accepted_humps_iff {cs : List Char} (feed : '\n' ∉ cs) :
    Accepted (humps cs) ↔ IsComponentName cs := by
  constructor
  · intro accepted
    have plain : ∀ c ∈ cs, Text.isPlainWordChar c = true := by
      intro c hc
      rw [← flatten_humps cs] at hc
      obtain ⟨word, hw, inside⟩ := List.mem_flatten.mp hc
      refine plain_of_isNameWord (accepted.named word hw) inside fun same => feed ?_
      exact same ▸ mem_of_mem_humps hw inside
    refine ⟨plain, ?_⟩
    obtain ⟨c, rest, later, first, letter⟩ := accepted.start
    obtain ⟨d, ds, rfl⟩ := List.exists_cons_of_ne_nil (ne_nil_of_accepted_humps accepted)
    obtain ⟨tail, words, split⟩ := humps_cons d ds
    rw [split] at first
    cases first
    exact ⟨c, ds, rfl, letter⟩
  · rintro ⟨plain, c, rest, rfl, letter⟩
    refine ⟨fun word hw => ?_, ?_⟩
    · refine (Text.isWordOf_iff (by decide)).mpr ⟨word, ne_nil_of_mem_humps hw, ?_, .inl rfl⟩
      exact fun d hd => plain d (mem_of_mem_humps hw hd)
    · obtain ⟨tail, words, split⟩ := humps_cons c rest
      exact ⟨c, tail, words, split, letter⟩

/-- The identifier of a name without blanks is that of its words. -/
theorem ofHumped_eq_ok_iff {cs : List Char} (all : ∀ c ∈ cs, Text.isWordChar c = true)
    {name : Identifier} :
    ofHumped (.ofList cs) = .ok name ↔ IsComponentName cs ∧ name = spell (humps cs) := by
  have feed : '\n' ∉ cs := fun hc =>
    Bool.false_ne_true (Text.isWordChar_lineFeed.symm.trans (all _ hc))
  constructor
  · intro h
    obtain ⟨ds, same, rfl, accepted⟩ := ofHumped_eq_ok h
    rw [Text.trim_of_isWordChar all, String.toList_ofList] at same
    subst same
    exact ⟨(accepted_humps_iff feed).mp accepted, rfl⟩
  · rintro ⟨component, rfl⟩
    have nonempty : cs.isEmpty = false := by
      obtain ⟨c, rest, rfl, -⟩ := component.start
      rfl
    rw [ofHumped, Text.trim_of_isWordChar all, String.toList_ofList]
    simp only [nonempty]
    exact ofWords_of_accepted _ ((accepted_humps_iff feed).mpr component)

end Identifier

theorem IsComponentName.isWordChar {cs : List Char} (h : IsComponentName cs) :
    ∀ c ∈ cs, Text.isWordChar c = true :=
  fun c hc => Text.isWordChar_of_plain (h.plain c hc)

/-- **References that are read.**  A text is read as a reference exactly if it is the prefix and the
name of a component, and then it refers to the component of that name. -/
theorem parseReference_eq_ok_iff {reference : String} {name : Identifier} :
    parseReference reference = .ok name ↔
      ∃ cs, RefersTo reference cs ∧ IsComponentName cs ∧
        name = Identifier.spell (Identifier.humps cs) := by
  constructor
  · intro h
    simp only [parseReference, Bool.and_eq_true] at h
    split at h
    · rename_i guard
      obtain ⟨tail, split⟩ := List.isPrefixOf_iff_prefix.mp guard.1
      rw [← split, List.drop_left] at h guard
      obtain ⟨word, -, all, behind⟩ := (Text.isWordOf_iff Text.isWordChar_lineFeed).mp guard.2
      rw [Text.takeWhile_of_isWord Text.isWordChar_lineFeed all behind] at h
      obtain ⟨component, rfl⟩ := (Identifier.ofHumped_eq_ok_iff all).mp h
      refine ⟨word, behind.imp (fun same => ?_) (fun same => ?_), component, rfl⟩
      · rw [← split, same]
      · rw [← split, same]
    · cases h
  · rintro ⟨cs, refers, component, rfl⟩
    obtain ⟨tail, split, behind⟩ : ∃ tail, reference.toList = referencePrefix.toList ++ tail ∧
        (tail = cs ∨ tail = cs ++ ['\n']) := by
      rcases refers with split | split
      · exact ⟨_, split, .inl rfl⟩
      · exact ⟨_, split, .inr rfl⟩
    have word : Text.isWordOf Text.isWordChar tail = true := by
      obtain ⟨c, rest, rfl, -⟩ := component.start
      exact (Text.isWordOf_iff Text.isWordChar_lineFeed).mpr
        ⟨_, List.cons_ne_nil c rest, component.isWordChar, behind⟩
    simp only [parseReference, split, List.drop_left, word, Bool.and_true,
      Text.takeWhile_of_isWord Text.isWordChar_lineFeed component.isWordChar behind]
    rw [if_pos (List.isPrefixOf_iff_prefix.mpr ⟨tail, rfl⟩)]
    exact (Identifier.ofHumped_eq_ok_iff component.isWordChar).mpr ⟨component, rfl⟩

end TypedApi
