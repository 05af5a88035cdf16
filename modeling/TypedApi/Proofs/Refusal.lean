import TypedApi.Proofs.Noted
import TypedApi.Proofs.Naming.Casing

/-! # Failures that are refusals

A refusal is reported to the user in its own words; any other failure means that a value was used
before it was checked.  `Refuses` says of a computation that it stops with refusals only, and
follows a sequence part by part (`Refuses.bind`, `Noted.refuses_bind`).  Names are always refused
properly; of documents, this can only be expected where all keys are texts (`Value.hasTextKeys`).
-/
namespace TypedApi

/-- Whether a failure is reported in words of its own: it is no value used without a check, and no
mode that was never one. -/
def Failure.isRefusal : Failure → Bool
  | .unknownMode _ => false
  | .defect _ => false
  | _ => true

/-- Every failure of the computation is a refusal. -/
def Refuses {α : Type} (x : Except Failure α) : Prop :=
  ∀ failure, x = .error failure → failure.isRefusal = true

section Refuses
variable {α β ω : Type}

theorem refuses_ok (a : α) : Refuses (.ok a) := by
  intro failure h
  cases h

theorem refuses_error {failure : Failure} (h : failure.isRefusal = true) :
    Refuses (.error failure : Except Failure α) := by
  intro other same
  cases same
  exact h

theorem Refuses.of_ok {x : Except Failure α} {a : α} (h : x = .ok a) : Refuses x :=
  h ▸ refuses_ok a

/-- The rest of a sequence matters only where its first part succeeds. -/
theorem Refuses.bind {x : Except Failure α} {f : α → Except Failure β} (hx : Refuses x)
    (hf : ∀ a, x = .ok a → Refuses (f a)) : Refuses (x >>= f) := by
  cases x with
  | error failure => exact refuses_error (hx failure rfl)
  | ok a => exact hf a rfl

theorem refuses_mapM {f : α → Except Failure β} {items : List α}
    (h : ∀ item ∈ items, Refuses (f item)) : Refuses (items.mapM f) := by
  induction items with
  | nil => exact refuses_ok []
  | cons item rest ih =>
    rw [List.mapM_cons]
    refine (h item List.mem_cons_self).bind fun _ _ => ?_
    exact (ih fun next hn => h next (List.mem_cons_of_mem item hn)).bind fun _ _ => refuses_ok _

namespace Noted

theorem refuses_pure (a : α) : Refuses (pure a : Noted ω α).result :=
  refuses_ok a

theorem refuses_fail {failure : Failure} (h : failure.isRefusal = true) :
    Refuses (fail failure : Noted ω α).result :=
  refuses_error h

theorem refuses_bind {x : Noted ω α} {f : α → Noted ω β} (hx : Refuses x.result)
    (hf : ∀ a, x.result = .ok a → Refuses (f a).result) : Refuses (x >>= f).result := by
  rw [result_bind]
  exact hx.bind hf

theorem Delivers.refuses {P : ω → Prop} {Q : α → Prop} {x : Noted ω α} (h : Delivers P Q x) :
    Refuses x.result := by
  obtain ⟨a, ha, -⟩ := h
  exact .of_ok ha

end Noted
end Refuses

/-! ## Names -/

namespace Identifier

/-- A name with words is spelled or refused: each word was found to have a first character. -/
theorem ofWords_refuses (raw : String) {words : List (List Char)} (given : words ≠ []) :
    Refuses (ofWords raw words) := by
  unfold ofWords
  split
  · exact refuses_error rfl
  · rename_i named
    obtain ⟨word, rest, rfl⟩ := List.exists_cons_of_ne_nil given
    cases word with
    | nil =>
      have empty := List.find?_eq_none.mp named [] List.mem_cons_self
      exact absurd rfl empty
    | cons c word =>
      simp only
      split
      · exact refuses_error rfl
      · exact refuses_ok _

theorem ofHumped_refuses (raw : String) : Refuses (ofHumped raw) := by
  unfold ofHumped
  simp only
  split
  · exact refuses_error rfl
  · rename_i visible
    refine ofWords_refuses raw fun none_ => visible ?_
    -- splitting keeps every character
    have kept := flatten_humps (Text.trim raw).toList
    rw [none_] at kept
    rw [← kept]
    rfl

theorem blank_of_wordsFrom_eq_nil {word cs : List Char} (h : Text.wordsFrom word cs = []) :
    word = [] ∧ cs.all Text.isBlank = true := by
  fun_induction Text.wordsFrom word cs <;> simp_all

theorem ofSpaced_refuses (raw : String) : Refuses (ofSpaced raw) := by
  unfold ofSpaced
  split
  · exact refuses_error rfl
  · rename_i visible
    exact ofWords_refuses raw fun none_ => visible (blank_of_wordsFrom_eq_nil none_).2

end Identifier

/-! ## Documents with texts as keys -/

namespace Value

mutual

/-- Whether all keys of the mappings in a value are texts. -/
def hasTextKeys : Value → Bool
  | .list items => allHaveTextKeys items
  | .map members => membersHaveTextKeys members
  | .pair first second => first.hasTextKeys && second.hasTextKeys
  | _ => true

/-- Whether all keys of the mappings in some values are texts. -/
def allHaveTextKeys : List Value → Bool
  | [] => true
  | v :: rest => v.hasTextKeys && allHaveTextKeys rest

/-- Whether the keys of some members, and all keys of the mappings in their values, are texts. -/
def membersHaveTextKeys : List (Scalar × Value) → Bool
  | [] => true
  | (.text _, v) :: rest => v.hasTextKeys && membersHaveTextKeys rest
  | _ :: _ => false

end

theorem hasTextKeys_of_mem {items : List Value} (h : (Value.list items).hasTextKeys = true)
    {v : Value} (hv : v ∈ items) : v.hasTextKeys = true := by
  rw [hasTextKeys] at h
  induction items with
  | nil => cases hv
  | cons w rest ih =>
    rw [allHaveTextKeys, Bool.and_eq_true] at h
    rcases List.mem_cons.mp hv with rfl | hv
    · exact h.1
    · exact ih h.2 hv

/-- A member of a mapping with texts as keys. -/
theorem textKey_of_mem {members : Members} (h : (Value.map members).hasTextKeys = true)
    {member : Scalar × Value} (hm : member ∈ members) :
    (∃ key, member.1 = .text key) ∧ member.2.hasTextKeys = true := by
  rw [hasTextKeys] at h
  induction members with
  | nil => cases hm
  | cons first rest ih =>
    obtain ⟨key, v⟩ := first
    cases key with
    | text key =>
      rw [membersHaveTextKeys, Bool.and_eq_true] at h
      rcases List.mem_cons.mp hm with rfl | hm
      · exact ⟨⟨key, rfl⟩, h.1⟩
      · exact ih h.2 hm
    | _ => cases h

theorem hasTextKeys_of_cons {first : Scalar × Value} {rest : Members}
    (h : (Value.map (first :: rest)).hasTextKeys = true) :
    (Value.map rest).hasTextKeys = true := by
  obtain ⟨key, v⟩ := first
  rw [hasTextKeys] at h ⊢
  cases key with
  | text key =>
    rw [membersHaveTextKeys, Bool.and_eq_true] at h
    exact h.2
  | _ => cases h

end Value

theorem Members.mem_of_get? {key : String} {members : Members} {v : Value}
    (h : members.get? key = some v) : (Scalar.text key, v) ∈ members := by
  induction members with
  | nil => cases h
  | cons m rest ih =>
    obtain ⟨k, w⟩ := m
    rw [Members.get?] at h
    split at h
    · rename_i same
      cases h
      rw [same]
      exact List.mem_cons_self
    · exact List.mem_cons_of_mem _ (ih h)

/-- What a member of a mapping with texts as keys holds, or the absent value. -/
theorem Members.hasTextKeys_getD {members : Members}
    (h : (Value.map members).hasTextKeys = true) (key : String) :
    (members.getD key).hasTextKeys = true := by
  unfold Members.getD
  cases found : members.get? key with
  | none => rfl
  | some v => exact (Value.textKey_of_mem h (Members.mem_of_get? found)).2

end TypedApi
