import TypedApi.Proofs.Noted

/-! # Computations that succeed together

Two computations concur if both fail or both succeed, with related results; why they fail is left
open.  A sequence concurs if its parts do (`Concur.bind`), and so does a traversal
(`Concur.mapM`).  Of computations that leave notes it is also asked that they leave the same notes
when they succeed (`Noted.Concur`).
-/
namespace TypedApi

/-- Two computations both fail, or they succeed with related results. -/
def Concur {α β : Type} (R : α → β → Prop) : Except Failure α → Except Failure β → Prop
  | .error _, .error _ => True
  | .ok a, .ok b => R a b
  | _, _ => False

namespace Concur
variable {α β γ δ : Type} {R : α → β → Prop} {S : γ → δ → Prop}

theorem cases {x : Except Failure α} {y : Except Failure β} (h : Concur R x y) :
    (∃ e e', x = .error e ∧ y = .error e') ∨ ∃ a b, x = .ok a ∧ y = .ok b ∧ R a b := by
  cases x with
  | error e =>
    cases y with
    | error e' => exact .inl ⟨e, e', rfl, rfl⟩
    | ok b => cases h
  | ok a =>
    cases y with
    | error e' => cases h
    | ok b => exact .inr ⟨a, b, rfl, rfl, h⟩

/-- What one computation returns is matched by the other. -/
theorem exists_of_ok {x : Except Failure α} {y : Except Failure β} (h : Concur R x y) {a : α}
    (hx : x = .ok a) : ∃ b, y = .ok b ∧ R a b := by
  rcases h.cases with ⟨e, e', rfl, rfl⟩ | ⟨a', b, rfl, rfl, related⟩
  · cases hx
  · cases hx
    exact ⟨b, rfl, related⟩

theorem exists_of_error {x : Except Failure α} {y : Except Failure β} (h : Concur R x y)
    {e : Failure} (hx : x = .error e) : ∃ e', y = .error e' := by
  rcases h.cases with ⟨e, e', rfl, rfl⟩ | ⟨a, b, rfl, rfl, related⟩
  · exact ⟨e', rfl⟩
  · cases hx

theorem fail (e e' : Failure) : Concur R (.error e) (.error e') := trivial

theorem done {a : α} {b : β} (h : R a b) : Concur R (.ok a) (.ok b) := h

/-- A computation concurs with itself. -/
theorem same {R : α → α → Prop} (x : Except Failure α) (refl : ∀ a, R a a) : Concur R x x := by
  cases x with
  | error e => trivial
  | ok a => exact refl a

theorem bind {x : Except Failure α} {y : Except Failure β} {f : α → Except Failure γ}
    {g : β → Except Failure δ} (h : Concur R x y) (hf : ∀ a b, R a b → Concur S (f a) (g b)) :
    Concur S (x >>= f) (y >>= g) := by
  rcases h.cases with ⟨e, e', rfl, rfl⟩ | ⟨a, b, rfl, rfl, related⟩
  · trivial
  · exact hf a b related

/-- After first parts with the same results, the rests have to concur for each of these. -/
theorem eq_bind {x y : Except Failure α} {f : α → Except Failure γ} {g : α → Except Failure δ}
    (h : Concur Eq x y) (hf : ∀ a, Concur S (f a) (g a)) : Concur S (x >>= f) (y >>= g) :=
  h.bind fun a _ same => same ▸ hf a

theorem same_bind (x : Except Failure α) {f : α → Except Failure γ} {g : α → Except Failure δ}
    (hf : ∀ a, Concur S (f a) (g a)) : Concur S (x >>= f) (x >>= g) :=
  (same x fun _ => rfl).eq_bind hf

theorem mapM {as : List α} {bs : List β} {f : α → Except Failure γ} {g : β → Except Failure δ}
    (h : List.Forall₂ R as bs) (hf : ∀ a b, R a b → Concur S (f a) (g b)) :
    Concur (List.Forall₂ S) (as.mapM f) (bs.mapM g) := by
  induction h with
  | nil => exact .done .nil
  | cons own _ ih =>
    rw [List.mapM_cons, List.mapM_cons]
    refine (hf _ _ own).bind fun c d first => ih.bind fun cs ds later => ?_
    exact .done (.cons first later)

end Concur

namespace Noted
variable {ω α β γ δ : Type} {R : α → β → Prop} {S : γ → δ → Prop}

/-- Two computations both fail, or they succeed with related results and the same notes. -/
def Concur (R : α → β → Prop) (x : Noted ω α) (y : Noted ω β) : Prop :=
  TypedApi.Concur (fun a b => R a b ∧ x.notes = y.notes) x.result y.result

namespace Concur

theorem cases {x : Noted ω α} {y : Noted ω β} (h : Concur R x y) :
    (∃ e e', x.result = .error e ∧ y.result = .error e') ∨
      ∃ a b, x.result = .ok a ∧ y.result = .ok b ∧ R a b ∧ x.notes = y.notes :=
  TypedApi.Concur.cases h

theorem fail (e e' : Failure) : Concur R (Noted.fail e : Noted ω α) (Noted.fail e') := trivial

theorem done {a : α} {b : β} (h : R a b) : Concur R (pure a : Noted ω α) (pure b) := ⟨h, rfl⟩

/-- A computation concurs with itself. -/
theorem same {R : α → α → Prop} (x : Noted ω α) (refl : ∀ a, R a a) : Concur R x x :=
  TypedApi.Concur.same x.result fun a => ⟨refl a, rfl⟩

theorem ofExcept {x : Except Failure α} {y : Except Failure β} (h : TypedApi.Concur R x y) :
    Concur R (Noted.ofExcept x : Noted ω α) (Noted.ofExcept y) := by
  rcases h.cases with ⟨e, e', rfl, rfl⟩ | ⟨a, b, rfl, rfl, related⟩
  · trivial
  · exact ⟨related, rfl⟩

theorem result {x : Noted ω α} {y : Noted ω β} (h : Concur R x y) :
    TypedApi.Concur R x.result y.result := by
  rcases h.cases with ⟨e, e', hx, hy⟩ | ⟨a, b, hx, hy, related, -⟩
  · rw [hx, hy]
    trivial
  · rw [hx, hy]
    exact related

theorem silent {ω' : Type} {x : Noted ω' α} {y : Noted ω' β} (h : Concur R x y) :
    Concur R (Noted.silent x : Noted ω α) (Noted.silent y) :=
  ofExcept h.result

theorem bind {x : Noted ω α} {y : Noted ω β} {f : α → Noted ω γ} {g : β → Noted ω δ}
    (h : Concur R x y) (hf : ∀ a b, R a b → Concur S (f a) (g b)) :
    Concur S (x >>= f) (y >>= g) := by
  rcases h.cases with ⟨e, e', hx, hy⟩ | ⟨a, b, hx, hy, related, notes⟩
  · rw [bind_of_error hx, bind_of_error hy]
    trivial
  · rw [bind_of_ok hx, bind_of_ok hy]
    rcases (hf a b related).cases with ⟨e, e', ha, hb⟩ | ⟨c, d, ha, hb, rest, later⟩
    · rw [Concur, ha, hb]
      trivial
    · rw [Concur, ha, hb]
      exact ⟨rest, congrArg₂ (· ++ ·) notes later⟩

/-- After first parts with the same results, the rests have to concur for each of these. -/
theorem eq_bind {x y : Noted ω α} {f : α → Noted ω γ} {g : α → Noted ω δ}
    (h : Concur Eq x y) (hf : ∀ a, Concur S (f a) (g a)) : Concur S (x >>= f) (y >>= g) :=
  h.bind fun a _ same => same ▸ hf a

theorem same_bind (x : Noted ω α) {f : α → Noted ω γ} {g : α → Noted ω δ}
    (hf : ∀ a, Concur S (f a) (g a)) : Concur S (x >>= f) (x >>= g) :=
  (same x fun _ => rfl).eq_bind hf

end Concur
end Noted
end TypedApi
