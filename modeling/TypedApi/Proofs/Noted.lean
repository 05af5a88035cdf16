import Mathlib.Data.List.Forall2
import TypedApi.Noted

/-! # The outcome and the notes of a sequence

A sequence succeeds exactly if its parts do (`bind_eq_ok`), and then its notes are theirs in order
(`mem_notes_bind`); it fails as the first part that does (`failure?_bind`).  Two judgements bound
what a computation returns and notes: `Yields` speaks of the computations that succeed, `Delivers`
says that this one does.  Both follow a sequence part by part (`Yields.bind`, `Delivers.bind`).
-/
namespace TypedApi

theorem Except.exists_of_isOk {ε α : Type} {x : Except ε α} (h : x.isOk = true) :
    ∃ a, x = .ok a := by
  cases x with
  | error e => cases h
  | ok a => exact ⟨a, rfl⟩

theorem Except.eq_ok_of_toOption {ε α : Type} {x : Except ε α} {a : α}
    (h : x.toOption = some a) : x = .ok a := by
  cases x with
  | error e => cases h
  | ok b => exact congrArg Except.ok (Option.some.inj h)

theorem Except.bind_eq_ok {ε α β : Type} {x : Except ε α} {f : α → Except ε β} {b : β} :
    (x >>= f) = .ok b ↔ ∃ a, x = .ok a ∧ f a = .ok b := by
  constructor
  · intro h
    cases x with
    | error e => cases h
    | ok a => exact ⟨a, rfl, h⟩
  · rintro ⟨a, rfl, h⟩
    exact h

theorem Except.ok_bind {ε α β : Type} (a : α) (f : α → Except ε β) :
    (Except.ok a >>= f) = f a := rfl

theorem Except.error_bind {ε α β : Type} (e : ε) (f : α → Except ε β) :
    (Except.error e >>= f) = .error e := rfl

/-! ## Traversals -/

/-- A traversal succeeds as one outcome for each item. -/
theorem Except.forall₂_of_mapM {ε α β : Type} {f : α → Except ε β} {as : List α} {bs : List β}
    (h : as.mapM f = .ok bs) : List.Forall₂ (fun a b => f a = .ok b) as bs := by
  induction as generalizing bs with
  | nil =>
    cases h
    exact .nil
  | cons a as ih =>
    rw [List.mapM_cons] at h
    obtain ⟨b, hb, h⟩ := Except.bind_eq_ok.mp h
    obtain ⟨later, hl, h⟩ := Except.bind_eq_ok.mp h
    cases h
    exact .cons hb (ih hl)

theorem Except.mapM_of_forall₂ {ε α β : Type} {f : α → Except ε β} {as : List α} {bs : List β}
    (h : List.Forall₂ (fun a b => f a = .ok b) as bs) : as.mapM f = .ok bs := by
  induction h with
  | nil => rfl
  | cons own _ ih =>
    rw [List.mapM_cons, own, ih]
    rfl

section Related
variable {α β : Type} {R : α → β → Prop} {as : List α} {bs : List β}

theorem exists_of_mem_left (h : List.Forall₂ R as bs) {a : α} (ha : a ∈ as) :
    ∃ b ∈ bs, R a b := by
  induction h with
  | nil => cases ha
  | @cons x y xs ys own _ ih =>
    rcases List.mem_cons.mp ha with rfl | ha
    · exact ⟨y, List.mem_cons_self, own⟩
    · obtain ⟨b, hb, related⟩ := ih ha
      exact ⟨b, List.mem_cons_of_mem y hb, related⟩

theorem exists_of_mem_right (h : List.Forall₂ R as bs) {b : β} (hb : b ∈ bs) :
    ∃ a ∈ as, R a b :=
  exists_of_mem_left h.flip hb

end Related

namespace Noted

variable {ω α β : Type}

@[simp] theorem fail_result (e : Failure) : (fail e : Noted ω α).result = .error e := rfl

@[simp] theorem fail_notes (e : Failure) : (fail e : Noted ω α).notes = [] := rfl

@[simp] theorem note_result (n : ω) : (note n).result = .ok () := rfl

@[simp] theorem note_notes (n : ω) : (note n).notes = [n] := rfl

@[simp] theorem ofExcept_result (x : Except Failure α) : (ofExcept x : Noted ω α).result = x := rfl

@[simp] theorem ofExcept_notes (x : Except Failure α) : (ofExcept x : Noted ω α).notes = [] := rfl

@[simp] theorem silent_result {ω' : Type} (x : Noted ω α) :
    (silent x : Noted ω' α).result = x.result := rfl

@[simp] theorem silent_notes {ω' : Type} (x : Noted ω α) :
    (silent x : Noted ω' α).notes = [] := rfl

theorem ofExcept_ok_bind (a : α) (f : α → Noted ω β) : (ofExcept (.ok a) >>= f) = f a := rfl

/-- The outcome of a sequence is the sequence of the outcomes. -/
theorem result_bind (x : Noted ω α) (f : α → Noted ω β) :
    (x >>= f).result = x.result >>= fun a => (f a).result := by
  cases h : x.result with
  | error e => rw [bind_of_error h]; rfl
  | ok a => rw [bind_of_ok h]; rfl

theorem bind_eq_ok {x : Noted ω α} {f : α → Noted ω β} {b : β} :
    (x >>= f).result = .ok b ↔ ∃ a, x.result = .ok a ∧ (f a).result = .ok b := by
  rw [result_bind, Except.bind_eq_ok]

/-- A note of a sequence was left by the first part, or by the rest after the first succeeded. -/
theorem mem_notes_bind {x : Noted ω α} {f : α → Noted ω β} {n : ω} :
    n ∈ (x >>= f).notes ↔ n ∈ x.notes ∨ ∃ a, x.result = .ok a ∧ n ∈ (f a).notes := by
  cases h : x.result with
  | error e => simp [bind_of_error h]
  | ok a => simp [bind_of_ok h]

theorem notes_bind_of_ok {x : Noted ω α} {a : α} (h : x.result = .ok a) (f : α → Noted ω β) :
    (x >>= f).notes = x.notes ++ (f a).notes := by
  rw [bind_of_ok h]

/-- How a sequence goes on matters only where its first part succeeds. -/
theorem bind_congr {x : Noted ω α} {f g : α → Noted ω β}
    (h : ∀ a, x.result = .ok a → f a = g a) : x >>= f = x >>= g := by
  cases hx : x.result with
  | error e => rw [bind_of_error hx, bind_of_error hx]
  | ok a => rw [bind_of_ok hx, bind_of_ok hx, h a hx]

/-! ## The failure of a computation -/

/-- The failure that stops a computation. -/
def failure? (x : Noted ω α) : Option Failure :=
  match x.result with
  | .error e => some e
  | .ok _ => none

@[simp] theorem failure?_pure (a : α) : (pure a : Noted ω α).failure? = none := rfl

@[simp] theorem failure?_fail (e : Failure) : (fail e : Noted ω α).failure? = some e := rfl

theorem failure?_eq_some {x : Noted ω α} {e : Failure} :
    x.failure? = some e ↔ x.result = .error e := by
  unfold failure?
  cases x.result <;> simp

theorem failure?_eq_none {x : Noted ω α} : x.failure? = none ↔ ∃ a, x.result = .ok a := by
  unfold failure?
  cases x.result <;> simp

/-- A sequence fails as its first part, or else as the rest. -/
theorem failure?_bind (x : Noted ω α) (f : α → Noted ω β) {rest : Option Failure}
    (h : ∀ a, x.result = .ok a → (f a).failure? = rest) :
    (x >>= f).failure? = x.failure?.or rest := by
  cases hx : x.result with
  | error e =>
    rw [bind_of_error hx]
    simp [failure?, hx]
  | ok a =>
    rw [← h a hx, bind_of_ok hx]
    simp [failure?, hx]

/-- What is done to a result does not fail. -/
theorem failure?_bind_pure (x : Noted ω α) (f : α → β) :
    (x >>= fun a => pure (f a)).failure? = x.failure? := by
  rw [failure?_bind x _ fun _ _ => failure?_pure _, Option.or_none]

/-! ## Bounds on results and notes -/

variable {P : ω → Prop} {Q : α → Prop} {R : β → Prop}

/-- If `x` succeeds, it returns something in `Q` and has noted nothing outside `P`. -/
def Yields (P : ω → Prop) (Q : α → Prop) (x : Noted ω α) : Prop :=
  ∀ a, x.result = .ok a → Q a ∧ ∀ n ∈ x.notes, P n

/-- `x` succeeds, returns something in `Q` and notes nothing outside `P`. -/
def Delivers (P : ω → Prop) (Q : α → Prop) (x : Noted ω α) : Prop :=
  ∃ a, x.result = .ok a ∧ Q a ∧ ∀ n ∈ x.notes, P n

theorem yields_fail (e : Failure) : Yields P Q (fail e) := by
  intro a h
  cases h

theorem yields_pure {a : α} (h : Q a) : Yields P Q (pure a) := by
  intro b hb
  cases hb
  exact ⟨h, fun n hn => by cases hn⟩

theorem yields_ofExcept {x : Except Failure α} (h : ∀ a, x = .ok a → Q a) :
    Yields P Q (ofExcept x) :=
  fun a ha => ⟨h a ha, fun n hn => by cases hn⟩

theorem yields_any (x : Except Failure α) : Yields P (fun _ => True) (ofExcept x) :=
  yields_ofExcept fun _ _ => trivial

theorem yields_silent {ω' : Type} {x : Noted ω' α} (h : ∀ a, x.result = .ok a → Q a) :
    Yields P Q (silent x : Noted ω α) :=
  fun a ha => ⟨h a ha, fun n hn => by cases hn⟩

theorem Yields.bind {x : Noted ω α} {f : α → Noted ω β} (hx : Yields P Q x)
    (hf : ∀ a, Q a → Yields P R (f a)) : Yields P R (x >>= f) := by
  intro b hb
  obtain ⟨a, ha, hb⟩ := bind_eq_ok.mp hb
  obtain ⟨hQ, hP⟩ := hx a ha
  obtain ⟨hR, later⟩ := hf a hQ b hb
  refine ⟨hR, fun n hn => ?_⟩
  rw [notes_bind_of_ok ha, List.mem_append] at hn
  exact hn.elim (hP n) (later n)

theorem delivers_pure {a : α} (h : Q a) : Delivers P Q (pure a) :=
  ⟨a, rfl, h, fun n hn => by cases hn⟩

theorem delivers_note {n : ω} (h : P n) : Delivers P (fun _ => True) (note n) := by
  refine ⟨(), rfl, trivial, fun m hm => ?_⟩
  rw [note_notes, List.mem_singleton] at hm
  exact hm ▸ h

theorem Delivers.bind {x : Noted ω α} {f : α → Noted ω β} (hx : Delivers P Q x)
    (hf : ∀ a, Q a → Delivers P R (f a)) : Delivers P R (x >>= f) := by
  obtain ⟨a, ha, hQ, hP⟩ := hx
  obtain ⟨b, hb, hR, later⟩ := hf a hQ
  refine ⟨b, bind_eq_ok.mpr ⟨a, ha, hb⟩, hR, fun n hn => ?_⟩
  rw [notes_bind_of_ok ha, List.mem_append] at hn
  exact hn.elim (hP n) (later n)

theorem Delivers.widen {x : Noted ω α} {P' : ω → Prop} (hx : Delivers P Q x)
    (wider : ∀ n, P n → P' n) : Delivers P' Q x := by
  obtain ⟨a, ha, hQ, hP⟩ := hx
  exact ⟨a, ha, hQ, fun n hn => wider n (hP n hn)⟩

theorem delivers_forM {γ : Type} {f : γ → Noted ω Unit} {items : List γ}
    (h : ∀ item ∈ items, Delivers P (fun _ => True) (f item)) :
    Delivers P (fun _ => True) (items.forM f) := by
  induction items with
  | nil => exact delivers_pure trivial
  | cons item rest ih =>
    exact (h item List.mem_cons_self).bind
      fun _ _ => ih fun next hn => h next (List.mem_cons_of_mem item hn)

theorem delivers_mapM {γ : Type} {f : γ → Noted ω α} {items : List γ}
    (h : ∀ item ∈ items, Delivers P (fun _ => True) (f item)) :
    Delivers P (fun _ => True) (items.mapM f) := by
  induction items with
  | nil => exact delivers_pure trivial
  | cons item rest ih =>
    rw [List.mapM_cons]
    refine (h item List.mem_cons_self).bind fun _ _ => ?_
    exact (ih fun next hn => h next (List.mem_cons_of_mem item hn)).bind
      fun _ _ => delivers_pure trivial

theorem Delivers.yields {x : Noted ω α} (hx : Delivers P Q x) : Yields P Q x := by
  obtain ⟨a, ha, hQ, hP⟩ := hx
  intro b hb
  cases ha.symm.trans hb
  exact ⟨hQ, hP⟩

end Noted
end TypedApi
