import TypedApi.Failure

/-! # Computations that leave notes

A computation that may stop with a failure and notes things on its way: the imports that generated
code needs, or the progress of a run. The notes made before a failure stay. `Noted` is a lawful
monad, and the notes of a sequence are those of its parts in order.
-/
namespace TypedApi

/-- The outcome of a computation with the notes made on the way. -/
structure Noted (ω α : Type) where
  notes : List ω
  result : Except Failure α

namespace Noted

variable {ω α β : Type}

/-- Stops with a failure. -/
def fail (e : Failure) : Noted ω α := ⟨[], .error e⟩

/-- Leaves a note. -/
def note (n : ω) : Noted ω Unit := ⟨[n], .ok ()⟩

/-- A computation without notes. -/
def ofExcept (x : Except Failure α) : Noted ω α := ⟨[], x⟩

/-- One computation after another. -/
def andThen (x : Noted ω α) (f : α → Noted ω β) : Noted ω β :=
  match x.result with
  | .error e => ⟨x.notes, .error e⟩
  | .ok a => ⟨x.notes ++ (f a).notes, (f a).result⟩

instance : Monad (Noted ω) where
  pure a := ⟨[], .ok a⟩
  bind := andThen

/-- The computation whose notes are forgotten. -/
def silent {ω' : Type} (x : Noted ω α) : Noted ω' α := ⟨[], x.result⟩

@[simp] theorem pure_notes (a : α) : (pure a : Noted ω α).notes = [] := rfl

@[simp] theorem pure_result (a : α) : (pure a : Noted ω α).result = .ok a := rfl

theorem bind_of_ok {x : Noted ω α} {a : α} (h : x.result = .ok a) (f : α → Noted ω β) :
    x >>= f = ⟨x.notes ++ (f a).notes, (f a).result⟩ := by
  simp [bind, andThen, h]

theorem bind_of_error {x : Noted ω α} {e : Failure} (h : x.result = .error e)
    (f : α → Noted ω β) : x >>= f = ⟨x.notes, .error e⟩ := by
  simp [bind, andThen, h]

private theorem id_map' (x : Noted ω α) : id <$> x = x := by
  obtain ⟨notes, result⟩ := x
  cases result <;> simp [Functor.map, andThen]

private theorem bind_assoc' {γ : Type} (x : Noted ω α) (f : α → Noted ω β) (g : β → Noted ω γ) :
    x >>= f >>= g = x >>= fun a => f a >>= g := by
  obtain ⟨notes, result⟩ := x
  cases result with
  | error e => rfl
  | ok a =>
    simp only [bind, andThen]
    cases (f a).result <;> simp

instance : LawfulMonad (Noted ω) :=
  LawfulMonad.mk' (Noted ω) id_map' (fun _ _ => by simp [bind, andThen, pure]) bind_assoc'

end Noted
end TypedApi
