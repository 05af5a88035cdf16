import TypedApi.Proofs.Files.Changes
import TypedApi.Run

/-! # Steps of a run, carried out

`Run.exec` is the outcome of a run that starts in a state, with the state it leaves.  A sequence does
its first step and then, unless it failed, the rest in the state that was left (`exec_bind`); so a
sequence that succeeds is taken apart into its steps (`exec_bind_eq_ok`), and one that fails either
failed at once or in the rest (`exec_bind_eq_error`).
-/
namespace TypedApi
namespace Run

variable {α β : Type}

/-- The outcome of a run that starts in a state, and the state it leaves. -/
def exec (x : Run α) (s : RunState) : Except Failure α × RunState := x.run.run s

@[simp] theorem exec_pure (a : α) (s : RunState) : exec (pure a) s = (.ok a, s) := rfl

@[simp] theorem exec_get (s : RunState) : exec get s = (.ok s, s) := rfl

@[simp] theorem exec_report (p : Progress) (s : RunState) :
    exec (report p) s = (.ok (), { s with progress := s.progress ++ [p] }) := rfl

theorem files_of_report {p : Progress} {s s' : RunState} {a : Unit}
    (h : exec (report p) s = (.ok a, s')) : s'.files = s.files := by
  cases h
  rfl

@[simp] theorem exec_ofExcept (x : Except Failure α) (s : RunState) :
    exec (ofExcept x) s = (x, s) := by
  cases x <;> rfl

theorem exec_bind (x : Run α) (f : α → Run β) (s : RunState) :
    exec (x >>= f) s =
      match exec x s with
      | (.ok a, s') => exec (f a) s'
      | (.error failure, s') => (.error failure, s') := by
  unfold exec
  rw [ExceptT.run_bind, StateT.run_bind]
  cases x.run.run s with
  | mk result s' => cases result <;> rfl

theorem exec_bind_of_ok {x : Run α} {s s' : RunState} {a : α} (h : exec x s = (.ok a, s'))
    (f : α → Run β) : exec (x >>= f) s = exec (f a) s' := by
  rw [exec_bind, h]

theorem exec_bind_of_error {x : Run α} {s s' : RunState} {failure : Failure}
    (h : exec x s = (.error failure, s')) (f : α → Run β) :
    exec (x >>= f) s = (.error failure, s') := by
  rw [exec_bind, h]

/-- A sequence succeeds step by step. -/
theorem exec_bind_eq_ok {x : Run α} {f : α → Run β} {s s' : RunState} {b : β} :
    exec (x >>= f) s = (.ok b, s') ↔
      ∃ a between, exec x s = (.ok a, between) ∧ exec (f a) between = (.ok b, s') := by
  rw [exec_bind]
  cases h : exec x s with
  | mk result between =>
    cases result with
    | error failure => simp
    | ok a => simp

/-- A sequence fails at its first step, or in the rest. -/
theorem exec_bind_eq_error {x : Run α} {f : α → Run β} {s s' : RunState} {failure : Failure} :
    exec (x >>= f) s = (.error failure, s') ↔
      exec x s = (.error failure, s') ∨
        ∃ a between, exec x s = (.ok a, between) ∧ exec (f a) between = (.error failure, s') := by
  rw [exec_bind]
  cases h : exec x s with
  | mk result between =>
    cases result with
    | error failure => simp
    | ok a => simp

theorem exec_bind_pure (x : Run α) (b : β) (s : RunState) :
    exec (x >>= fun _ => pure b) s = ((exec x s).1.map fun _ => b, (exec x s).2) := by
  rw [exec_bind]
  cases exec x s with
  | mk result s' => cases result <;> rfl

theorem exec_ofNoted (x : Noted Progress α) (s : RunState) :
    exec (ofNoted x) s = (x.result, { s with progress := s.progress ++ x.notes }) := by
  rw [ofNoted]
  exact (exec_bind_of_ok rfl _).trans (exec_ofExcept _ _)

theorem exec_checkPath (p : Path) (s : RunState) :
    exec (checkPath p) s =
      (if p.hasNul then .error (.defect .unforeseenSystemError) else .ok (), s) := by
  unfold checkPath
  split <;> rfl

/-- A change leaves what it made of the files, whether it failed or not. -/
theorem exec_change (step : FileSystem → FileSystem.Change) (fault : SystemError → OutputFault)
    (s : RunState) :
    exec (change step fault) s =
      ((step s.files).2.mapError fun e => .output (fault e), { s with files := (step s.files).1 }) := by
  unfold change
  rw [exec_bind_of_ok (exec_get s)]
  cases step s.files with
  | mk files outcome => cases outcome <;> rfl

theorem exec_change_eq_ok {step : FileSystem → FileSystem.Change}
    {fault : SystemError → OutputFault} {s s' : RunState}
    (h : exec (change step fault) s = (.ok (), s')) :
    step s.files = (s'.files, .ok ()) := by
  rw [exec_change] at h
  cases done : step s.files with
  | mk files outcome =>
    rw [done] at h
    cases outcome with
    | ok _ =>
      cases h
      rfl
    | error e => cases h

theorem exec_change_eq_error {step : FileSystem → FileSystem.Change}
    {fault : SystemError → OutputFault} {s s' : RunState} {failure : Failure}
    (h : exec (change step fault) s = (.error failure, s')) :
    ∃ e, step s.files = (s'.files, .error e) ∧ failure = .output (fault e) := by
  rw [exec_change] at h
  cases done : step s.files with
  | mk files outcome =>
    rw [done] at h
    cases outcome with
    | ok _ => cases h
    | error e =>
      cases h
      exact ⟨e, rfl, rfl⟩

theorem progress_of_change {step : FileSystem → FileSystem.Change}
    {fault : SystemError → OutputFault} {result : Except Failure Unit}
    {s s' : RunState}
    (h : exec (change step fault) s = (result, s')) : s'.progress = s.progress := by
  rw [exec_change] at h
  cases h
  rfl

/-! ## Properties that a run keeps -/

/-- Whatever the outcome of a run, the files keep a property. -/
def Keeps (P : FileSystem → Prop) (x : Run α) : Prop :=
  ∀ s : RunState, P s.files → P (exec x s).2.files

section Keeps
variable {P : FileSystem → Prop}

theorem Keeps.bind {x : Run α} {f : α → Run β} (hx : Keeps P x) (hf : ∀ a, Keeps P (f a)) :
    Keeps P (x >>= f) := by
  intro s given
  have first := hx s given
  rw [exec_bind]
  cases h : exec x s with
  | mk result between =>
    rw [h] at first
    cases result with
    | error failure => exact first
    | ok a => exact hf a between first

theorem keeps_pure (a : α) : Keeps P (pure a : Run α) := fun _ given => given

theorem keeps_report (p : Progress) : Keeps P (report p) := fun _ given => given

theorem keeps_change {step : FileSystem → FileSystem.Change} {fault : SystemError → OutputFault}
    (h : ∀ files, P files → P (step files).1) : Keeps P (change step fault) := by
  intro s given
  rw [exec_change]
  exact h s.files given

end Keeps

end Run
end TypedApi
