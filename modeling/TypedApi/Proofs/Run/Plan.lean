import TypedApi.Proofs.Run.Steps

/-! # What a run is going to do

Up to the point where it changes a file, a run only looks at the files, and what it finds decides
what it is going to do: refuse the request, skip it, or write a tree (`Request.plan`).  A request that
is refused or skipped leaves the files as they are (`Run.perform_of_refused`,
`Run.perform_of_skipped`); otherwise the run writes what was planned (`Run.perform_of_planned`).
-/
namespace TypedApi

namespace Request

/-- The name of the mode and the text of the document. -/
def source (r : Request) (files : FileSystem) : Except Failure (String × String) := do
  if r.input.hasNul then throw (.defect .unforeseenSystemError)
  let text ← Run.documentText files r.input
  return (← Run.modeName r.mode, text)

/-- The hash that the output of a request with the given source has. -/
def hash (source : String × String) : String := ContentHash.ofText source.1 source.2

/-- Whether the output has the hash, unless it is to be written anyway. -/
def isCurrent (r : Request) (files : FileSystem) (hash : String) : Except Failure Bool :=
  if r.force then .ok false
  else if r.output.hasNul then .error (.defect .unforeseenSystemError)
  else return (← OutputDirectory.storedHash files r.output) == some hash

/-- The files that are generated from the text of the document. -/
def tree (r : Request) (text : String) : Except Failure OutputTree := do
  let document ← Source.document ⟨r.input.text, text⟩
  (Generation.generate r.mode (.map document)).result

/-- Whether something has to be removed before the output is written. -/
def replaces (r : Request) (files : FileSystem) : Except Failure Bool := do
  if r.output.hasNul then throw (.defect .unforeseenSystemError)
  OutputDirectory.isReplaced files r.output

/-- The tree that is going to be written with its hash; a request that is skipped has none. -/
def plan (r : Request) (files : FileSystem) : Except Failure (Option (OutputTree × String)) := do
  let source ← r.source files
  if ← r.isCurrent files (hash source) then return none
  let tree ← r.tree source.2
  discard (r.replaces files)
  return some (tree, hash source)

variable {r : Request} {files : FileSystem}

/-- A request is skipped if its output is current. -/
theorem plan_eq_none :
    r.plan files = .ok none ↔
      ∃ source, r.source files = .ok source ∧ r.isCurrent files (hash source) = .ok true := by
  constructor
  · intro h
    obtain ⟨source, hs, h⟩ := Except.bind_eq_ok.mp h
    obtain ⟨current, hc, h⟩ := Except.bind_eq_ok.mp h
    cases current with
    | true => exact ⟨source, hs, hc⟩
    | false =>
      obtain ⟨_, -, h⟩ := Except.bind_eq_ok.mp h
      obtain ⟨_, -, h⟩ := Except.bind_eq_ok.mp h
      cases h
  · rintro ⟨source, hs, hc⟩
    exact Except.bind_eq_ok.mpr ⟨source, hs, Except.bind_eq_ok.mpr ⟨true, hc, rfl⟩⟩

/-- An output is current if its stored hash is the one of the request. -/
theorem isCurrent_eq_true {hash : String} :
    r.isCurrent files hash = .ok true ↔
      r.force = false ∧ r.output.hasNul = false ∧
        OutputDirectory.storedHash files r.output = .ok (some hash) := by
  unfold isCurrent
  constructor
  · intro h
    split at h
    · cases h
    · next unforced =>
      split at h
      · cases h
      · next visible =>
        obtain ⟨stored, hs, same⟩ := Except.bind_eq_ok.mp h
        have equal : stored = some hash := by simpa using Except.ok.inj same
        exact ⟨by simpa using unforced, by simpa using visible, equal ▸ hs⟩
  · rintro ⟨unforced, visible, stored⟩
    rw [unforced, visible, stored]
    simp

/-- What has to hold for a tree to be written. -/
theorem plan_eq_some {tree : OutputTree} {text : String} :
    r.plan files = .ok (some (tree, text)) ↔
      ∃ source, r.source files = .ok source ∧ r.isCurrent files (hash source) = .ok false ∧
        r.tree source.2 = .ok tree ∧ (∃ replaced, r.replaces files = .ok replaced) ∧
        text = hash source := by
  constructor
  · intro h
    obtain ⟨source, hs, h⟩ := Except.bind_eq_ok.mp h
    obtain ⟨current, hc, h⟩ := Except.bind_eq_ok.mp h
    cases current with
    | true => cases h
    | false =>
      obtain ⟨found, ht, h⟩ := Except.bind_eq_ok.mp h
      obtain ⟨_, hr, h⟩ := Except.bind_eq_ok.mp h
      cases h
      cases found : r.replaces files with
      | error failure =>
        rw [found] at hr
        cases hr
      | ok replaced => exact ⟨source, hs, hc, ht, ⟨replaced, rfl⟩, rfl⟩
  · rintro ⟨source, hs, hc, ht, ⟨replaced, hr⟩, rfl⟩
    refine Except.bind_eq_ok.mpr ⟨source, hs, Except.bind_eq_ok.mpr ⟨false, hc, ?_⟩⟩
    refine Except.bind_eq_ok.mpr ⟨tree, ht, ?_⟩
    rw [hr]
    rfl

end Request

namespace Run

/-- Writes a planned tree, and formats it if this is asked for. -/
def finish (formatter : Program) (r : Request) (tree : OutputTree) (hash : String) :
    Run Outcome := do
  let written ← OutputDirectory.write r.output tree.files hash
  report (.filesWritten written.length r.output.text)
  if r.format then Formatter.format formatter r.output
  return ⟨r.output.text, written.map Path.text, tree.warnings, false⟩

/-! ## Carrying out a plan -/

section Perform
variable {formatter : Program} {r : Request} {s : RunState}

/-- A run reads its source first. -/
theorem exec_perform (formatter : Program) (r : Request) (s : RunState) :
    exec (perform formatter r) s =
      match r.source s.files with
      | .error failure => (.error failure, s)
      | .ok source => exec (do
          if ← isUpToDate r (Request.hash source) then
            report (.upToDate r.output.text r.input.text)
            return ⟨r.output.text, [], [], true⟩
          else generate formatter r source.2 (Request.hash source)) s := by
  unfold perform Request.source
  rw [exec_bind, exec_checkPath]
  cases r.input.hasNul with
  | true => rfl
  | false =>
    simp only [Bool.false_eq_true, if_false]
    rw [exec_bind_of_ok (exec_get s), exec_bind, exec_ofExcept]
    cases documentText s.files r.input with
    | error failure => rfl
    | ok text =>
      simp only
      rw [exec_bind, exec_ofExcept]
      cases modeName r.mode <;> rfl

theorem exec_isUpToDate (r : Request) (hash : String) (s : RunState) :
    exec (isUpToDate r hash) s = (r.isCurrent s.files hash, s) := by
  unfold isUpToDate Request.isCurrent
  cases r.force with
  | true => rfl
  | false =>
    simp only [Bool.false_eq_true, if_false]
    rw [exec_bind, exec_checkPath]
    cases r.output.hasNul with
    | true => rfl
    | false =>
      simp only [Bool.false_eq_true, if_false]
      rw [exec_bind_of_ok (exec_get s), exec_bind, exec_ofExcept]
      cases OutputDirectory.storedHash s.files r.output <;> rfl

/-- The progress that generating a tree reports. -/
theorem exec_generate (formatter : Program) (r : Request) (text hash : String) (s : RunState) :
    ∃ progress, exec (generate formatter r text hash) s =
      match r.tree text with
      | .error failure => (.error failure, ⟨s.files, progress⟩)
      | .ok tree => exec (do checkPath r.output; finish formatter r tree hash)
          ⟨s.files, progress⟩ := by
  unfold generate Request.tree
  rw [exec_bind, exec_ofExcept]
  cases Source.document ⟨r.input.text, text⟩ with
  | error failure => exact ⟨s.progress, rfl⟩
  | ok document =>
    simp only [Except.ok_bind]
    rw [exec_bind, exec_ofNoted]
    refine ⟨s.progress ++ (Generation.generate r.mode (.map document)).notes, ?_⟩
    cases (Generation.generate r.mode (.map document)).result <;> rfl

/-- What is in the way of the output is found before anything is changed. -/
theorem exec_reset (directory : Path) (s : RunState) :
    exec (OutputDirectory.reset directory) s =
      match OutputDirectory.isReplaced s.files directory with
      | .error failure => (.error failure, s)
      | .ok replaced => exec (do
          if replaced then
            change (fun fs => fs.removeTree directory) (.notCleared directory.text)
          change (fun fs => fs.createDirectory directory false) (.notCreated directory.text)) s := by
  unfold OutputDirectory.reset
  rw [exec_bind_of_ok (exec_get s), exec_bind, exec_ofExcept]
  cases OutputDirectory.isReplaced s.files directory <;> rfl

theorem exec_finish_of_refused {tree : OutputTree} {hash : String} {failure : Failure}
    (h : OutputDirectory.isReplaced s.files r.output = .error failure) :
    exec (finish formatter r tree hash) s = (.error failure, s) := by
  have stopped : exec (OutputDirectory.reset r.output) s = (.error failure, s) := by
    rw [exec_reset, h]
  exact exec_bind_of_error (exec_bind_of_error stopped _) _

theorem exec_checkPath_finish {tree : OutputTree} {hash : String} :
    exec (do checkPath r.output; finish formatter r tree hash) s =
      match r.replaces s.files with
      | .error failure => (.error failure, s)
      | .ok _ => exec (finish formatter r tree hash) s := by
  rw [exec_bind, exec_checkPath]
  unfold Request.replaces
  cases r.output.hasNul with
  | true => rfl
  | false =>
    simp only [Bool.false_eq_true, if_false]
    cases found : OutputDirectory.isReplaced s.files r.output with
    | error failure => exact exec_finish_of_refused found
    | ok replaced => rfl

/-- **A run does what is planned.**  It fails with the files as they were, it is skipped with the
files as they were, or it writes the planned tree. -/
theorem exec_perform_plan (formatter : Program) (r : Request) (s : RunState) :
    ∃ progress, exec (perform formatter r) s =
      match r.plan s.files with
      | .error failure => (.error failure, ⟨s.files, progress⟩)
      | .ok none => (.ok ⟨r.output.text, [], [], true⟩, ⟨s.files, progress⟩)
      | .ok (some (tree, hash)) => exec (finish formatter r tree hash) ⟨s.files, progress⟩ := by
  rw [exec_perform]
  unfold Request.plan
  cases r.source s.files with
  | error failure => exact ⟨s.progress, rfl⟩
  | ok source =>
    simp only [Except.ok_bind]
    rw [exec_bind, exec_isUpToDate]
    cases r.isCurrent s.files (Request.hash source) with
    | error failure => exact ⟨s.progress, rfl⟩
    | ok current =>
      cases current with
      | true => exact ⟨s.progress ++ [.upToDate r.output.text r.input.text], rfl⟩
      | false =>
        obtain ⟨progress, generated⟩ :=
          exec_generate formatter r source.2 (Request.hash source) s
        refine ⟨progress, generated.trans ?_⟩
        cases r.tree source.2 with
        | error failure => rfl
        | ok tree =>
          simp only [Except.ok_bind]
          rw [exec_checkPath_finish]
          cases r.replaces s.files <;> rfl

theorem perform_of_refused (formatter : Program) {failure : Failure}
    (h : r.plan s.files = .error failure) :
    ∃ progress, exec (perform formatter r) s = (.error failure, ⟨s.files, progress⟩) := by
  obtain ⟨progress, done⟩ := exec_perform_plan formatter r s
  rw [h] at done
  exact ⟨progress, done⟩

theorem perform_of_skipped (formatter : Program) (h : r.plan s.files = .ok none) :
    ∃ progress, exec (perform formatter r) s =
      (.ok ⟨r.output.text, [], [], true⟩, ⟨s.files, progress⟩) := by
  obtain ⟨progress, done⟩ := exec_perform_plan formatter r s
  rw [h] at done
  exact ⟨progress, done⟩

theorem perform_of_planned (formatter : Program) {tree : OutputTree} {hash : String}
    (h : r.plan s.files = .ok (some (tree, hash))) :
    ∃ progress, exec (perform formatter r) s =
      exec (finish formatter r tree hash) ⟨s.files, progress⟩ := by
  obtain ⟨progress, done⟩ := exec_perform_plan formatter r s
  rw [h] at done
  exact ⟨progress, done⟩

end Perform

end Run
end TypedApi
