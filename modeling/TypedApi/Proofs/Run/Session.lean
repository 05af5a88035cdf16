import TypedApi.Proofs.Run.Written

/-! # Sessions

A call carries out a request on the files that it finds (`Call`).  It takes one of a few courses
(`Call.course`): it is refused or skipped with the files as they were, it breaks off while it changes
them, or it writes its output, which may be formatted then.  A session is a sequence of such calls with
edits of the files in between (`Session`); what is true after every session is shown for one call and one
edit.
-/
namespace TypedApi

/-- A request that is carried out on some files, with the program that formats. -/
structure Call where
  formatter : Program
  request : Request
  files : FileSystem

/-- A change of the files has failed, so that a run stopped halfway. -/
inductive Failure.Interrupts : Failure → Prop where
  | notCleared (directory : String) (cause : SystemError) :
      Interrupts (.output (.notCleared directory cause))
  | notCreated (directory : String) (cause : SystemError) :
      Interrupts (.output (.notCreated directory cause))
  | notWritten (path : String) (cause : SystemError) :
      Interrupts (.output (.notWritten path cause))

/-- Whether the formatter could not be run, or has failed. -/
def Failure.isFromFormatter : Failure → Bool
  | .output (.formatterNotRun _ _) => true
  | .output (.formatterFailed _ _) => true
  | _ => false

theorem Failure.Interrupts.isFromFormatter {failure : Failure} (h : failure.Interrupts) :
    failure.isFromFormatter = false := by
  cases h <;> rfl

namespace Call

/-- How a call ends. -/
def ends (c : Call) : Except Failure Outcome × RunState :=
  Run.exec (Run.perform c.formatter c.request) ⟨c.files, []⟩

/-- The result of a call. -/
def result (c : Call) : Except Failure Outcome := c.ends.1

/-- The files that a call leaves. -/
def left (c : Call) : FileSystem := c.ends.2.files

/-- The name of the mode of a call, and the text that it reads. -/
def source (c : Call) : Except Failure (String × String) := c.request.source c.files

/-- The location of the output of a call. -/
def place (c : Call) : Location := c.request.output.namesFrom c.files.current

/-- Whether a call has written an output. -/
def wrote (c : Call) : Bool :=
  match c.result with
  | .ok outcome => !outcome.skipped
  | .error _ => false

/-- Whether a call was skipped. -/
def skipped (c : Call) : Bool :=
  match c.result with
  | .ok outcome => outcome.skipped
  | .error _ => false

/-- The failure of a call, if it has failed. -/
def failure? (c : Call) : Option Failure :=
  match c.result with
  | .ok _ => none
  | .error failure => some failure

/-- A call has stopped halfway. -/
def Interrupted (c : Call) : Prop := ∃ failure, c.result = .error failure ∧ failure.Interrupts

/-- The same call without force, on the files that it left. -/
def again (c : Call) : Call := ⟨c.formatter, { c.request with force := false }, c.left⟩

/-- The same call with force. -/
def forced (c : Call) : Call := { c with request := { c.request with force := true } }

theorem failure?_eq_some {c : Call} {failure : Failure} :
    c.failure? = some failure ↔ c.result = .error failure := by
  unfold failure?
  cases c.result <;> simp

theorem wrote_of_skipped {c : Call} (h : c.skipped = true) : c.wrote = false := by
  unfold skipped at h
  unfold wrote
  cases found : c.result with
  | error failure => rfl
  | ok outcome =>
    rw [found] at h
    rw [Bool.not_eq_false']
    exact h

theorem not_error_of_skipped {c : Call} (h : c.skipped = true) (failure : Failure) :
    c.result ≠ .error failure := by
  intro failed
  rw [skipped, failed] at h
  cases h

/-! ## What a call can do -/

/-- The course that a call takes. -/
inductive Course (c : Call) : Prop where
  /-- The request is refused. -/
  | refused {failure : Failure} (plan : c.request.plan c.files = .error failure)
      (result : c.result = .error failure) (left : c.left = c.files)
  /-- The output is up to date. -/
  | skipped (plan : c.request.plan c.files = .ok none) (result : c.skipped = true)
      (left : c.left = c.files)
  /-- Writing the output fails. -/
  | broken {tree : OutputTree} {hash : String} {progress : List Progress} {failure : Failure}
      {stopped : RunState} (plan : c.request.plan c.files = .ok (some (tree, hash)))
      (write : Run.exec (OutputDirectory.write c.request.output tree.files hash)
        ⟨c.files, progress⟩ = (.error failure, stopped))
      (result : c.result = .error failure) (left : c.left = stopped.files)
  /-- The output is written. -/
  | written {tree : OutputTree} {hash : String} {progress : List Progress} {paths : List Path}
      {written : RunState} (plan : c.request.plan c.files = .ok (some (tree, hash)))
      (write : Run.exec (OutputDirectory.write c.request.output tree.files hash)
        ⟨c.files, progress⟩ = (.ok paths, written))
      (unformatted : c.request.format = false) (wrote : c.wrote = true)
      (left : c.left = written.files)
  /-- The output is written and handed to the formatter. -/
  | formatted {tree : OutputTree} {hash : String} {progress : List Progress} {paths : List Path}
      {written final : RunState} {formatting : Except Failure Unit}
      (plan : c.request.plan c.files = .ok (some (tree, hash)))
      (write : Run.exec (OutputDirectory.write c.request.output tree.files hash)
        ⟨c.files, progress⟩ = (.ok paths, written))
      (asked : c.request.format = true)
      (format : Run.exec (Formatter.format c.formatter c.request.output)
        ⟨written.files, written.progress ++ [.filesWritten paths.length c.request.output.text]⟩ =
          (formatting, final))
      (failed : ∀ failure, c.result = .error failure ↔ formatting = .error failure)
      (skipped : c.skipped = false) (left : c.left = final.files)

variable {c : Call}

theorem ends_of_planned {tree : OutputTree} {hash : String}
    (plan : c.request.plan c.files = .ok (some (tree, hash))) :
    ∃ progress, c.ends = Run.exec (Run.finish c.formatter c.request tree hash) ⟨c.files, progress⟩ :=
  Run.perform_of_planned c.formatter plan

/-- **Every call takes one of these courses.** -/
theorem course (c : Call) : c.Course := by
  cases plan : c.request.plan c.files with
  | error failure =>
    obtain ⟨progress, done⟩ := @Run.perform_of_refused _ ⟨c.files, []⟩ c.formatter failure plan
    refine .refused plan ?_ ?_
    · rw [result, ends, done]
    · rw [left, ends, done]
  | ok planned =>
    cases planned with
    | none =>
      obtain ⟨progress, done⟩ := @Run.perform_of_skipped _ ⟨c.files, []⟩ c.formatter plan
      refine .skipped plan ?_ ?_
      · rw [skipped, result, ends, done]
      · rw [left, ends, done]
    | some planned =>
      obtain ⟨tree, hash⟩ := planned
      obtain ⟨progress, done⟩ := ends_of_planned plan
      unfold Run.finish at done
      cases write : Run.exec (OutputDirectory.write c.request.output tree.files hash)
          ⟨c.files, progress⟩ with
      | mk outcome between =>
        cases outcome with
        | error failure =>
          rw [Run.exec_bind_of_error write] at done
          refine .broken plan write ?_ ?_
          · rw [result, done]
          · rw [left, done]
        | ok paths =>
          rw [Run.exec_bind_of_ok write, Run.exec_bind_of_ok (Run.exec_report _ _)] at done
          cases asked : c.request.format with
          | false =>
            rw [asked] at done
            refine .written plan write asked ?_ ?_
            · rw [wrote, result, done]
              rfl
            · rw [left, done]
              rfl
          | true =>
            rw [asked, if_pos rfl] at done
            cases format : Run.exec (Formatter.format c.formatter c.request.output)
                ⟨between.files,
                  between.progress ++ [.filesWritten paths.length c.request.output.text]⟩ with
            | mk formatting final =>
              rw [Run.exec_bind_pure, format] at done
              refine .formatted plan write asked format (fun failure => ?_) ?_ ?_
              · rw [result, done]
                cases formatting <;> simp [Except.map]
              · rw [skipped, result, done]
                cases formatting <;> rfl
              · rw [left, done]

end Call

/-! ## Interruptions -/

namespace OutputDirectory

open Run

variable {directory : Path} {s s' : RunState} {failure : Failure}

theorem interrupts_of_writeFiles {files : List Code.SourceFile}
    (h : exec (writeFiles directory files) s = (.error failure, s')) : failure.Interrupts := by
  induction files generalizing s with
  | nil => cases h
  | cons file rest ih =>
    rcases exec_bind_eq_error.mp h with h | ⟨_, wrote, -, h⟩
    · obtain ⟨e, -, rfl⟩ := exec_change_eq_error h
      exact .notWritten _ e
    · rcases exec_bind_eq_error.mp h with h | ⟨_, reported, -, h⟩
      · cases h
      · rcases exec_bind_eq_error.mp h with h | ⟨paths, final, -, h⟩
        · exact ih h
        · cases h

/-- Nothing but a failed change stops the writing of an output that is not refused. -/
theorem interrupts_of_write {files : List Code.SourceFile} {hash : String} {replaced : Bool}
    (h : exec (write directory files hash) s = (.error failure, s'))
    (allowed : isReplaced s.files directory = .ok replaced) : failure.Interrupts := by
  rcases exec_bind_eq_error.mp h with h | ⟨_, empty, -, h⟩
  · cases replaced with
    | false =>
      rw [exec_reset_of_free allowed] at h
      obtain ⟨e, -, rfl⟩ := exec_change_eq_error h
      exact .notCreated _ e
    | true =>
      rw [exec_reset_of_replaced allowed] at h
      rcases exec_bind_eq_error.mp h with h | ⟨_, cleared, -, h⟩
      · obtain ⟨e, -, rfl⟩ := exec_change_eq_error h
        exact .notCleared _ e
      · obtain ⟨e, -, rfl⟩ := exec_change_eq_error h
        exact .notCreated _ e
  · rcases exec_bind_eq_error.mp h with h | ⟨paths, filled, -, h⟩
    · exact interrupts_of_writeFiles h
    · rcases exec_bind_eq_error.mp h with h | ⟨_, marked, -, h⟩
      · obtain ⟨e, -, rfl⟩ := exec_change_eq_error h
        exact .notWritten _ e
      · cases h

end OutputDirectory

/-! ## Sequences of calls -/

/-- A sequence of admitted calls with edits of the files in between.  The calls are listed from the
last one to the first, and the files are those at the end. -/
inductive Session (admits : Call → Prop) (edits : FileSystem → FileSystem → Prop)
    (start : FileSystem) : List Call → FileSystem → Prop where
  | start : Session admits edits start [] start
  | edited {calls : List Call} {files files' : FileSystem}
      (before : Session admits edits start calls files) (edit : edits files files') :
      Session admits edits start calls files'
  | called {calls : List Call} {c : Call} (before : Session admits edits start calls c.files)
      (admitted : admits c) : Session admits edits start (c :: calls) c.left

end TypedApi
