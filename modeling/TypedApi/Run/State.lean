import TypedApi.Files.FileSystem
import TypedApi.Generation

/-! # Steps of a run

A run reads and changes files, reports its progress and may fail. What it did before a failure
stays done.
-/
namespace TypedApi

/-- What a run works on. -/
structure RunState where
  files : FileSystem
  /-- What was reported, in order. -/
  progress : List Progress

/-- A step of a run. -/
abbrev Run := ExceptT Failure (StateM RunState)

namespace Run

/-- Reports progress. -/
def report (p : Progress) : Run Unit :=
  modify fun s => { s with progress := s.progress ++ [p] }

/-- A step that may fail and changes nothing. -/
def ofExcept {α : Type} (x : Except Failure α) : Run α :=
  match x with
  | .ok a => return a
  | .error e => throw e

/-- A step with the progress that it reports. -/
def ofNoted {α : Type} (x : Noted Progress α) : Run α := do
  modify fun s => { s with progress := s.progress ++ x.notes }
  ofExcept x.result

/-- A change of the files; `fault` says what its failure means. -/
def change (step : FileSystem → FileSystem.Change) (fault : SystemError → OutputFault) :
    Run Unit := do
  let s ← get
  let (files, outcome) := step s.files
  set { s with files := files }
  match outcome with
  | .ok () => return ()
  | .error e => throw (.output (fault e))

/-- Refuses a path that no file can have. -/
def checkPath (p : Path) : Run Unit :=
  if p.hasNul then throw (.defect .unforeseenSystemError) else return ()

end Run
end TypedApi
