import TypedApi.CommandLine.Arguments
import TypedApi.Run

/-! # The command line

Carries out what the arguments of the program ask for, and says what it prints and the status
that it ends with.
-/
namespace TypedApi.CommandLine

/-- What a call of the program leaves. -/
structure Reply where
  status : Nat
  output : String
  errors : String
deriving DecidableEq, Repr

/-! ## Texts -/

/-- Progress with its weight and the part of the program that makes it. -/
def logLine (p : Progress) : String :=
  let generator := "openapi_to_typescript_generator.generator: "
  let writer := "openapi_to_typescript_generator.writer: "
  let line := match p with
    | .modelsEmitted n => "DEBUG " ++ generator ++ "Emitted " ++ toString n ++ " model files"
    | .tagFilesEmitted n mode =>
      "DEBUG " ++ generator ++ "Emitted " ++ toString n ++ " " ++ mode.name ++ " files"
    | .fileWritten path => "DEBUG " ++ writer ++ "Wrote " ++ path
    | .filesWritten n directory =>
      "INFO " ++ generator ++ "Wrote " ++ toString n ++ " files to " ++ directory
    | .upToDate directory input =>
      "INFO " ++ generator ++ directory ++ " is up to date with " ++ input
  line ++ "\n"

/-- What is printed about progress. -/
def log (verbose : Bool) (progress : List Progress) : String :=
  if verbose then String.join (progress.map logLine) else ""

/-- What is printed about a fault. -/
def complaint (message : String) : String :=
  usage ++ programName ++ ": error: " ++ message ++ "\n"

/-- What is printed about a run. -/
def summary (output : String) (o : Outcome) : String :=
  if o.skipped then output ++ " is up to date; use --force to regenerate\n"
  else
    String.join (o.warnings.map fun w => "Warning: " ++ w ++ "\n")
      ++ "Generated " ++ toString o.written.length ++ " files in " ++ o.output ++ "\n"

/-! ## Calls -/

/-- The run that is asked for. -/
def request (order : Order) : Request :=
  ⟨.ofText order.input, .ofText order.output, .text order.mode.name, order.force, order.format⟩

/-- Generates what is asked for. A defect is no reply. -/
def generation (formatter : Program) (order : Order) (files : FileSystem) :
    FileSystem × Option Reply :=
  let (outcome, s) := (Run.perform formatter (request order)).run.run ⟨files, []⟩
  let logged := log order.verbose s.progress
  (s.files, match outcome with
    | .ok o => some ⟨0, summary order.output o, logged⟩
    | .error e => if e.isDefect then none else some ⟨2, "", logged ++ complaint e.message⟩)

/-- Carries out a call of the program. Without a reply the call broke down. -/
def call (formatter : Program) (arguments : List String) (files : FileSystem) :
    FileSystem × Option Reply :=
  match Wish.ofArguments arguments with
  | .error fault => (files, some ⟨2, "", complaint fault.message⟩)
  | .ok .help => (files, some ⟨0, helpText, ""⟩)
  | .ok .version => (files, some ⟨0, programName ++ " " ++ programVersion ++ "\n", ""⟩)
  | .ok (.generation order) => generation formatter order files

end TypedApi.CommandLine
