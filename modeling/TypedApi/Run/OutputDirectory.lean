import TypedApi.Run.State

/-! # The output directory

A run replaces the output directory with the generated files. The hash file, which is written
last, marks the directory as generated: a directory without it is only replaced if it is empty.
-/
namespace TypedApi
namespace OutputDirectory

/-- The name of the hash file. -/
def hashFileName : String := ".openapi-hash"

/-- The path of the hash file of an output directory. -/
def hashFile (directory : Path) : Path := directory.child hashFileName

/-- The hash that the last run left in an output directory, if there is one. -/
def storedHash (files : FileSystem) (directory : Path) : Except Failure (Option String) :=
  match files.readText (hashFile directory) with
  | .ok text => .ok (Text.trimmed? text)
  | .error .notUtf8 => .error (.defect .notUtf8)
  | .error (.system e) =>
    if e.kind == .notFound then .ok none
    else .error (.output (.unreadableHash directory.text e))

/-- What stands at a path, for a step that expects no error when it looks. -/
def look (files : FileSystem) (p : Path) : Except Failure (Option FileTree) :=
  match files.find? p with
  | .ok t => .ok t
  | .error _ => .error (.defect .unforeseenSystemError)

/-- Whether a directory holds a hash file. -/
def isGenerated (files : FileSystem) (directory : Path) : Except Failure Bool := do
  match ← look files (hashFile directory) with
  | some (.file _ _) => return true
  | _ => return false

/-- Whether something to be replaced stands at the path of an output directory. Anything but a
generated or an empty directory is refused. -/
def isReplaced (files : FileSystem) (directory : Path) : Except Failure Bool := do
  match ← look files directory with
  | none => return false
  | some (.file _ _) => throw (.output (.notADirectory directory.text))
  | some (.directory entries) =>
    if !(← isGenerated files directory) && !entries.isEmpty then
      throw (.output (.foreignDirectory directory.text))
    return true

/-- Leaves an empty output directory. -/
def reset (directory : Path) : Run Unit := do
  if ← Run.ofExcept (isReplaced (← get).files directory) then
    Run.change (fun fs => fs.removeTree directory) (.notCleared directory.text)
  Run.change (fun fs => fs.createDirectory directory false) (.notCreated directory.text)

/-- Writes a file. -/
def writeFile (p : Path) (content : String) : Run Unit :=
  Run.change (fun fs => fs.createFile p content.toUTF8) (.notWritten p.text)

/-- Writes generated files to an output directory, and gives their paths. -/
def writeFiles (directory : Path) : List Code.SourceFile → Run (List Path)
  | [] => return []
  | file :: rest => do
    let p := directory.child file.path
    writeFile p file.content
    Run.report (.fileWritten p.text)
    return p :: (← writeFiles directory rest)

/-- Replaces an output directory with generated files and the hash of what they were generated
from, and gives the paths of all files. -/
def write (directory : Path) (files : List Code.SourceFile) (hash : String) :
    Run (List Path) := do
  reset directory
  let written ← writeFiles directory files
  writeFile (hashFile directory) (hash ++ "\n")
  return written ++ [hashFile directory]

end OutputDirectory
end TypedApi
