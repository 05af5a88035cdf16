import TypedApi.CommandLine.Session

/-! # The program

Reads the files that a call names, carries out the call on them, and writes back what changed.
Other programs are not started, so formatting always fails.
-/
namespace TypedApi.Main

/-- The text of a location. -/
def locationText (l : Location) : String := "/" ++ "/".intercalate l

/-- The tree at a location, with all that is in it if `deep` is set. -/
partial def load (deep : Bool) (l : Location) : IO (Option FileTree) := do
  let place := (← IO.currentDir) / locationText l
  if ← place.isDir then
    let mut entries : List (String × FileTree) := []
    if deep then
      for entry in ← place.readDir do
        if let some t ← load true (l ++ [entry.fileName]) then
          entries := (entry.fileName, t) :: entries
    return some (.directory entries)
  else if ← place.pathExists then
    return some (.file (← IO.FS.readBinFile place) false)
  else return none

/-- The file system with what stands on the way to a location, and at the location. -/
def loadInto (files : FileSystem) (l : Location) : IO FileSystem := do
  let mut files := files
  for n in List.range (l.length + 1) do
    let here := l.take n
    if (files.at? here).isNone || n == l.length then
      if let some t ← load (n == l.length) here then
        files := files.put here t
  return files

/-- Writes what differs between two trees at a location. -/
partial def store (l : Location) (old new : Option FileTree) : IO Unit := do
  let place := (← IO.currentDir) / locationText l
  match old, new with
  | none, none => return
  | some (.directory _), none => IO.FS.removeDirAll place
  | some (.file _ _), none => IO.FS.removeFile place
  | some (.file before _), some (.file after _) =>
    if before != after then IO.FS.writeBinFile place after
  | _, some (.file after _) => IO.FS.writeBinFile place after
  | old, some (.directory after) =>
    let before := match old with
      | some (.directory entries) => entries
      | _ => []
    IO.FS.createDirAll place
    for (name, t) in before do
      if (after.lookup name).isNone then store (l ++ [name]) (some t) none
    for (name, t) in after do
      store (l ++ [name]) (before.lookup name) (some t)

/-- The paths that a call names. -/
def namedPaths (arguments : List String) : List Path :=
  match CommandLine.Wish.ofArguments arguments with
  | .ok (.generation order) => [.ofText order.output, .ofText order.input]
  | _ => []

/-- Carries out a call on the files of the machine. -/
def run (arguments : List String) : IO UInt32 := do
  let current := (Path.ofText (← IO.currentDir).toString).parts
  let mut files : FileSystem := ⟨.directory [], current⟩
  for p in namedPaths arguments do
    files ← loadInto files (p.namesFrom current)
  let (after, reply) := CommandLine.call Program.absent arguments files
  store [] (some files.tree) (some after.tree)
  match reply with
  | some r =>
    (← IO.getStdout).putStr r.output
    (← IO.getStderr).putStr r.errors
    return r.status.toUInt32
  | none => return 1

end TypedApi.Main

/-- The program. -/
def main (arguments : List String) : IO UInt32 := TypedApi.Main.run arguments
