import TypedApi.Files.FileTree
import TypedApi.Files.Path
import TypedApi.Text.Lines

/-! # File systems

A tree with a working directory, and what programs do with it: finding, reading and writing files,
and making and removing directories. A path is followed name by name through directories that
exist; only its last name may be free.
-/
namespace TypedApi

/-- A file tree with a working directory. -/
structure FileSystem where
  tree : FileTree
  current : Location

namespace FileSystem

/-! ## Finding -/

/-- What stands at a location. -/
def at? (fs : FileSystem) (l : Location) : Option FileTree := fs.tree.at? l

/-- Follows names from a location. -/
def follow (fs : FileSystem) (l : Location) : List String → Except SystemErrorKind Location
  | [] => .ok l
  | name :: rest =>
    match fs.at? l with
    | none => .error .notFound
    | some (.file _ _) => .error .notADirectory
    | some (.directory _) =>
      if name == Path.up then fs.follow l.dropLast rest
      else if Path.nameLimit < name.utf8ByteSize then .error .nameTooLong
      else fs.follow (l ++ [name]) rest

/-- Where a path leads. Nothing need stand there. -/
def locate (fs : FileSystem) (p : Path) : Except SystemErrorKind Location :=
  if Path.textLimit < p.text.utf8ByteSize then .error .nameTooLong
  else fs.follow (if p.root == "" then fs.current else []) p.parts

/-- What stands where a path leads. -/
def find (fs : FileSystem) (p : Path) : Except SystemErrorKind FileTree := do
  match fs.at? (← fs.locate p) with
  | some t => return t
  | none => throw .notFound

/-- What stands where a path leads, if anything; a path may lead nowhere. -/
def find? (fs : FileSystem) (p : Path) : Except SystemErrorKind (Option FileTree) :=
  match fs.find p with
  | .ok t => .ok (some t)
  | .error .notFound => .ok none
  | .error .notADirectory => .ok none
  | .error e => .error e

/-- Whether a path leads to a directory. -/
def isDirectory (fs : FileSystem) (p : Path) : Bool :=
  match fs.find p with
  | .ok t => t.isDirectory
  | .error _ => false

/-! ## Reading -/

/-- Why a text cannot be read. -/
inductive ReadFault where
  | system (e : SystemError)
  | notUtf8
deriving DecidableEq, Repr

/-- The data of a file. -/
def readData (fs : FileSystem) (p : Path) : Except SystemError ByteArray :=
  match fs.find p with
  | .ok (.file data _) => .ok data
  | .ok (.directory _) => .error ⟨.isADirectory, p.text⟩
  | .error e => .error ⟨e, p.text⟩

/-- The text of a file, with a line feed at the end of each line. -/
def readText (fs : FileSystem) (p : Path) : Except ReadFault String :=
  match fs.readData p with
  | .error e => .error (.system e)
  | .ok data =>
    match String.fromUTF8? data with
    | some s => .ok (Text.withLineFeeds s)
    | none => .error .notUtf8

/-! ## Writing -/

/-- The file system with `t` at a location. -/
def put (fs : FileSystem) (l : Location) (t : FileTree) : FileSystem :=
  { fs with tree := FileTree.put t fs.tree l }

/-- Writes a file. One that is there keeps its permissions. -/
def writeData (fs : FileSystem) (p : Path) (data : ByteArray) :
    Except SystemErrorKind FileSystem := do
  let l ← fs.locate p
  match fs.at? l with
  | some (.directory _) => throw .isADirectory
  | some (.file _ executable) => return fs.put l (.file data executable)
  | none => return fs.put l (.file data false)

/-- Makes a directory in one that exists. -/
def makeDirectory (fs : FileSystem) (p : Path) : Except SystemErrorKind FileSystem := do
  let l ← fs.locate p
  match fs.at? l with
  | some _ => throw .alreadyExists
  | none => return fs.put l (.directory [])

/-- A change of a file system that may stop halfway. -/
abbrev Change := FileSystem × Except SystemError Unit

/-- Makes a directory, and those around it that are missing. If `existing` is set, a directory
that is there will do. -/
def createDirectory (fs : FileSystem) (p : Path) (existing : Bool) : Change :=
  match fs.makeDirectory p with
  | .ok made => (made, .ok ())
  | .error .notFound =>
    if _h : p.parts = [] then (fs, .error ⟨.notFound, p.text⟩)
    else
      match createDirectory fs p.parent true with
      | (around, .error e) => (around, .error e)
      | (around, .ok ()) =>
        match around.makeDirectory p with
        | .ok made => (made, .ok ())
        | .error e =>
          (around, if e != .notFound && existing && around.isDirectory p then .ok ()
            else .error ⟨e, p.text⟩)
  | .error e =>
    (fs, if existing && fs.isDirectory p then .ok () else .error ⟨e, p.text⟩)
termination_by p.parts.length
decreasing_by exact Path.length_parent_lt _h

/-- Writes a file, and makes the directories around it that are missing. -/
def createFile (fs : FileSystem) (p : Path) (data : ByteArray) : Change :=
  match fs.createDirectory p.parent true with
  | (around, .error e) => (around, .error e)
  | (around, .ok ()) =>
    match around.writeData p data with
    | .ok written => (written, .ok ())
    | .error e => (around, .error ⟨e, p.text⟩)

/-! ## Removing -/

/-- Removes an empty directory. Neither the directory where a path starts nor one that it leaves
upwards can be removed through it. -/
def removeDirectory (fs : FileSystem) (p : Path) : Except SystemErrorKind FileSystem :=
  match fs.locate p, p.parts.getLast? with
  | _, none => .error .invalidArgument
  | .error e, _ => .error e
  | .ok l, some name =>
    if name == Path.up then .error .notEmpty
    else .ok { fs with tree := fs.tree.erase l }

/-- Removes a directory with all that is in it. What is in it goes first. -/
def removeTree (fs : FileSystem) (p : Path) : Change :=
  match fs.locate p with
  | .error e => (fs, .error ⟨e, p.text⟩)
  | .ok l =>
    let cleared := fs.put l (.directory [])
    match cleared.removeDirectory p with
    | .ok removed => (removed, .ok ())
    | .error e => (cleared, .error ⟨e, p.text⟩)

/-- Removes a file, or a directory with all that is in it. -/
def remove (fs : FileSystem) (p : Path) : Change :=
  match fs.find p, fs.locate p with
  | .ok (.directory _), _ => fs.removeTree p
  | .ok (.file _ _), .ok l => ({ fs with tree := fs.tree.erase l }, .ok ())
  | .error e, _ => (fs, .error ⟨e, p.text⟩)
  | .ok (.file _ _), .error e => (fs, .error ⟨e, p.text⟩)

/-- Makes a file a program. -/
def makeExecutable (fs : FileSystem) (p : Path) : FileSystem :=
  match fs.find p, fs.locate p with
  | .ok (.file data _), .ok l => fs.put l (.file data true)
  | _, _ => fs

end FileSystem
end TypedApi
