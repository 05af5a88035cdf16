import TypedApi.Failure
import TypedApi.Text.Order
import TypedApi.Text.Literal

/-! # Imports of a generated file

A file imports names from packages and from other generated files. The imports of a file form a
set: they are written sorted, one statement for each module. A module can be imported as a whole
under one alias only.
-/
namespace TypedApi.Code

/-- The folders of the output below its root. -/
inductive Folder where
  | api
  | client
  | model
deriving DecidableEq, Repr

/-- The name of a folder. -/
def Folder.name : Folder → String
  | .api => "api"
  | .client => "client"
  | .model => "model"

/-- Where an imported name comes from. -/
inductive Source where
  /-- A module by its name in the import statement. -/
  | package (name : String)
  /-- A generated file; without a folder, one at the root of the output. -/
  | generated (folder : Option Folder) (file : String)
deriving DecidableEq, Repr

/-- The way from the folder `base` to the folder `target`. -/
def relativePrefix (base target : Option Folder) : String :=
  if target = base then "."
  else match target, base with
    | none, _ => ".."
    | some folder, none => "./" ++ folder.name
    | some folder, some _ => "../" ++ folder.name

/-- The name of a module in the import statements of a file in the folder `base`. -/
def Source.specifier (base : Option Folder) : Source → String
  | .package name => name
  | .generated folder file => relativePrefix base folder ++ "/" ++ file

/-- A name that a file imports. -/
structure Import where
  source : Source
  name : String
deriving DecidableEq, Repr

namespace Import

/-- The module of the support file that checks and prints values. -/
def validateModule : Source := .generated none "validate"

/-- A helper of the support file that checks and prints values. -/
def helper (name : String) : Import := ⟨validateModule, name⟩

end Import

/-- A registered import: a name from a module, or a module as a whole under an alias. -/
structure Binding where
  module : String
  name : String
  isAlias : Bool
deriving DecidableEq, Repr

/-- The imports of a file in the folder `base`. -/
structure ImportSet where
  base : Option Folder
  bindings : List Binding
deriving DecidableEq, Repr

namespace ImportSet

/-- No imports. -/
def empty (base : Option Folder) : ImportSet := ⟨base, []⟩

/-- The alias under which a module is imported as a whole. -/
def alias? (imports : ImportSet) (module : String) : Option String :=
  (imports.bindings.find? fun b => b.isAlias && b.module == module).map (·.name)

/-- Registers an import. -/
def bind (imports : ImportSet) (b : Binding) : Except Failure ImportSet :=
  match if b.isAlias then imports.alias? b.module else none with
  | some registered =>
    if registered == b.name then .ok imports
    else .error (.aliasClash ⟨b.module, registered, b.name⟩)
  | none => .ok { imports with bindings := imports.bindings ++ [b] }

/-- Registers names from modules. -/
def addAll (imports : ImportSet) (names : List Import) : ImportSet :=
  { imports with
    bindings := imports.bindings
      ++ names.map fun i => ⟨i.source.specifier imports.base, i.name, false⟩ }

/-- The import statement of a module. -/
def statement (imports : ImportSet) (module : String) : String :=
  let named := imports.bindings.filterMap fun b =>
    if b.module == module && !b.isAlias then some b.name else none
  let symbols := (imports.alias? module).toList.map ("default as " ++ ·) ++ Text.sortedSet named
  "import \x7b " ++ Text.commaList symbols ++ " \x7d from " ++ Text.literal module ++ ";"

/-- The import statements, in the order of the modules. -/
def render (imports : ImportSet) : String :=
  "\n".intercalate ((Text.sortedSet (imports.bindings.map (·.module))).map imports.statement)

end ImportSet
end TypedApi.Code
