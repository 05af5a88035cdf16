import TypedApi.Document.Value

/-! # Modes

What is generated from a document: controllers of a server or clients.
-/
namespace TypedApi

/-- What is generated for each tag. -/
inductive Mode where
  | api
  | client
deriving DecidableEq, Repr

namespace Mode

/-- The name of a mode. -/
def name : Mode → String
  | .api => "api"
  | .client => "client"

/-- The mode with the given name. -/
def ofName? (name : String) : Option Mode :=
  [Mode.api, Mode.client].find? fun mode => mode.name == name

@[simp] theorem ofName?_name (mode : Mode) : ofName? mode.name = some mode := by
  cases mode <;> rfl

end Mode
end TypedApi
