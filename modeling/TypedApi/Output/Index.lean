import TypedApi.Output.Mode
import TypedApi.Output.Model

/-! # Index files

The file that puts the controllers or the clients of all tags together.
-/
namespace TypedApi.Index

/-- The lines that register the controllers of some tags. -/
def registerLines (tags : List Identifier) : Emission (List String) := do
  Noted.note ⟨.package "express", "Express"⟩
  tags.forM fun tag => Noted.note ⟨.generated (some .api) tag.kebab, tag.upperCamel ++ "Api"⟩
  return ["/** Controllers for every api tag. */",
      "export type Apis = \x7b"]
    ++ tags.map (fun tag =>
      "\treadonly " ++ tag.lowerCamel ++ ": " ++ tag.upperCamel ++ "Api;") ++
    ["\x7d;",
     "",
     "/** Register the endpoints of every controller. */",
     "export const registerApis = (apis: Apis, app: Express): void => \x7b"]
    ++ tags.map (fun tag => "\tapis." ++ tag.lowerCamel ++ ".registerEndpoints(app);") ++
    ["\x7d;"]

/-- The lines of a class that holds the clients of some tags. -/
def clientsLines (tags : List Identifier) : Emission (List String) := do
  Noted.note ⟨.generated none "base-client", "ClientConfig"⟩
  tags.forM fun tag =>
    Noted.note ⟨.generated (some .client) tag.kebab, tag.upperCamel ++ "Client"⟩
  return ["/** Clients for every api tag, sharing one base config. */",
      "export class Clients \x7b"]
    ++ tags.map (fun tag =>
      "\tpublic readonly " ++ tag.lowerCamel ++ ": " ++ tag.upperCamel ++ "Client;") ++
    ["",
     "\tconstructor(baseConfig: ClientConfig) \x7b"]
    ++ tags.map (fun tag =>
      "\t\tthis." ++ tag.lowerCamel ++ " = new " ++ tag.upperCamel ++ "Client(baseConfig);") ++
    ["\t\x7d",
     "\x7d"]

/-- The index file of a mode for the given tags. -/
def file (mode : Mode) (tags : List Identifier) : Except Failure Code.SourceFile :=
  match mode with
  | .api => Emission.toFile none "register-apis.ts" (registerLines tags)
  | .client => Emission.toFile none "clients.ts" (clientsLines tags)

end TypedApi.Index
