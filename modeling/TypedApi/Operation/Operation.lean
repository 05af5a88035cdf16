import TypedApi.Operation.PathTemplate
import TypedApi.Text.Blank

/-! # Operations

An operation is a method on a path, with the parameters that its path shares with it. The
operations of a document are read in document order and then grouped by their tags.
-/
namespace TypedApi

/-- The methods of HTTP that an operation can have. -/
inductive Method where
  | get
  | put
  | post
  | delete
  | options
  | head
  | patch
  | trace
deriving DecidableEq, Repr

namespace Method

/-- The name of a method as a member of a path item. -/
def key : Method → String
  | .get => "get"
  | .put => "put"
  | .post => "post"
  | .delete => "delete"
  | .options => "options"
  | .head => "head"
  | .patch => "patch"
  | .trace => "trace"

/-- The name of a method in a request. -/
def name : Method → String
  | .get => "GET"
  | .put => "PUT"
  | .post => "POST"
  | .delete => "DELETE"
  | .options => "OPTIONS"
  | .head => "HEAD"
  | .patch => "PATCH"
  | .trace => "TRACE"

/-- Every method. -/
def all : List Method := [.get, .put, .post, .delete, .options, .head, .patch, .trace]

/-- The method that a member of a path item is for. -/
def ofKey? : Scalar → Option Method
  | .text key => all.find? fun method => method.key == key
  | _ => none

end Method

/-- A method on a path. -/
structure Operation where
  method : Method
  path : String
  url : PathTemplate
  tag : String
  /-- The members of the operation object. -/
  members : Members
  /-- The parameters of the operation and those of its path that it does not redefine. -/
  parameters : List Members

namespace Operation

/-- The name of a method on a path in messages. -/
def labelOf (method : Method) (path : String) : String := method.name ++ " " ++ path

/-- The name of an operation in messages. -/
def label (operation : Operation) : String := labelOf operation.method operation.path

end Operation

/-- A value that is a text with a visible character, trimmed. -/
def Value.visibleText? (v : Value) : Option String :=
  v.text?.bind Text.trimmed?

/-- A member of an operation that is a text with a visible character, trimmed. -/
def Operation.text? (operation : Operation) (key : String) : Option String :=
  (operation.members.getD key).visibleText?

/-- The operations of a tag in document order. -/
structure TagGroup where
  name : String
  description : Option String
  operations : List Operation

/-- A tag that a document declares. -/
structure TagDeclaration where
  name : String
  description : Option String
deriving DecidableEq, Repr

namespace Operation

/-- Refuses members other than those `allowed`. -/
def expectOnly (owner : String) (members : Members) (allowed : List String) :
    Except Failure Unit :=
  let unexpected := members.filterMap fun m =>
    match m.1 with
    | .text key => if allowed.contains key then none else some key
    | key => some key.plain
  if unexpected.isEmpty then .ok ()
  else .error (.operation (.unexpectedMembers owner (Text.sorted unexpected)))

/-- The members that an operation may have. -/
def allowedMembers : List String :=
  ["summary", "description", "operationId", "parameters", "requestBody", "responses", "security",
   "tags"]

/-- Reads the declaration of a tag. -/
def readTag (tag : Value) : Except Failure TagDeclaration :=
  match tag with
  | .map members =>
    match (Members.getD "name" members).text? with
    | some name =>
      if Text.isBlankText name then .error (.operation (.namelessTag tag))
      else do
        expectOnly ("tag " ++ Text.quoted name) members ["name", "description"]
        return ⟨name, (Members.getD "description" members).text?.map Text.trim⟩
    | none => .error (.operation (.namelessTag tag))
  | _ => .error (.operation (.namelessTag tag))

/-- Reads the declarations of tags after those with the names `seen`. -/
def readTags (seen : List String) : List Value → Except Failure (List TagDeclaration)
  | [] => .ok []
  | tag :: rest => do
    let declaration ← readTag tag
    if seen.contains declaration.name then
      throw (.operation (.repeatedTag declaration.name))
    let later ← readTags (declaration.name :: seen) rest
    return declaration :: later

/-- Reads a parameter object. -/
def readParameter (owner : String) : Value → Except Failure Members
  | .map members =>
    if Members.has "$ref" members then .error (.operation (.parameterReference owner)) else .ok members
  | _ => .error (.operation (.parameterNotObject owner))

/-- Reads the parameter objects of a path or an operation. -/
def readParameters (owner : String) : Value → Except Failure (List Members)
  | .null => .ok []
  | .list items => items.mapM (readParameter owner)
  | _ => .error (.operation (.parametersNotList owner))

/-- What tells a parameter from the others: its name with its location. -/
def parameterKey (parameter : Members) : Except Failure (Scalar × Scalar) :=
  match parameter.getD "name", parameter.getD "in" with
  | .scalar name, .scalar location => .ok (name, location)
  | _, _ => .error (.defect .collectionAsName)

/-- Whether two parameters have the same name and location. -/
def sameKey (a b : Scalar × Scalar) : Bool := a.1.same b.1 && a.2.same b.2

/-- The parameters of a path that the operation does not redefine, then those of the operation. -/
def mergeParameters (shared own : List Members) : Except Failure (List Members) := do
  let ownKeys ← own.mapM parameterKey
  let sharedKeys ← shared.mapM parameterKey
  let kept := (shared.zip sharedKeys).filter fun p => !ownKeys.any (sameKey p.2)
  return kept.map (·.1) ++ own

/-- The only tag of an operation. -/
def onlyTag (label : String) (members : Members) : Except Failure String :=
  let tags := members.getD "tags"
  match tags with
  | .list [tag] =>
    match tag.text? with
    | some name => .ok name
    | none => .error (.operation (.notOneTag label tags))
  | _ => .error (.operation (.notOneTag label tags))

/-- Reads the operation of a path item. -/
def read (declared : List String) (path : String) (url : PathTemplate) (shared : List Members)
    (method : Method) : Value → Except Failure Operation
  | .map members => do
    let label := labelOf method path
    expectOnly ("operation " ++ label) members allowedMembers
    let tag ← onlyTag label members
    if !declared.contains tag then throw (.operation (.undeclaredTag tag label))
    let own ← readParameters label (Members.getD "parameters" members)
    let parameters ← mergeParameters shared own
    return ⟨method, path, url, tag, members, parameters⟩
  | _ => .error (.operation (.operationNotObject (labelOf method path)))

/-- Reads the operations among the members of a path item; other members are no operations. -/
def readMembers (declared : List String) (path : String) (url : PathTemplate)
    (shared : List Members) : Members → Except Failure (List Operation)
  | [] => .ok []
  | (key, value) :: rest =>
    match Method.ofKey? key with
    | none => readMembers declared path url shared rest
    | some method => do
      let operation ← read declared path url shared method value
      let later ← readMembers declared path url shared rest
      return operation :: later

/-- Reads the operations of a path. -/
def readPath (declared : List String) (key : Scalar) (item : Value) :
    Except Failure (List Operation) :=
  match item, key with
  | .map members, .text path => do
    let url ← PathTemplate.parse path
    let shared ← readParameters path (Members.getD "parameters" members)
    readMembers declared path url shared members
  | .map _, _ => .error (.defect .nameNotText)
  | _, key => .error (.operation (.pathItemNotObject key))

/-- Reads the operations of a document, in document order. -/
def readPaths (declared : List String) : Members → Except Failure (List Operation)
  | [] => .ok []
  | (key, item) :: rest => do
    let operations ← readPath declared key item
    let later ← readPaths declared rest
    return operations ++ later

/-- The operations of a document, grouped by tag in the order of the declarations. -/
def grouped (paths : Members) (tags : List Value) : Except Failure (List TagGroup) := do
  let declarations ← readTags [] tags
  let operations ← readPaths (declarations.map (·.name)) paths
  return declarations.map fun tag =>
    ⟨tag.name, tag.description, operations.filter fun o => o.tag == tag.name⟩

end Operation
end TypedApi
