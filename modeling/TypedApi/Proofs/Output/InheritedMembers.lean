import TypedApi.Proofs.Operation.MethodNames
import TypedApi.Proofs.Output.TagFiles
import TypedApi.Proofs.Support.Declarations

/-! # Methods and inherited members

A generated class extends the base class of its support file, so a method must not have the name of
a member that the base class declares.  The names of methods are compared with a list of reserved
names, which is not read off the support files: it has every member of the base class of controllers,
but misses one property of the base class of clients.  Here the members are read off the lines of the
class, and the missing name is the only one that a method can share with them
(`Signature.clashes_iff`).
-/
namespace TypedApi

/-! ## The members of a class -/

namespace Code

/-- The words that may stand in front of the name of a member, in the order in which they do. -/
def memberLeads : List String :=
  ["public ", "private ", "protected ", "static ", "abstract ", "override ", "readonly ", "async ",
   "get ", "set "]

/-- The text without a word in front of it. -/
def withoutLead (text : List Char) (lead : String) : List Char :=
  if lead.toList.isPrefixOf text then text.drop lead.toList.length else text

/-- What may follow the name of a member: its parameters, its type, its value or the end. -/
def memberMarks : List Char := ['(', '<', ':', '?', '!', '=', ';']

/-- The name in front of a mark. -/
def markedName? (text : List Char) : Option String :=
  let name := text.takeWhile isNamePart
  match text.dropWhile isNamePart with
  | [] => none
  | mark :: _ => if !name.isEmpty && memberMarks.contains mark then some (.ofList name) else none

/-- The member that a line in the body of a class declares.  Members are indented once. -/
def classMember? : List Char → Option String
  | '\t' :: text => markedName? (memberLeads.foldl withoutLead text)
  | _ => none

/-- The lines between the one that opens a class and the one that closes it. -/
def classBody (opening : String) (lines : List (List Char)) : List (List Char) :=
  (lines.dropWhile (· != opening.toList)).tail.takeWhile (· != ['\x7d'])

/-- The members that the class with the given opening line declares. -/
def classMembers (opening : String) (lines : List String) : List String :=
  (classBody opening (lines.map String.toList)).filterMap classMember?

/-- The members are read off the characters of the lines, which need not be computed from them. -/
theorem classMembers_of_spelled {opening : String} {lines : List String} {members : List String}
    (h : ∃ spelled, List.Forall₂ (fun line cs => line = String.ofList cs) lines spelled ∧
      (classBody opening spelled).filterMap classMember? = members) :
    classMembers opening lines = members := by
  obtain ⟨spelled, same, rfl⟩ := h
  rw [classMembers]
  congr 2
  induction same with
  | nil => rfl
  | cons own _ ih => rw [List.map_cons, ih, own, String.toList_ofList]

/-! ## Reading a member -/

section Member
variable {name rest : List Char} {mark : Char}

/-- A lead is a word with a blank behind it. -/
theorem memberLeads_spelled : ∀ lead ∈ memberLeads,
    lead.toList = lead.toList.dropLast ++ [' '] ∧ ∀ c ∈ lead.toList.dropLast, isNamePart c = true := by
  have spelled : memberLeads.all (fun lead => lead.toList == lead.toList.dropLast ++ [' '] &&
      lead.toList.dropLast.all isNamePart) = true := by
    decide
  intro lead hl
  simpa using List.all_eq_true.mp spelled lead hl

/-- A word is only taken for a lead if it is one. -/
theorem withoutLead_of_ne {lead : String} (hl : lead ∈ memberLeads)
    (parts : ∀ c ∈ name, isNamePart c = true) (stop : isNamePart mark = false)
    (other : lead.toList ≠ name ++ [mark]) :
    withoutLead (name ++ mark :: rest) lead = name ++ mark :: rest := by
  obtain ⟨spelled, word⟩ := memberLeads_spelled lead hl
  refine if_neg fun starts => ?_
  obtain ⟨behind, same⟩ := List.isPrefixOf_iff_prefix.mp starts
  rw [spelled, List.append_assoc, List.singleton_append] at same
  have blank : isNamePart ' ' = false := by decide
  have words := congrArg (List.takeWhile isNamePart) same
  rw [List.takeWhile_append_of_pos word, List.takeWhile_append_of_pos parts,
    List.takeWhile_cons_of_neg (by simp [blank]), List.takeWhile_cons_of_neg (by simp [stop]),
    List.append_nil, List.append_nil] at words
  rw [words] at same
  obtain ⟨rfl, -⟩ := List.cons.inj (List.append_cancel_left same)
  exact other (by rw [spelled, words])

theorem foldl_withoutLead {leads : List String} (sub : leads ⊆ memberLeads)
    (parts : ∀ c ∈ name, isNamePart c = true) (stop : isNamePart mark = false)
    (other : ∀ lead ∈ leads, lead.toList ≠ name ++ [mark]) :
    leads.foldl withoutLead (name ++ mark :: rest) = name ++ mark :: rest := by
  induction leads with
  | nil => rfl
  | cons lead leads ih =>
    obtain ⟨own, sub⟩ := List.cons_subset.mp sub
    obtain ⟨apart, other⟩ := List.forall_mem_cons.mp other
    rw [List.foldl_cons, withoutLead_of_ne own parts stop apart]
    exact ih sub other

theorem markedName?_method (parts : ∀ c ∈ name, isNamePart c = true) (nonempty : name ≠ []) :
    markedName? (name ++ '(' :: rest) = some (.ofList name) := by
  have stop : isNamePart '(' = false := by decide
  have marked : memberMarks.contains '(' = true := by decide
  have word : (name ++ '(' :: rest).takeWhile isNamePart = name := by
    rw [List.takeWhile_append_of_pos parts, List.takeWhile_cons_of_neg (by simp [stop]),
      List.append_nil]
  have behind : (name ++ '(' :: rest).dropWhile isNamePart = '(' :: rest := by
    rw [List.dropWhile_append_of_pos parts, List.dropWhile_cons_of_neg (by simp [stop])]
  have given : name.isEmpty = false := by simpa using nonempty
  simp only [markedName?, word, behind, marked, given, Bool.not_false, Bool.and_self, if_true]

/-- **A method is read as a member**, whether it is abstract or not. -/
theorem classMember?_method (parts : ∀ c ∈ name, isNamePart c = true) (nonempty : name ≠ [])
    (rest : List Char) :
    classMember? ('\t' :: (name ++ '(' :: rest)) = some (.ofList name) ∧
      classMember? ('\t' :: ("abstract ".toList ++ (name ++ '(' :: rest))) =
        some (.ofList name) := by
  have kept (leads : List String) (sub : leads ⊆ memberLeads) :
      leads.foldl withoutLead (name ++ '(' :: rest) = name ++ '(' :: rest := by
    refine foldl_withoutLead sub parts (by decide) fun lead hl same => ?_
    obtain ⟨spelled, -⟩ := memberLeads_spelled lead (sub hl)
    rw [spelled] at same
    cases (List.append_inj' same rfl).2
  have abstract_ : memberLeads.foldl withoutLead ("abstract ".toList ++ (name ++ '(' :: rest)) =
      name ++ '(' :: rest := by
    have leads : memberLeads = memberLeads.take 4 ++ "abstract " :: memberLeads.drop 5 := rfl
    have word : ∀ c ∈ "abstract".toList, isNamePart c = true :=
      List.all_eq_true.mp (by decide)
    have lead : "abstract ".toList = "abstract".toList ++ [' '] := by decide
    have before : (memberLeads.take 4).foldl withoutLead
        ("abstract ".toList ++ (name ++ '(' :: rest)) =
          "abstract ".toList ++ (name ++ '(' :: rest) := by
      rw [lead, List.append_assoc]
      exact foldl_withoutLead (List.take_subset 4 _) word (by decide) (by decide)
    have starts : "abstract ".toList.isPrefixOf
        ("abstract ".toList ++ (name ++ '(' :: rest)) = true :=
      List.isPrefixOf_iff_prefix.mpr (List.prefix_append _ _)
    rw [leads, List.foldl_append, List.foldl_cons, before, withoutLead, if_pos starts,
      List.drop_left]
    exact kept _ (List.drop_subset 5 _)
  have read (text : List Char) (h : memberLeads.foldl withoutLead text = name ++ '(' :: rest) :
      classMember? ('\t' :: text) = some (.ofList name) := by
    rw [show classMember? ('\t' :: text) = markedName? (memberLeads.foldl withoutLead text) from rfl,
      h]
    exact markedName?_method parts nonempty
  exact ⟨read _ (kept _ (List.Subset.refl _)), read _ abstract_⟩

end Member

end Code

namespace Support

/-- The line that opens the base class of controllers or of clients. -/
def baseOpening : Mode → String
  | .api => "export abstract class BaseApi \x7b"
  | .client => "export abstract class BaseClient \x7b"

/-- The members that the base class of controllers or of clients declares. -/
def baseMembers (mode : Mode) : List String :=
  Code.classMembers (baseOpening mode) (baseLines mode)

theorem baseMembers_api : baseMembers .api = ["handleResponse", "printResponse"] := by
  apply Code.classMembers_of_spelled
  apply Exists.intro
  apply And.intro
  case left =>
    dsimp only [baseLines, baseApiLines]
    repeat (apply List.Forall₂.cons; rfl)
    exact .nil
  case right => decide

set_option maxRecDepth 4000 in
/-- The request function is declared once for each way to call it, and then defined. -/
theorem baseMembers_client :
    baseMembers .client =
      ["baseConfig", "constructor", "fetch", "fetch", "fetch", "fetch", "fetch"] := by
  apply Code.classMembers_of_spelled
  apply Exists.intro
  apply And.intro
  case left =>
    dsimp only [baseLines, baseClientLines]
    repeat (apply List.Forall₂.cons; rfl)
    exact .nil
  case right => decide

end Support

/-! ## Clashes -/

namespace Signature

/-- The members of a generated class that are no methods of operations: what every class has, what
controllers have, and what the base class declares. -/
def otherMembers (mode : Mode) : List String :=
  "constructor" :: "registerEndpoints" :: Support.baseMembers mode

/-- **The reserved names miss one member.** -/
theorem mem_otherMembers_iff {name : String} {mode : Mode} (free : name ∉ reservedMethods) :
    name ∈ otherMembers mode ↔ mode = .client ∧ name = "baseConfig" := by
  simp only [reservedMethods, List.mem_cons, List.not_mem_nil, or_false, not_or] at free
  cases mode with
  | api => simp [otherMembers, Support.baseMembers_api, free]
  | client => simp [otherMembers, Support.baseMembers_client, free]

section Group
variable {registry : Registry} {group : TagGroup} {tag : Identifier} {signatures : List Signature}

/-- The methods of a tag are those that its operations name. -/
theorem exists_methodName_iff (named : Identifier.ofSpaced group.name = .ok tag)
    (h : (ofGroup registry group).result = .ok signatures) (name : String) :
    (∃ signature ∈ signatures, signature.methodName = name) ↔
      ∃ operation ∈ group.operations, methodNameOf tag operation = .ok name := by
  obtain ⟨⟨-, operations⟩, -⟩ := ofGroup_yields signatures h
  obtain ⟨tag', named', h⟩ := Noted.bind_eq_ok.mp h
  cases named.symm.trans named'
  have own := made_of_ofOperations h
  rw [← operations]
  constructor
  · rintro ⟨signature, member, rfl⟩
    exact ⟨_, List.mem_map_of_mem member, (own signature member).named⟩
  · rintro ⟨operation, member, spelled⟩
    obtain ⟨signature, hs, rfl⟩ := List.mem_map.mp member
    exact ⟨signature, hs, Except.ok.inj ((own signature hs).named.symm.trans spelled)⟩

/-- The lines of the file with the class of a tag. -/
def classLines (registry : Registry) (tag : Identifier) (group : TagGroup) :
    Mode → Emission (List String)
  | .api => Controller.lines registry tag group
  | .client => Client.lines registry tag group

/-- The members that some lines declare. -/
def declaredMembers (lines : List String) : List String :=
  lines.filterMap fun line => Code.classMember? line.toList

/-- The line with the heading of a method declares its name. -/
theorem mem_declaredMembers {signature : Signature} {lines : List String} {lead : String}
    (plain : IsPlainIdentifier signature.methodName) (known : lead = "\t" ∨ lead = "\tabstract ")
    (further : List String) (behind : String)
    (member : lead ++ signature.heading further ++ behind ∈ lines) :
    signature.methodName ∈ declaredMembers lines := by
  obtain ⟨⟨c, rest, spelled, -⟩, parts⟩ := plain
  have nonempty : signature.methodName.toList ≠ [] := by
    rw [spelled]
    exact List.cons_ne_nil _ _
  obtain ⟨bare, abstract_⟩ := Code.classMember?_method parts nonempty
    ((Text.commaList (signature.arguments ++ further) ++ "): Promise<" ++ signature.returnType
      ++ ">" ++ behind).toList)
  rw [String.ofList_toList] at bare abstract_
  refine List.mem_filterMap.mpr ⟨_, member, ?_⟩
  rcases known with rfl | rfl
  · rw [← bare]
    simp [Signature.heading]
  · rw [← abstract_]
    simp [Signature.heading]

theorem mem_intercalate_of_mem {α : Type} {sep part : List α} {parts : List (List α)} {a : α}
    (hp : part ∈ parts) (ha : a ∈ part) : a ∈ sep.intercalate parts := by
  induction parts with
  | nil => cases hp
  | cons first rest ih =>
    cases rest with
    | nil =>
      obtain rfl := List.mem_singleton.mp hp
      rwa [List.intercalate_singleton]
    | cons next later =>
      rw [List.intercalate_cons_cons, List.append_assoc, List.mem_append, List.mem_append]
      rcases List.mem_cons.mp hp with rfl | hp
      · exact .inl ha
      · exact .inr (.inr (ih hp))

/-- **Methods are declared** under their names in the class of their tag. -/
theorem exists_classLines (named : Identifier.ofSpaced group.name = .ok tag)
    (h : (ofGroup registry group).result = .ok signatures) (mode : Mode) :
    ∃ lines, (classLines registry tag group mode).result = .ok lines ∧
      ∀ signature ∈ signatures, signature.methodName ∈ declaredMembers lines := by
  have plain : ∀ signature ∈ signatures, IsPlainIdentifier signature.methodName := by
    intro signature member
    obtain ⟨tag', named', own⟩ := Noted.bind_eq_ok.mp h
    cases named.symm.trans named'
    exact (readOff_of_methodNameOf named (made_of_ofOperations own signature member).named).1
  cases mode with
  | api =>
    obtain ⟨lines, written, ⟨methods, routes, rfl, declared⟩, -⟩ := Controller.lines_delivers tag h
    refine ⟨_, written, fun signature member => ?_⟩
    obtain ⟨method, hm, rfl⟩ := exists_of_mem_left declared member
    refine mem_declaredMembers (plain signature member) (.inr rfl) [] ";" ?_
    refine List.mem_append_left _ (List.mem_append_right _ (List.mem_flatten.mpr ⟨_, hm, ?_⟩))
    exact List.mem_append_right _ List.mem_cons_self
  | client =>
    obtain ⟨lines, written, ⟨methods, rfl, defined⟩, -⟩ := Client.lines_delivers tag h
    refine ⟨_, written, fun signature member => ?_⟩
    obtain ⟨method, hm, request, rfl⟩ := exists_of_mem_left defined member
    refine mem_declaredMembers (plain signature member) (.inl rfl) [Client.overrideArgument] " \x7b" ?_
    refine List.mem_append_left _ (List.mem_append_right _ (mem_intercalate_of_mem hm ?_))
    exact List.mem_append_right _ List.mem_cons_self

/-- **Which methods clash with other members.**  Every method is declared in the class of its tag.  No
method of a controller has the name of another member of this class.  A method of a client does exactly
if an operation ID names the property of the base class that holds the configuration, with or without
the name of the tag in front. -/
theorem clashes_iff (named : Identifier.ofSpaced group.name = .ok tag)
    (h : (ofGroup registry group).result = .ok signatures) (mode : Mode) :
    (∃ lines, (classLines registry tag group mode).result = .ok lines ∧
      ∀ signature ∈ signatures, signature.methodName ∈ declaredMembers lines) ∧
    ((∃ signature ∈ signatures, signature.methodName ∈ otherMembers mode) ↔
      mode = .client ∧ ∃ operation ∈ group.operations, ∃ id,
        operation.text? "operationId" = some id ∧ ReadOff tag id "baseConfig") := by
  have methods := exists_methodName_iff named h
  refine ⟨exists_classLines named h mode, ?_, ?_⟩
  · rintro ⟨signature, member, clash⟩
    obtain ⟨operation, ho, spelled⟩ := (methods _).mp ⟨signature, member, rfl⟩
    obtain ⟨id, text, own, -, free⟩ := methodNameOf_eq_ok_iff.mp spelled
    obtain ⟨client, same⟩ := (mem_otherMembers_iff free).mp clash
    exact ⟨client, operation, ho, id, text, (withoutTag_eq_iff named).mp (own.trans same)⟩
  · rintro ⟨client, operation, ho, id, text, read⟩
    -- the name is an identifier and not reserved, so nothing refuses it
    have spelled : methodNameOf tag operation = .ok "baseConfig" :=
      methodNameOf_eq_ok_iff.mpr ⟨id, text, (withoutTag_eq_iff named).mpr read,
        by decide, by decide⟩
    obtain ⟨signature, member, same⟩ := (methods _).mpr ⟨operation, ho, spelled⟩
    refine ⟨signature, member, ?_⟩
    rw [same]
    exact (mem_otherMembers_iff (by decide)).mpr ⟨client, rfl⟩

/-- A tag with one operation, of the given ID. -/
def configGroup (id : String) : TagGroup :=
  let operation : Operation :=
    { method := .get, path := "/w", url := ⟨"/w", [.literal "/w"]⟩, tag := "w", parameters := [],
      members := [(.text "operationId", .text id),
        (.text "responses", .map [(.text "200", .map [(.text "description", .text "ok")])])] }
  ⟨"w", none, [operation]⟩

/-- The ID names the property only behind the name of the tag. -/
theorem clashes_iff_behindTag :
    ∃ tag signatures, Identifier.ofSpaced (configGroup "WBaseConfig").name = .ok tag ∧
      (ofGroup ⟨[]⟩ (configGroup "WBaseConfig")).result = .ok signatures ∧
      ReadOff tag "WBaseConfig" "baseConfig" ∧
      (∃ signature ∈ signatures, signature.methodName ∈ otherMembers .client) ∧
      ¬ ∃ signature ∈ signatures, signature.methodName ∈ otherMembers .api := by
  have named : Identifier.ofSpaced (configGroup "WBaseConfig").name =
      .ok (Identifier.spell ["w".toList]) := Except.eq_ok_of_toOption (by decide)
  have signed : (ofGroup ⟨[]⟩ (configGroup "WBaseConfig")).result.toOption.isSome = true := by
    decide
  obtain ⟨signatures, found⟩ := Option.isSome_iff_exists.mp signed
  have built := Except.eq_ok_of_toOption found
  have read : ReadOff (Identifier.spell ["w".toList]) "WBaseConfig" "baseConfig" :=
    (withoutTag_eq_iff named).mp (by decide)
  have text : ((configGroup "WBaseConfig").operations.map (·.text? "operationId")) =
      [some "WBaseConfig"] := by
    decide
  obtain ⟨_, member, own⟩ := List.mem_map.mp (text ▸ List.mem_singleton_self _)
  exact ⟨_, signatures, named, built, read,
    (clashes_iff named built .client).2.mpr ⟨rfl, _, member, _, own, read⟩,
    fun clash => absurd ((clashes_iff named built .api).2.mp clash).1 (by decide)⟩

/-- A client whose method has the name of a private property of its base class. -/
theorem clash_baseConfig :
    ∃ signatures, (ofGroup ⟨[]⟩ (configGroup "baseConfig")).result = .ok signatures ∧
      signatures.map (·.methodName) = ["baseConfig"] ∧
      "baseConfig" ∈ Support.baseMembers .client := by
  have signed : (ofGroup ⟨[]⟩ (configGroup "baseConfig")).result.toOption.map (fun signatures =>
      signatures.map (·.methodName)) = some ["baseConfig"] := by
    decide
  obtain ⟨signatures, found, names⟩ := Option.map_eq_some_iff.mp signed
  refine ⟨signatures, Except.eq_ok_of_toOption found, names, ?_⟩
  rw [Support.baseMembers_client]
  exact List.mem_cons_self

end Group
end Signature
end TypedApi
