import TypedApi.Output.Client
import TypedApi.Output.Controller
import TypedApi.Proofs.Operation.PathTemplate

/-! # Route patterns

The server writes the parts of a path template into one route pattern, where a colon marks a
parameter; the client keeps them apart.  A router finds the parts in the pattern again exactly if no
literal goes on with the name of a parameter before it and none holds a colon before a word
character (`Separable`): nothing else is ever read from a pattern (`separable_readRoute`), and such
parts are read back (`readParts_route`).
-/
namespace TypedApi.PathTemplate

/-! ## Reading a route pattern -/

/-- Puts a character in front of the literal that some parts start with. -/
def intoLiteral (c : Char) : List PathPart → List PathPart
  | .literal text :: rest => .literal (.ofList (c :: text.toList)) :: rest
  | parts => .literal (.ofList [c]) :: parts

/-- The parts of a route pattern as a router reads them: a colon with the longest run of letters,
digits and underscores behind it is a parameter, and everything else is literal text. -/
def readParts : List Char → List PathPart
  | [] => []
  | c :: rest =>
    if c = ':' ∧ rest.takeWhile Text.isPlainWordChar ≠ [] then
      .parameter (.ofList (rest.takeWhile Text.isPlainWordChar))
        :: readParts (rest.dropWhile Text.isPlainWordChar)
    else intoLiteral c (readParts rest)
termination_by cs => cs.length
decreasing_by
  · have := (rest.dropWhile_sublist Text.isPlainWordChar).length_le
    rw [List.length_cons]
    omega
  · exact Nat.lt_succ_self _

/-- Reads a route pattern. The empty pattern is one empty literal, as the empty template is. -/
def readRoute (pattern : String) : List PathPart :=
  match readParts pattern.toList with
  | [] => [.literal ""]
  | parts => parts

/-- Whether a text starts with a letter, a digit or an underscore. -/
def startsWord (cs : List Char) : Bool := cs.head?.any Text.isPlainWordChar

/-- No colon stands before a letter, a digit or an underscore. -/
def KeepsColons (cs : List Char) : Prop :=
  cs.IsChain fun c d => c = ':' → Text.isPlainWordChar d = false

/-- The second part does not go on with the name that the first one is. -/
def EndsName : PathPart → PathPart → Prop
  | .parameter _, .literal text => startsWord text.toList = false
  | _, _ => True

/-- Parts that stay apart in a route pattern. -/
structure Separable (parts : List PathPart) : Prop where
  literals : ∀ text, .literal text ∈ parts → KeepsColons text.toList
  names : parts.IsChain EndsName

/-! ## What a router reads is separable -/

theorem takeWhile_eq_nil_iff {cs : List Char} :
    cs.takeWhile Text.isPlainWordChar = [] ↔ startsWord cs = false := by
  cases cs with
  | nil => simp [startsWord]
  | cons c rest => by_cases h : Text.isPlainWordChar c = true <;> simp [startsWord, h]

theorem startsWord_dropWhile (cs : List Char) :
    startsWord (cs.dropWhile Text.isPlainWordChar) = false := by
  have stop := List.head?_dropWhile_not Text.isPlainWordChar cs
  rw [startsWord]
  cases first : (cs.dropWhile Text.isPlainWordChar).head? with
  | none => rfl
  | some c =>
    rw [first] at stop
    exact stop

theorem keepsColons_cons {c : Char} {cs : List Char} :
    KeepsColons (c :: cs) ↔ (c = ':' → startsWord cs = false) ∧ KeepsColons cs := by
  rw [KeepsColons, List.isChain_cons, ← KeepsColons]
  refine and_congr_left fun _ => ?_
  cases cs with
  | nil => simp [startsWord]
  | cons d rest => simp [startsWord]

/-- A literal that is read first starts as the pattern does. -/
theorem head?_of_readParts {cs : List Char} {text : String} {rest : List PathPart}
    (h : readParts cs = .literal text :: rest) : text.toList.head? = cs.head? := by
  cases cs with
  | nil => simp [readParts] at h
  | cons c cs =>
    rw [readParts] at h
    split at h
    · cases h
    · unfold intoLiteral at h
      split at h <;> cases h <;> simp

theorem separable_intoLiteral {c : Char} {parts : List PathPart} (h : Separable parts)
    (colon : ∀ text, .literal text ∈ parts.head? → c = ':' → startsWord text.toList = false) :
    Separable (intoLiteral c parts) := by
  obtain ⟨literals, names⟩ := h
  unfold intoLiteral
  split
  · rename_i text rest
    refine ⟨fun other ho => ?_, ?_⟩
    · rcases List.mem_cons.mp ho with same | ho
      · cases same
        rw [String.toList_ofList, keepsColons_cons]
        exact ⟨colon text rfl, literals text List.mem_cons_self⟩
      · exact literals other (List.mem_cons_of_mem _ ho)
    · exact List.isChain_cons.mpr ⟨fun _ _ => trivial, (List.isChain_cons.mp names).2⟩
  · refine ⟨fun other ho => ?_, List.isChain_cons.mpr ⟨fun _ _ => trivial, names⟩⟩
    rcases List.mem_cons.mp ho with same | ho
    · cases same
      rw [String.toList_ofList]
      exact .singleton c
    · exact literals other ho

theorem separable_readParts (cs : List Char) : Separable (readParts cs) := by
  fun_induction readParts cs with
  | case1 => exact ⟨by simp, .nil⟩
  | case2 c rest parameter ih =>
    obtain ⟨literals, names⟩ := ih
    refine ⟨fun text ht => ?_, List.isChain_cons.mpr ⟨fun part hp => ?_, names⟩⟩
    · rcases List.mem_cons.mp ht with same | ht
      · cases same
      · exact literals text ht
    · -- what follows starts where the longest run has ended
      cases part with
      | parameter name => trivial
      | literal text =>
        obtain ⟨later, split⟩ := List.head?_eq_some_iff.mp hp
        rw [EndsName, startsWord, head?_of_readParts split]
        exact startsWord_dropWhile rest
  | case3 c rest plain ih =>
    refine separable_intoLiteral ih fun text ht colon => ?_
    obtain ⟨later, split⟩ := List.head?_eq_some_iff.mp ht
    rw [startsWord, head?_of_readParts split]
    refine takeWhile_eq_nil_iff.mp (not_not.mp fun run => plain ⟨colon, run⟩)

/-- **What is read stays apart**, whatever the pattern is. -/
theorem separable_readRoute (pattern : String) : Separable (readRoute pattern) := by
  unfold readRoute
  split
  · exact ⟨by simp [KeepsColons], .singleton _⟩
  · exact separable_readParts _

/-! ## Separable parts are read back -/

theorem readParts_parameter {name rest : List Char} (nonempty : name ≠ [])
    (plain : ∀ c ∈ name, Text.isPlainWordChar c = true) (stop : startsWord rest = false) :
    readParts (':' :: (name ++ rest)) = .parameter (.ofList name) :: readParts rest := by
  have none_ := takeWhile_eq_nil_iff.mpr stop
  have run : (name ++ rest).takeWhile Text.isPlainWordChar = name := by
    rw [List.takeWhile_append_of_pos plain, none_, List.append_nil]
  have after : (name ++ rest).dropWhile Text.isPlainWordChar = rest := by
    rw [List.dropWhile_append_of_pos plain, ← List.nil_append (rest.dropWhile _), ← none_,
      List.takeWhile_append_dropWhile]
  rw [readParts, if_pos ⟨rfl, by rw [run]; exact nonempty⟩, run, after]

theorem readParts_literal {text rest : List Char} (keeps : KeepsColons text)
    (stop : startsWord rest = false) :
    readParts (text ++ rest) = text.foldr intoLiteral (readParts rest) := by
  induction text with
  | nil => rfl
  | cons c text ih =>
    obtain ⟨colon, keeps⟩ := keepsColons_cons.mp keeps
    rw [List.cons_append, readParts, if_neg, ih keeps, List.foldr_cons]
    rintro ⟨rfl, run⟩
    refine run (takeWhile_eq_nil_iff.mpr ?_)
    cases text with
    | nil => exact stop
    | cons d text => exact colon rfl

/-- No literal comes first. -/
def StartsApart (parts : List PathPart) : Prop := ∀ text, .literal text ∉ parts.head?

theorem foldr_intoLiteral {text : List Char} {parts : List PathPart} (nonempty : text ≠ [])
    (apart : StartsApart parts) :
    text.foldr intoLiteral parts = .literal (.ofList text) :: parts := by
  induction text with
  | nil => exact absurd rfl nonempty
  | cons c text ih =>
    rw [List.foldr_cons]
    cases text with
    | nil =>
      rw [List.foldr_nil]
      unfold intoLiteral
      split
      · rename_i other rest
        exact absurd rfl (apart other)
      · rfl
    | cons d text =>
      rw [ih (List.cons_ne_nil d text), intoLiteral, String.toList_ofList]

/-- The characters of the route pattern of some parts. -/
def routeChars (parts : List PathPart) : List Char :=
  parts.flatMap fun part => (routePart part).toList

theorem toList_routePart_parameter (name : String) :
    (routePart (.parameter name)).toList = ':' :: name.toList := by
  simp [routePart]

theorem startsApart_of_apart {text : String} {parts : List PathPart}
    (h : ∀ part ∈ parts.head?, Apart (.literal text) part) : StartsApart parts :=
  fun _ ho => h _ ho

theorem toList_ne_nil {text : String} (h : text ≠ "") : text.toList ≠ [] :=
  fun empty => h (String.toList_inj.mp empty)

/-- The parts behind a name do not go on with it. -/
theorem startsWord_routeChars {parts : List PathPart} (nonempty : ∀ part ∈ parts, content part ≠ "")
    (stop : ∀ text, .literal text ∈ parts.head? → startsWord text.toList = false) :
    startsWord (routeChars parts) = false := by
  cases parts with
  | nil => rfl
  | cons part rest =>
    rw [routeChars, List.flatMap_cons]
    cases part with
    | parameter name =>
      rw [toList_routePart_parameter]
      rfl
    | literal text =>
      have visible : text ≠ "" := nonempty _ List.mem_cons_self
      obtain ⟨c, cs, split⟩ := List.exists_cons_of_ne_nil (toList_ne_nil visible)
      have first := stop text rfl
      rw [split] at first
      rw [routePart, split]
      exact first

/-- The names of the parameters are made of what a router takes for a name. -/
def PlainNames (parts : List PathPart) : Prop :=
  ∀ name, .parameter name ∈ parts → ∀ c ∈ name.toList, Text.isPlainWordChar c = true

/-- Whether a part has no other characters in a name. -/
def hasPlainName : PathPart → Bool
  | .literal _ => true
  | .parameter name => name.toList.all Text.isPlainWordChar

theorem plainNames_iff {parts : List PathPart} :
    PlainNames parts ↔ parts.all hasPlainName = true := by
  rw [List.all_eq_true]
  constructor
  · intro plain part hp
    cases part with
    | literal text => rfl
    | parameter name => exact List.all_eq_true.mpr (plain name hp)
  · intro plain name hn
    exact List.all_eq_true.mp (plain _ hn)

/-- **Separable parts are read back** from their route pattern. -/
theorem readParts_route {parts : List PathPart} (regular : Regular parts)
    (plain : PlainNames parts) (separable : Separable parts) :
    readParts (routeChars parts) = parts := by
  induction parts with
  | nil => simp [routeChars, readParts]
  | cons part rest ih =>
    obtain ⟨first, nonempty⟩ := List.forall_mem_cons.mp regular.nonempty
    obtain ⟨apart, tailApart⟩ := List.isChain_cons.mp regular.apart
    obtain ⟨ends, tailNames⟩ := List.isChain_cons.mp separable.names
    have later := ih ⟨nonempty, tailApart⟩
      (fun name hn => plain name (List.mem_cons_of_mem part hn))
      ⟨fun text ht => separable.literals text (List.mem_cons_of_mem part ht), tailNames⟩
    rw [routeChars, List.flatMap_cons, ← routeChars]
    cases part with
    | parameter name =>
      have stop := startsWord_routeChars nonempty fun text ht => ends _ ht
      have own : name.toList ≠ [] := toList_ne_nil first
      rw [toList_routePart_parameter, List.cons_append,
        readParts_parameter own (plain name List.mem_cons_self) stop, later, String.ofList_toList]
    | literal text =>
      have startsApart := startsApart_of_apart apart
      have stop := startsWord_routeChars nonempty fun other ho => (startsApart other ho).elim
      have own : text.toList ≠ [] := toList_ne_nil first
      rw [routePart, readParts_literal (separable.literals text List.mem_cons_self) stop, later,
        foldr_intoLiteral own startsApart, String.ofList_toList]

/-- The parts of a template are read back from its route pattern exactly if they are separable. -/
theorem readRoute_route_iff {template : String} {url : PathTemplate}
    (h : parse template = .ok url) (plain : PlainNames url.parts) :
    readRoute url.route = url.parts ↔ Separable url.parts := by
  constructor
  · intro same
    rw [← same]
    exact separable_readRoute _
  · intro separable
    rcases regular_of_parse h with empty | ⟨nonempty, regular⟩
    · rw [route, empty]
      simp [readRoute, routePart, readParts]
    · have same : url.route.toList = routeChars url.parts := by
        rw [route, String.toList_join, List.flatMap_map, routeChars]
      rw [readRoute, same, readParts_route regular plain separable]
      split
      · rename_i none_
        exact absurd none_ nonempty
      · rfl

end TypedApi.PathTemplate

/-! ## The server and the client -/

namespace TypedApi
open Noted

/-- The line that registers a route for the pattern. -/
def Controller.routeOpening (method : Method) (pattern : String) : String :=
  "\t\tapp." ++ method.key ++ "(" ++ Text.literal pattern ++ ", (req: Request, res: Response) =>"

theorem Controller.head?_routeLines {signature : Signature} {lines : List String}
    (h : (routeLines signature).result = .ok lines) :
    lines.head? =
      some (routeOpening signature.operation.method signature.operation.url.route) := by
  unfold routeLines at h
  simp only at h
  split at h
  all_goals
    obtain ⟨_, -, h⟩ := bind_eq_ok.mp h
    obtain ⟨_, -, h⟩ := bind_eq_ok.mp h
    obtain ⟨_, -, h⟩ := bind_eq_ok.mp h
    cases h
    rfl

/-- The call adds the part to the URL of a request. -/
def Client.Adds (signature : Signature) : PathPart → String → Prop
  | .literal text, call => call = ".addLiteral(" ++ Text.literal text ++ ")"
  | .parameter name, call => ∃ slot printed, pathSlot signature name = .ok slot ∧
      (slot.toJson name).result = .ok printed ∧ call = ".addPathParam(" ++ printed ++ ")"

/-- The expression builds a URL from the parts, one after another. -/
def Client.Builds (signature : Signature) (parts : List PathPart) (expression : String) : Prop :=
  (∃ text, parts = [.literal text] ∧ expression = Text.literal text) ∨
  ∃ calls query, List.Forall₂ (Adds signature) parts calls ∧
    expression = "new UrlBuilder()" ++ String.join calls ++ query ++ ".toString()"

theorem Client.pathCalls_eq_ok {signature : Signature} {parts : List PathPart} {text : String}
    (h : (pathCalls signature parts).result = .ok text) :
    ∃ calls, List.Forall₂ (Adds signature) parts calls ∧ text = String.join calls := by
  induction parts generalizing text with
  | nil =>
    cases h
    exact ⟨[], .nil, rfl⟩
  | cons part rest ih =>
    cases part with
    | literal literal =>
      obtain ⟨later, hl, h⟩ := bind_eq_ok.mp h
      cases h
      obtain ⟨calls, adds, rfl⟩ := ih hl
      exact ⟨_ :: calls, .cons rfl adds, by rw [String.join_cons]⟩
    | parameter name =>
      obtain ⟨slot, hs, h⟩ := bind_eq_ok.mp h
      obtain ⟨printed, hp, h⟩ := bind_eq_ok.mp h
      obtain ⟨later, hl, h⟩ := bind_eq_ok.mp h
      cases h
      obtain ⟨calls, adds, rfl⟩ := ih hl
      exact ⟨_ :: calls, .cons ⟨slot, printed, hs, hp, rfl⟩ adds, by rw [String.join_cons]⟩

/-- The client builds its URL from the parts of the template. -/
theorem Client.builds_of_urlExpression {template : String} {url : PathTemplate}
    (h : PathTemplate.parse template = .ok url) {signature : Signature}
    (same : signature.operation.url = url) {expression : String}
    (written : (urlExpression signature).result = .ok expression) :
    Builds signature url.parts expression := by
  simp only [urlExpression, same] at written
  split at written
  · rename_i plain
    cases written
    simp only [Bool.and_eq_true, Bool.not_eq_true'] at plain
    refine .inl ⟨url.text, ?_, rfl⟩
    rw [PathTemplate.parts_of_literal h plain.1, (PathTemplate.parse_eq_ok h).1]
  · obtain ⟨_, -, written⟩ := bind_eq_ok.mp written
    obtain ⟨path, hp, written⟩ := bind_eq_ok.mp written
    obtain ⟨query, -, written⟩ := bind_eq_ok.mp written
    cases written
    obtain ⟨calls, adds, rfl⟩ := pathCalls_eq_ok hp
    exact .inr ⟨calls, query, adds, rfl⟩

namespace PathTemplate

/-- How the template is used: its parts spell it, the server registers their route pattern, and the
client builds the URL from them one after another. -/
structure RouteAgreement (template : String) (url : PathTemplate) : Prop where
  spelled : String.join (url.parts.map written) = template
  readBack : readRoute url.route = url.parts ↔ Separable url.parts
  server : ∀ signature lines, signature.operation.url = url →
    (Controller.routeLines signature).result = .ok lines →
    lines.head? = some (Controller.routeOpening signature.operation.method url.route)
  client : ∀ signature expression, signature.operation.url = url →
    (Client.urlExpression signature).result = .ok expression →
    Client.Builds signature url.parts expression

/-- **When server and client agree on a URL.**  Both work from the parts that are read from the
template, and a router reads these parts from the pattern of the server exactly if they are
separable. -/
theorem route_agrees_iff {template : String} {url : PathTemplate}
    (h : parse template = .ok url) (plain : PlainNames url.parts) :
    RouteAgreement template url where
  spelled := written_of_parse h
  readBack := readRoute_route_iff h plain
  server := by
    intro signature lines same hl
    rw [← same]
    exact Controller.head?_routeLines hl
  client _ _ same he := Client.builds_of_urlExpression h same he

theorem route_agrees_iff_ownerRepo :
    ∃ url, parse "/v1:/{owner}{repo}-files" = .ok url ∧ PlainNames url.parts ∧
      RouteAgreement "/v1:/{owner}{repo}-files" url ∧ readRoute url.route = url.parts := by
  have found : parse "/v1:/{owner}{repo}-files" = .ok ⟨"/v1:/{owner}{repo}-files",
      [.literal "/v1:/", .parameter "owner", .parameter "repo", .literal "-files"]⟩ :=
    Except.eq_ok_of_toOption (by decide +kernel)
  have plain : PlainNames
      [.literal "/v1:/", .parameter "owner", .parameter "repo", .literal "-files"] :=
    plainNames_iff.mpr (by decide +kernel)
  exact ⟨_, found, plain, route_agrees_iff found plain, by decide +kernel⟩

/-- A colon in a literal is read as the start of a parameter. -/
theorem not_readRoute_route :
    ¬ ∀ (template : String) (url : PathTemplate), parse template = .ok url →
      PlainNames url.parts → readRoute url.route = url.parts := by
  have found : parse "/jobs/{id}:cancel" = .ok ⟨"/jobs/{id}:cancel",
      [.literal "/jobs/", .parameter "id", .literal ":cancel"]⟩ :=
    Except.eq_ok_of_toOption (by decide +kernel)
  have plain : PlainNames [.literal "/jobs/", .parameter "id", .literal ":cancel"] :=
    plainNames_iff.mpr (by decide +kernel)
  intro agree
  have same := agree _ _ found plain
  exact absurd same (by decide +kernel)

end PathTemplate
end TypedApi
