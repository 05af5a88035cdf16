import TypedApi.Document.Value
import TypedApi.Number.Decimal
import TypedApi.OpenApi.Kind
import TypedApi.Text.Separated

/-! # Conformance to OpenAPI

Whether a document keeps the rules of OpenAPI. Flags and numbers may also be written as texts.
Objects hold objects, so the rules are followed level by level down to the depth of the document;
`Kind.accepts_eq` says that this is all there is to follow.
-/
namespace TypedApi.OpenApi

/-! ## Scalars -/

/-- Whether a text is a version of OpenAPI that is known. -/
def isKnownVersion (s : String) : Bool :=
  match Text.separated '.' s.toList with
  | [major, minor, _] => major == ['3'] && (Numeral.integer? 10 minor).any (· ≤ 1)
  | _ => false

/-- The words for truth values. -/
def flagWords : List String :=
  ["0", "1", "t", "f", "true", "false", "y", "n", "yes", "no", "on", "off"]

/-- Whether a scalar is a flag. -/
def isFlag : Scalar → Bool
  | .bool _ => true
  | .int n => n == 0 || n == 1
  | .float x => x.toInt? == some 0 || x.toInt? == some 1
  | .text s => flagWords.contains s.toLower
  | _ => false

/-- A text without its sign. -/
def unsigned (cs : List Char) : List Char :=
  match cs with
  | c :: rest => if c == '-' || c == '+' then rest else cs
  | [] => []

/-- The integer that a text writes with ASCII digits; zeros may follow a point. -/
def integerText? (s : String) : Option Int :=
  let cs := Text.trimEnd (Text.trimStart s.toList)
  let whole := cs.takeWhile (· != '.')
  if (unsigned whole).all (fun c => c.isDigit || c == '_') && (cs.drop (whole.length + 1)).all (· == '0')
  then Numeral.integer? 10 whole
  else none

/-- The integers of 64 bits, as far as numbers with a fraction may stand for them. -/
def isMachineInteger (n : Int) : Bool := n.natAbs < Binary64.twoTo 63

/-- The integer that a scalar stands for. -/
def integerOf? : Scalar → Option Int
  | .bool b => some (if b then 1 else 0)
  | .int n => some n
  | .float x => x.toInt?.filter isMachineInteger
  | .text s => integerText? s
  | _ => none

/-- The number that a scalar stands for. -/
def numberOf? : Scalar → Option Binary64
  | .bool b => some (.ofInt (if b then 1 else 0))
  | .int n =>
    match Binary64.ofInt n with
    | .infinite _ => none
    | x => some x
  | .float x => some x
  | .text s => if s.toList.all (fun c => c.toNat < 128) then Numeral.decimal? s.toList else none
  | _ => none

/-- Whether a number is greater than zero. -/
def isPositive : Binary64 → Bool
  | .finite negative code => !negative && code != 0
  | .infinite negative => !negative
  | .nan => false

/-- Whether a scalar is one that JSON has. -/
def isConstant : Scalar → Bool
  | .null | .bool _ | .int _ | .float _ | .text _ => true
  | _ => false

/-- Whether a scalar has the form of a scalar. -/
def isScalarOf (form : Form) (s : Scalar) : Bool :=
  match form, s with
  | .text, .text _ => true
  | .version, .text s => isKnownVersion s
  | .flag, s => isFlag s
  | .count, s => (integerOf? s).any (0 ≤ ·)
  | .number, s => (numberOf? s).isSome
  | .positive, s => (numberOf? s).any isPositive
  | .word choices, .text s => choices.contains s
  | .constant, s => isConstant s
  | _, _ => false

/-! ## Collections -/

/-- Whether all keys of a mapping are text. -/
def hasTextKeys (members : Members) : Bool :=
  members.all fun m => match m.1 with
    | .text _ => true
    | _ => false

/-- Whether a mapping is a reference. -/
def isReference (members : Members) : Bool :=
  match Members.getD "$ref" members with
  | .text _ => true
  | _ => false

/-- Whether a value is the absent value. -/
def isAbsent : Value → Bool
  | .null => true
  | _ => false

/-! ## Forms -/

/-- Whether a value has a form, where `object` says which mappings are objects of a kind. -/
def Form.acceptsWith (object : Kind → Members → Bool) : Form → Value → Bool
  | .anything, _ => true
  | .optional form, v => isAbsent v || form.acceptsWith object v
  | .either first second, v => first.acceptsWith object v || second.acceptsWith object v
  | .orReference form, .map members =>
    if Members.has "$ref" members then hasTextKeys members && isReference members
    else form.acceptsWith object (.map members)
  | .list form, .list items => items.all fun item => form.acceptsWith object item
  | .filledList, .list items => !items.isEmpty
  | .mapping form, .map members =>
    hasTextKeys members && members.all fun m => form.acceptsWith object m.2
  | .object kind, .map members => object kind members
  | form, .scalar s => isScalarOf form s
  | _, _ => false

/-- Whether a mapping obeys a rule about one of its members, where `object` says which mappings
are objects of a kind. -/
def Member.holdsWith (object : Kind → Members → Bool) (members : Members) (rule : Member) : Bool :=
  match Members.get? rule.name members with
  | some v => rule.form.acceptsWith object v
  | none => !rule.required

/-- Whether a mapping is an object of a kind, as far as `depth` levels of mappings tell. -/
def Kind.acceptsTo : (depth : Nat) → Kind → Members → Bool
  | 0, _, _ => false
  | depth + 1, kind, members =>
    hasTextKeys members && kind.members.all (Member.holdsWith (Kind.acceptsTo depth) members)

/-- Whether a mapping is an object of a kind. -/
def Kind.accepts (kind : Kind) (members : Members) : Bool :=
  kind.acceptsTo (Value.depth (.map members)) members

/-- Whether a value has a form. -/
def Form.accepts (form : Form) (v : Value) : Bool := form.acceptsWith Kind.accepts v

/-- What holds of all elements depends on the elements only. -/
theorem all_eq_all {α : Type} {p q : α → Bool} {as : List α} (h : ∀ a ∈ as, p a = q a) :
    as.all p = as.all q := by
  induction as with
  | nil => rfl
  | cons a rest ih =>
    rw [List.all_cons, List.all_cons, h a (by simp), ih fun b hb => h b (by simp [hb])]

/-- The form of a value depends on objects that are nested less deep than the value. -/
theorem Form.acceptsWith_congr {f g : Kind → Members → Bool} {n : Nat}
    (h : ∀ kind members, Value.membersDepth members < n → f kind members = g kind members)
    (form : Form) (v : Value) (deep : v.depth ≤ n) :
    form.acceptsWith f v = form.acceptsWith g v := by
  induction form generalizing v with
  | optional form ih => simp only [acceptsWith, ih v deep]
  | either first second ih₁ ih₂ => simp only [acceptsWith, ih₁ v deep, ih₂ v deep]
  | orReference form ih => cases v <;> simp only [acceptsWith, ih _ deep]
  | list form ih =>
    cases v with
    | list items =>
      simp only [acceptsWith, Value.depth] at deep ⊢
      refine all_eq_all fun item h => ih item ?_
      have := Value.depth_le_itemsDepth h
      omega
    | _ => simp only [acceptsWith]
  | mapping form ih =>
    cases v with
    | map members =>
      simp only [acceptsWith, Value.depth] at deep ⊢
      refine congrArg _ (all_eq_all fun m h => ih m.2 ?_)
      have := Value.depth_le_membersDepth h
      omega
    | _ => simp only [acceptsWith]
  | object kind =>
    cases v with
    | map members => exact h kind members (by simp only [Value.depth] at deep; omega)
    | _ => simp only [acceptsWith]
  | _ => cases v <;> simp only [acceptsWith]

/-- Levels below the depth of a mapping tell nothing more. -/
theorem Kind.acceptsTo_of_lt {d e : Nat} (kind : Kind) (members : Members)
    (hd : Value.membersDepth members < d) (he : Value.membersDepth members < e) :
    kind.acceptsTo d members = kind.acceptsTo e members := by
  induction d generalizing e kind members with
  | zero => omega
  | succ d ih =>
    cases e with
    | zero => omega
    | succ e =>
      simp only [acceptsTo]
      refine congrArg _ (all_eq_all fun rule _ => ?_)
      unfold Member.holdsWith
      split
      · next v found =>
        have := Members.depth_get? found
        exact Form.acceptsWith_congr (n := Value.membersDepth members)
          (fun kind inner h => ih kind inner (by omega) (by omega)) _ _ this
      · rfl

/-- A mapping is an object of a kind exactly if its keys are text and it obeys the rules about its
members: the depth of a mapping is enough to tell. -/
theorem Kind.accepts_eq (kind : Kind) (members : Members) :
    kind.accepts members =
      (hasTextKeys members && kind.members.all (Member.holdsWith Kind.accepts members)) := by
  simp only [accepts, Value.depth, acceptsTo]
  refine congrArg _ (all_eq_all fun rule _ => ?_)
  unfold Member.holdsWith
  split
  · next v found =>
    refine Form.acceptsWith_congr (n := Value.membersDepth members) (fun kind inner h => ?_) _ _
      (Members.depth_get? found)
    exact Kind.acceptsTo_of_lt kind inner h (by simp only [Value.depth]; omega)
  · rfl

end TypedApi.OpenApi
