import TypedApi.Proofs.Code.Import

/-! # Import statements as a function of a set

The imports of a file are registered one request after the other.  What is written in the end
depends only on the set of what was registered, whatever the order and the repetitions
(`Renders.congr`, `Renders.unique`, `renders_requested`).

The only request that is refused is one that would give a module a second alias.  It is decided on
the list of bindings as it stands, where the first alias of a module counts; the invariant
`Coherent`, that there is only one, is what makes the answer a question about the set.
-/
namespace TypedApi.Code

/-! ## Strictly increasing lists -/

theorem lt_of_precedes {as bs : List Char} (h : Text.precedes as bs = true) (differ : as ≠ bs) :
    as < bs := by
  induction as generalizing bs with
  | nil =>
    obtain ⟨b, rest, rfl⟩ := List.exists_cons_of_ne_nil differ.symm
    exact List.nil_lt_cons b rest
  | cons a as ih =>
    cases bs with
    | nil => simp [Text.precedes] at h
    | cons b bs =>
      simp only [Text.precedes, Bool.or_eq_true, Bool.and_eq_true, decide_eq_true_eq,
        beq_iff_eq] at h
      rw [List.cons_lt_cons_iff]
      rcases h with first | ⟨same, rest⟩
      · exact .inl first
      · obtain rfl := Char.toNat_inj.mp same
        exact .inr ⟨rfl, ih rest fun equal => differ (by rw [equal])⟩

/-- Without repetitions, the order of a sorted list is strict. -/
theorem increasing_sortedSet (texts : List String) :
    (Text.sortedSet texts).Pairwise (· < ·) :=
  (Text.pairwise_sortedBy id _).imp₂
    (fun _ _ before differ => lt_of_precedes before fun same => differ (String.toList_inj.mp same))
    (nodup_sortedSet texts)

/-- A strictly increasing list is determined by its elements. -/
theorem increasing_unique {texts others : List String} (sorted : texts.Pairwise (· < ·))
    (sorted' : others.Pairwise (· < ·)) (same : ∀ text, text ∈ texts ↔ text ∈ others) :
    texts = others := by
  have distinct {list : List String} (h : list.Pairwise (· < ·)) : list.Nodup :=
    h.imp fun {a b} (before : a < b) (equal : a = b) => String.lt_irrefl b (equal ▸ before)
  have perm := (List.perm_ext_iff_of_nodup (distinct sorted) (distinct sorted')).mpr same
  exact perm.eq_of_pairwise
    (fun _ _ _ _ before after => absurd after (String.lt_asymm before)) sorted sorted'

/-! ## The statements of a set -/

/-- The import statement of a module when `bindings` are registered: the alias of the module as a
whole comes first, and then its names, in order. -/
inductive Lists (bindings : List Binding) (module : String) : String → Prop
  | mk (whole : Option String) (names : List String)
      (aliased : ∀ name, whole = some name ↔ ⟨module, name, true⟩ ∈ bindings)
      (sorted : names.Pairwise (· < ·))
      (named : ∀ name, name ∈ names ↔ ⟨module, name, false⟩ ∈ bindings) :
      Lists bindings module ("import \x7b "
        ++ Text.commaList (whole.toList.map ("default as " ++ ·) ++ names)
        ++ " \x7d from " ++ Text.literal module ++ ";")

/-- The import statements when `bindings` are registered: one for each module, in order. -/
inductive Renders (bindings : List Binding) : String → Prop
  | mk (modules statements : List String)
      (sorted : modules.Pairwise (· < ·))
      (complete : ∀ module, module ∈ modules ↔ ∃ b ∈ bindings, b.module = module)
      (listed : List.Forall₂ (Lists bindings) modules statements) :
      Renders bindings ("\n".intercalate statements)

section Alike
variable {bindings others : List Binding} {text text' : String}

theorem Lists.congr (same : ∀ b, b ∈ bindings ↔ b ∈ others) {module : String}
    (h : Lists bindings module text) : Lists others module text := by
  obtain ⟨whole, names, aliased, sorted, named⟩ := h
  exact ⟨whole, names, fun name => (aliased name).trans (same _), sorted,
    fun name => (named name).trans (same _)⟩

theorem Lists.unique {module : String} (h : Lists bindings module text)
    (h' : Lists bindings module text') : text = text' := by
  obtain ⟨whole, names, aliased, sorted, named⟩ := h
  obtain ⟨whole', names', aliased', sorted', named'⟩ := h'
  have equalWhole : whole = whole' := Option.ext fun name => by rw [aliased, aliased']
  have equalNames : names = names' :=
    increasing_unique sorted sorted' fun name => by rw [named, named']
  rw [equalWhole, equalNames]

/-- What is written for bindings depends on their set only. -/
theorem Renders.congr (same : ∀ b, b ∈ bindings ↔ b ∈ others) (h : Renders bindings text) :
    Renders others text := by
  obtain ⟨modules, statements, sorted, complete, listed⟩ := h
  exact ⟨modules, statements, sorted, by simpa only [same] using complete,
    listed.imp fun _ _ => Lists.congr same⟩

/-- There is one way to write the bindings of a set. -/
theorem Renders.unique (h : Renders bindings text) (h' : Renders bindings text') :
    text = text' := by
  obtain ⟨modules, statements, sorted, complete, listed⟩ := h
  obtain ⟨modules', statements', sorted', complete', listed'⟩ := h'
  have equalModules : modules = modules' :=
    increasing_unique sorted sorted' fun module => by rw [complete, complete']
  subst equalModules
  have single : Relator.RightUnique (Lists bindings) := fun _ _ _ => Lists.unique
  have equalStatements : statements = statements' := single.forall₂ listed listed'
  rw [equalStatements]

end Alike

namespace ImportSet

/-- Every module has at most one alias. -/
def Coherent (imports : ImportSet) : Prop :=
  ∀ a ∈ imports.bindings, ∀ b ∈ imports.bindings, a.isAlias → b.isAlias →
    a.module = b.module → a.name = b.name

variable {imports next : ImportSet}

theorem mem_of_alias? {module name : String} (h : imports.alias? module = some name) :
    ⟨module, name, true⟩ ∈ imports.bindings := by
  obtain ⟨b, found, rfl⟩ := Option.map_eq_some_iff.mp h
  have fits := List.find?_some found
  simp only [Bool.and_eq_true, beq_iff_eq] at fits
  obtain ⟨isAlias, rfl⟩ := fits
  obtain ⟨module, name, flag⟩ := b
  obtain rfl : flag = true := isAlias
  exact List.mem_of_find?_eq_some found

theorem alias?_eq_some_iff (coherent : imports.Coherent) {module name : String} :
    imports.alias? module = some name ↔ ⟨module, name, true⟩ ∈ imports.bindings := by
  refine ⟨mem_of_alias?, fun registered => ?_⟩
  cases found : imports.alias? module with
  | none =>
    have missing := List.find?_eq_none.mp (Option.map_eq_none_iff.mp found) _ registered
    simp at missing
  | some first =>
    exact congrArg some (coherent _ (mem_of_alias? found) _ registered rfl rfl rfl)

/-- What is written for bindings with one alias for each module. -/
theorem renders (coherent : imports.Coherent) : Renders imports.bindings imports.render := by
  refine ⟨imports.modules, imports.modules.map imports.statement, increasing_sortedSet _,
    fun module => ?_, List.forall₂_map_right_iff.mpr (List.forall₂_same.mpr fun module _ => ?_)⟩
  · rw [modules, mem_sortedSet, List.mem_map]
  · refine ⟨imports.alias? module, _, fun name => alias?_eq_some_iff coherent,
      increasing_sortedSet _, fun name => ?_⟩
    rw [mem_sortedSet, List.mem_filterMap]
    constructor
    · rintro ⟨⟨module', name', isAlias⟩, registered, shown⟩
      simp only [Option.ite_none_right_eq_some, Bool.and_eq_true, beq_iff_eq, Bool.not_eq_true',
        Option.some.injEq] at shown
      obtain ⟨⟨rfl, rfl⟩, rfl⟩ := shown
      exact registered
    · exact fun registered => ⟨_, registered, by simp⟩

/-! ## One request -/

theorem module_ne_of_alias? {module : String} (free : imports.alias? module = none) {x : Binding}
    (registered : x ∈ imports.bindings) (whole : x.isAlias = true) : x.module ≠ module := by
  intro same
  have missing := List.find?_eq_none.mp (Option.map_eq_none_iff.mp free) x registered
  simp [whole, same] at missing

/-- A binding that is no second alias of its module may be added. -/
theorem Coherent.append (coherent : imports.Coherent) {b : Binding}
    (free : b.isAlias = true → imports.alias? b.module = none) :
    Coherent { imports with bindings := imports.bindings ++ [b] } := by
  intro x hx y hy wholeX wholeY same
  rw [List.mem_append, List.mem_singleton] at hx hy
  rcases hx with hx | rfl <;> rcases hy with hy | rfl
  · exact coherent x hx y hy wholeX wholeY same
  · exact absurd same (module_ne_of_alias? (free wholeY) hx wholeX)
  · exact absurd same.symm (module_ne_of_alias? (free wholeX) hy wholeY)
  · rfl

/-- What registering a binding can do: it is added to the set, or it is refused for the alias that
its module has. -/
theorem bind_cases (coherent : imports.Coherent) (b : Binding) :
    (∃ next, imports.bind b = .ok next ∧ next.base = imports.base ∧ next.Coherent ∧
      (∀ x, x ∈ next.bindings ↔ x ∈ imports.bindings ∨ x = b) ∧
      (b.isAlias → ∀ x ∈ imports.bindings, x.isAlias → x.module = b.module → x.name = b.name)) ∨
    (∃ registered, imports.bind b = .error (.aliasClash ⟨b.module, registered, b.name⟩) ∧
      b.isAlias ∧ ⟨b.module, registered, true⟩ ∈ imports.bindings ∧ registered ≠ b.name) := by
  obtain ⟨module, name, isAlias⟩ := b
  cases isAlias with
  | false =>
    exact .inl ⟨_, rfl, rfl, coherent.append (by simp), by simp, by simp⟩
  | true =>
    cases found : imports.alias? module with
    | none =>
      have granted : imports.bind ⟨module, name, true⟩ =
          .ok { imports with bindings := imports.bindings ++ [⟨module, name, true⟩] } := by
        simp [bind, found]
      exact .inl ⟨_, granted, rfl, coherent.append fun _ => found, by simp,
        fun _ x hx whole same => absurd same (module_ne_of_alias? found hx whole)⟩
    | some registered =>
      have member := mem_of_alias? found
      by_cases same : registered = name
      · subst same
        refine .inl ⟨imports, by simp [bind, found], rfl, coherent, fun x => ?_,
          fun _ x hx whole sameModule => coherent x hx _ member whole rfl sameModule⟩
        exact ⟨.inl, fun h => h.elim id fun equal => equal ▸ member⟩
      · exact .inr ⟨registered, by simp [bind, found, same], rfl, member, same⟩

end ImportSet

/-! ## Sequences of requests -/

/-- A request for an import: of a name, or of a module as a whole under an alias. -/
structure Request extends Import where
  isAlias : Bool
deriving DecidableEq

/-- What a request registers in a file of the folder `base`. -/
def Request.binding (base : Option Folder) (request : Request) : Binding :=
  ⟨request.source.specifier base, request.name, request.isAlias⟩

namespace ImportSet

/-- What a request is answered. -/
def request (imports : ImportSet) (r : Request) : Except Failure ImportSet :=
  imports.bind (r.binding imports.base)

/-- The imports from a request on, also if it is refused. -/
def afterRequest (imports : ImportSet) (r : Request) : ImportSet :=
  match imports.request r with
  | .ok next => next
  | .error _ => imports

/-- The imports after a sequence of requests. -/
def afterRequests (imports : ImportSet) (rs : List Request) : ImportSet :=
  rs.foldl afterRequest imports

/-- What the requests of a sequence register that are granted. -/
def granted (imports : ImportSet) : List Request → List Binding
  | [] => []
  | r :: rest =>
    (match imports.request r with
      | .ok _ => [r.binding imports.base]
      | .error _ => []) ++ (imports.afterRequest r).granted rest

variable {imports : ImportSet}

/-- **One request** keeps the folder and the invariant, and adds exactly what it is granted. -/
theorem afterRequest_step (coherent : imports.Coherent) (r : Request) :
    (imports.afterRequest r).base = imports.base ∧ (imports.afterRequest r).Coherent ∧
      ∀ b, b ∈ (imports.afterRequest r).bindings ↔
        b ∈ imports.bindings ∨ b ∈ imports.granted [r] := by
  rcases bind_cases coherent (r.binding imports.base) with
    ⟨next, ok, base, coherent', members, -⟩ | ⟨registered, error, -⟩
  · simp [afterRequest, granted, request, ok, base, coherent', members]
  · simp [afterRequest, granted, request, error, coherent]

theorem granted_cons (r : Request) (rest : List Request) :
    imports.granted (r :: rest) =
      imports.granted [r] ++ (imports.afterRequest r).granted rest := by
  simp [granted]

/-- **A run of requests** keeps the folder and the invariant, and adds exactly what it is
granted. -/
theorem afterRequests_run (coherent : imports.Coherent) (rs : List Request) :
    (imports.afterRequests rs).base = imports.base ∧ (imports.afterRequests rs).Coherent ∧
      ∀ b, b ∈ (imports.afterRequests rs).bindings ↔
        b ∈ imports.bindings ∨ b ∈ imports.granted rs := by
  induction rs generalizing imports with
  | nil => exact ⟨rfl, coherent, by simp [afterRequests, granted]⟩
  | cons r rest ih =>
    obtain ⟨base, coherent', members⟩ := afterRequest_step coherent r
    obtain ⟨baseAll, coherentAll, membersAll⟩ := ih coherent'
    refine ⟨baseAll.trans base, coherentAll, fun b => ?_⟩
    rw [granted_cons, List.mem_append, ← or_assoc, ← members b]
    exact membersAll b

/-- No two requests want different aliases for one module. -/
def Agreeing (base : Option Folder) (rs : List Request) : Prop :=
  ∀ r ∈ rs, ∀ r' ∈ rs, r.isAlias → r'.isAlias →
    r.source.specifier base = r'.source.specifier base → r.name = r'.name

theorem coherent_empty (base : Option Folder) : (empty base).Coherent := by
  simp [Coherent, empty]

/-- Requests that agree, with each other and with what is registered, are all granted. -/
theorem granted_of_agreeing (coherent : imports.Coherent) {rs : List Request}
    (agree : Agreeing imports.base rs)
    (fits : ∀ r ∈ rs, ∀ b ∈ imports.bindings, r.isAlias → b.isAlias →
      b.module = r.source.specifier imports.base → b.name = r.name) :
    imports.granted rs = rs.map (·.binding imports.base) := by
  induction rs generalizing imports with
  | nil => rfl
  | cons r rest ih =>
    have taken : imports.granted [r] = [r.binding imports.base] := by
      rcases bind_cases coherent (r.binding imports.base) with
        ⟨next, ok, -⟩ | ⟨registered, -, whole, member, differ⟩
      · simp [granted, request, ok]
      · exact absurd (fits r (by simp) _ member whole rfl rfl) differ
    obtain ⟨base, coherent', members⟩ := afterRequest_step coherent r
    rw [granted_cons, taken, ih coherent']
    · rw [base]
      rfl
    · rw [base]
      exact fun x hx y hy => agree x (.tail _ hx) y (.tail _ hy)
    · intro x hx b hb wholeX wholeB same
      rw [base] at same
      rw [members, taken, List.mem_singleton] at hb
      rcases hb with old | rfl
      · exact fits x (.tail _ hx) b old wholeX wholeB same
      · exact agree r (by simp) x (.tail _ hx) wholeB wholeX same

/-! ## What a file imports -/

section Written
variable (base : Option Folder) (rs : List Request)

/-- The bindings that a file in the folder `base` is granted by a sequence of requests. -/
def registered : List Binding := (empty base).granted rs

/-- The imports of a file in the folder `base` after a sequence of requests. -/
def requested : ImportSet := (empty base).afterRequests rs

theorem requested_run :
    (requested base rs).base = base ∧ (requested base rs).Coherent ∧
      ∀ b, b ∈ (requested base rs).bindings ↔ b ∈ registered base rs := by
  obtain ⟨same, coherent, members⟩ := afterRequests_run (coherent_empty base) rs
  exact ⟨same, coherent, fun b => (members b).trans (by simp [empty, registered])⟩

/-- **The statements are those of the set of what was registered.** -/
theorem renders_requested : Renders (registered base rs) (requested base rs).render :=
  have ⟨_, coherent, members⟩ := requested_run base rs
  (renders coherent).congr members

/-- What a request is answered: it is refused exactly if it would give a module a second alias. -/
theorem request_cases (r : Request) :
    (∃ clash, (requested base rs).request r = .error (.aliasClash clash) ∧
      r.isAlias ∧ ∃ b ∈ registered base rs, b.isAlias ∧
        b.module = r.source.specifier base ∧ b.name ≠ r.name) ∨
    (∃ next, (requested base rs).request r = .ok next ∧
      ¬(r.isAlias ∧ ∃ b ∈ registered base rs, b.isAlias ∧
        b.module = r.source.specifier base ∧ b.name ≠ r.name)) := by
  obtain ⟨same, coherent, members⟩ := requested_run base rs
  rcases bind_cases coherent (r.binding (requested base rs).base) with
    ⟨next, ok, -, -, -, alone⟩ | ⟨name, error, whole, member, differ⟩
  · rw [same] at alone
    refine .inr ⟨next, ok, fun ⟨whole, b, registered, wholeB, sameModule, differ⟩ => ?_⟩
    exact differ (alone whole b ((members b).mpr registered) wholeB sameModule)
  · rw [same] at member
    exact .inl ⟨_, error, whole, _, (members _).mp member, rfl, rfl, differ⟩

/-- What the imports of a file owe to the requests that were made, in any folder. -/
structure Settled : Prop where
  /-- Every module has one statement, the statements are in order, and so is each of them. -/
  renders : Renders (registered base rs) (requested base rs).render
  /-- Nothing but the set of what was registered matters, not even the folder. -/
  alike : ∀ base' rs', (∀ b, b ∈ registered base' rs' ↔ b ∈ registered base rs) →
    (requested base' rs').render = (requested base rs).render
  /-- Requests without a conflict may be reordered and repeated. -/
  reordered : Agreeing base rs → ∀ rs', (∀ r, r ∈ rs' ↔ r ∈ rs) →
    (requested base rs').render = (requested base rs).render
  refused_iff : ∀ r, (∃ failure, (requested base rs).request r = .error failure) ↔
    r.isAlias ∧ ∃ b ∈ registered base rs, b.isAlias ∧
      b.module = r.source.specifier base ∧ b.name ≠ r.name
  refused : ∀ r failure, (requested base rs).request r = .error failure →
    (∃ clash, failure = .aliasClash clash) ∧
      ((requested base rs).afterRequest r).render = (requested base rs).render

/-- **The import statements are a function of the set of imports**, whatever the folder and the
requests. -/
theorem settled_requested : Settled base rs := by
  have alike (base' : Option Folder) (rs' : List Request)
      (same : ∀ b, b ∈ registered base' rs' ↔ b ∈ registered base rs) :
      (requested base' rs').render = (requested base rs).render :=
    ((renders_requested base' rs').congr same).unique (renders_requested base rs)
  have allGranted {rs : List Request} (agree : Agreeing base rs) :
      registered base rs = rs.map (·.binding base) :=
    granted_of_agreeing (coherent_empty base) agree (by simp [empty])
  refine ⟨renders_requested base rs, alike, fun agree rs' same => alike base rs' fun b => ?_,
    fun r => ?_, fun r failure refused => ?_⟩
  · have agree' : Agreeing base rs' := fun r hr r' hr' =>
      agree r ((same r).mp hr) r' ((same r').mp hr')
    rw [allGranted agree, allGranted agree']
    simp only [List.mem_map, same]
  · rcases request_cases base rs r with ⟨_, error, clashes⟩ | ⟨_, ok, free⟩
    · exact iff_of_true ⟨_, error⟩ clashes
    · exact iff_of_false (by simp [ok]) free
  · rcases request_cases base rs r with ⟨clash, error, -⟩ | ⟨_, ok, -⟩
    · rw [error, Except.error.injEq] at refused
      exact ⟨⟨clash, refused.symm⟩, by simp [afterRequest, error]⟩
    · simp [ok] at refused

/-- Two aliases of one module: the second one is refused, whatever stands between them. -/
example : registered (some .api)
    [⟨⟨.package "express", "Router"⟩, false⟩, ⟨⟨.package "express", "server"⟩, true⟩,
      ⟨.helper "isString", false⟩, ⟨⟨.package "express", "express"⟩, true⟩] =
    [⟨"express", "Router", false⟩, ⟨"express", "server", true⟩,
      ⟨"../validate", "isString", false⟩] := by
  decide +kernel

end Written
end ImportSet
end TypedApi.Code
