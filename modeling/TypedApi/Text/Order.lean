/-! # Order of texts

Lists that are written in order are sorted by code points, and a set of names is written without
repetitions. Sorting keeps the elements (`perm_sortedBy`) and puts them in order
(`pairwise_sortedBy`), so that the order in which they were given does not matter.
-/
namespace TypedApi.Text

/-- Whether `a` comes no later than `b` in the order of code points. -/
def precedes : List Char → List Char → Bool
  | [], _ => true
  | _ :: _, [] => false
  | a :: as, b :: bs => a.toNat < b.toNat || (a.toNat == b.toNat && precedes as bs)

@[simp] theorem precedes_refl (cs : List Char) : precedes cs cs = true := by
  induction cs with
  | nil => rfl
  | cons c cs ih => simp [precedes, ih]

theorem precedes_total (as bs : List Char) : precedes as bs = true ∨ precedes bs as = true := by
  induction as generalizing bs with
  | nil => exact .inl rfl
  | cons a as ih =>
    cases bs with
    | nil => exact .inr rfl
    | cons b bs =>
      simp only [precedes, Bool.or_eq_true, Bool.and_eq_true, decide_eq_true_eq, beq_iff_eq]
      rcases ih bs with h | h <;> simp only [h, and_true] <;> omega

theorem precedes_trans {as bs cs : List Char} (ab : precedes as bs = true)
    (bc : precedes bs cs = true) : precedes as cs = true := by
  induction as generalizing bs cs with
  | nil => rfl
  | cons a as ih =>
    cases bs with
    | nil => simp [precedes] at ab
    | cons b bs =>
      cases cs with
      | nil => simp [precedes] at bc
      | cons c cs =>
        simp only [precedes, Bool.or_eq_true, Bool.and_eq_true, decide_eq_true_eq,
          beq_iff_eq] at ab bc ⊢
        rcases ab with ab | ⟨ab, rest⟩
        · omega
        · rcases bc with bc | ⟨bc, later⟩
          · omega
          · exact .inr ⟨by omega, ih rest later⟩

theorem precedes_antisymm {as bs : List Char} (ab : precedes as bs = true)
    (ba : precedes bs as = true) : as = bs := by
  induction as generalizing bs with
  | nil =>
    cases bs with
    | nil => rfl
    | cons b bs => simp [precedes] at ba
  | cons a as ih =>
    cases bs with
    | nil => simp [precedes] at ab
    | cons b bs =>
      simp only [precedes, Bool.or_eq_true, Bool.and_eq_true, decide_eq_true_eq,
        beq_iff_eq] at ab ba
      rcases ab with ab | ⟨same, ab⟩
      · omega
      · rcases ba with ba | ⟨_, ba⟩
        · omega
        · rw [Char.toNat_inj.mp same, ih ab ba]

variable {α : Type} (key : α → String)

/-- The elements of an ordered list with `a` in its place, before those with the same key. -/
def insertBy (a : α) : List α → List α
  | [] => [a]
  | b :: rest =>
    if precedes (key a).toList (key b).toList then a :: b :: rest else b :: insertBy a rest

/-- The elements of a list in the order of their keys. Elements with the same key stay in their
order. -/
def sortedBy : List α → List α
  | [] => []
  | a :: rest => insertBy key a (sortedBy rest)

theorem perm_insertBy (a : α) (bs : List α) : (insertBy key a bs).Perm (a :: bs) := by
  induction bs with
  | nil => exact .refl _
  | cons b rest ih =>
    unfold insertBy
    split
    · exact .refl _
    · exact (ih.cons b).trans (.swap a b rest)

theorem perm_sortedBy (as : List α) : (sortedBy key as).Perm as := by
  induction as with
  | nil => exact .refl _
  | cons a rest ih => exact (perm_insertBy key a _).trans (ih.cons a)

theorem pairwise_insertBy (a : α) {bs : List α}
    (h : bs.Pairwise fun x y => precedes (key x).toList (key y).toList = true) :
    (insertBy key a bs).Pairwise fun x y => precedes (key x).toList (key y).toList = true := by
  induction bs with
  | nil => simp [insertBy]
  | cons b rest ih =>
    obtain ⟨first, later⟩ := List.pairwise_cons.mp h
    unfold insertBy
    split
    · next before =>
      refine List.pairwise_cons.mpr ⟨fun c hc => ?_, h⟩
      rcases List.mem_cons.mp hc with rfl | hc
      · exact before
      · exact precedes_trans before (first c hc)
    · next after =>
      refine List.pairwise_cons.mpr ⟨fun c hc => ?_, ih later⟩
      rcases List.mem_cons.mp ((perm_insertBy key a rest).mem_iff.mp hc) with rfl | hc
      · exact (precedes_total _ _).resolve_left after
      · exact first c hc

theorem pairwise_sortedBy (as : List α) :
    (sortedBy key as).Pairwise fun x y => precedes (key x).toList (key y).toList = true := by
  induction as with
  | nil => exact .nil
  | cons a rest ih => exact pairwise_insertBy key a ih

/-- `texts` in the order of their code points. -/
def sorted (texts : List String) : List String :=
  sortedBy id texts

/-- The different texts of `texts`, in the order of their code points. -/
def sortedSet (texts : List String) : List String :=
  sorted texts.eraseDups

/-- `texts` separated by a comma and a space. -/
def commaList (texts : List String) : String :=
  ", ".intercalate texts

@[simp] theorem mem_sorted {s : String} {texts : List String} : s ∈ sorted texts ↔ s ∈ texts :=
  (perm_sortedBy id texts).mem_iff

/-- Sorted texts do not depend on the order in which they were given. -/
theorem sorted_eq_of_perm {as bs : List String} (h : as.Perm bs) : sorted as = sorted bs :=
  List.Perm.eq_of_pairwise
    (fun _ _ _ _ ab ba => String.toList_inj.mp (precedes_antisymm ab ba))
    (pairwise_sortedBy id as) (pairwise_sortedBy id bs)
    (((perm_sortedBy id as).trans h).trans (perm_sortedBy id bs).symm)

end TypedApi.Text
