import TypedApi.Proofs.Files.Entries
import TypedApi.Proofs.Noted

/-! # Where paths lead

A path leads to a location that its names and the working directory tell, if it leads anywhere: every
name on the way is one of a directory (`FileSystem.Passes`).  What is done at the end of a path is
done at this location, so that the effect of a step can be read off the names.
-/
namespace TypedApi

/-! ## Names -/

namespace Path

/-- The location that a name leads to from another one. -/
def step (l : Location) (name : String) : Location :=
  if name == up then l.dropLast else l ++ [name]

/-- The location that some names lead to from another one. -/
def lead (l : Location) (names : List String) : Location := names.foldl step l

/-- The location where a path starts. -/
def start (p : Path) (current : Location) : Location := if p.root == "" then current else []

/-- The first names of a path. -/
def upTo (p : Path) (n : Nat) : Path := { p with parts := p.parts.take n }

/-- A path leads to the location, or comes by it on the way. -/
def ComesBy (p : Path) (current l : Location) : Prop := ∃ n, (p.upTo n).namesFrom current = l

variable {p : Path} {current l : Location}

theorem namesFrom_eq (p : Path) (current : Location) :
    p.namesFrom current = lead (p.start current) p.parts := rfl

@[simp] theorem lead_nil (l : Location) : lead l [] = l := rfl

theorem lead_cons (l : Location) (name : String) (rest : List String) :
    lead l (name :: rest) = lead (step l name) rest := rfl

theorem lead_append (l : Location) (names rest : List String) :
    lead l (names ++ rest) = lead (lead l names) rest := List.foldl_append

theorem step_of_ne {name : String} (h : name ≠ up) (l : Location) : step l name = l ++ [name] :=
  if_neg (by simpa using h)

/-- Names that do not lead upwards are the names below a location. -/
theorem lead_of_plain {names : List String} (plain : up ∉ names) (l : Location) :
    lead l names = l ++ names := by
  induction names generalizing l with
  | nil => rw [lead_nil, List.append_nil]
  | cons name rest ih =>
    obtain ⟨own, later⟩ := not_or.mp (mt List.mem_cons.mpr plain)
    rw [lead_cons, step_of_ne (Ne.symm own), ih later, List.append_assoc, List.singleton_append]

theorem upTo_length (p : Path) : p.upTo p.parts.length = p := by
  rw [upTo, List.take_length]

theorem namesFrom_upTo (p : Path) (current : Location) (n : Nat) :
    (p.upTo n).namesFrom current = lead (p.start current) (p.parts.take n) := rfl

theorem comesBy_self (p : Path) (current : Location) : p.ComesBy current (p.namesFrom current) :=
  ⟨p.parts.length, by rw [upTo_length]⟩

theorem comesBy_of_parent (h : p.parent.ComesBy current l) : p.ComesBy current l := by
  obtain ⟨n, rfl⟩ := h
  refine ⟨min n (p.parts.length - 1), ?_⟩
  rw [namesFrom_upTo, namesFrom_upTo, parent, List.dropLast_eq_take, List.take_take]
  rfl

/-- The text of a path goes on in that of a path below. -/
theorem utf8ByteSize_text_le (p : Path) (below : String) :
    p.text.utf8ByteSize ≤ (p.child below).text.utf8ByteSize ∨ p.text.utf8ByteSize ≤ textLimit := by
  by_cases none : p.parts = []
  · by_cases relative : p.root = ""
    · right
      rw [text, relative, none]
      decide
    · left
      have shown : p.text = p.root := by simp [text, relative, none]
      have below_ : (p.child below).text =
          p.root ++ "/".intercalate (p.child below).parts := by
        simp [text, child, relative]
      rw [shown, below_, String.utf8ByteSize_append]
      exact Nat.le_add_right _ _
  · left
    have shown : p.text = p.root ++ "/".intercalate p.parts := by simp [text, none]
    have below_ : (p.child below).text =
        p.root ++ "/".intercalate (p.parts ++ names below.toList) := by
      simp [text, child, none]
    rw [shown, below_]
    by_cases nothing : names below.toList = []
    · rw [nothing, List.append_nil]
    · rw [String.intercalate_append_of_ne_nil none nothing]
      simp only [String.utf8ByteSize_append]
      omega

theorem namesFrom_child (p : Path) (current : Location) (below : String) :
    (p.child below).namesFrom current = lead (p.namesFrom current) (names below.toList) :=
  lead_append _ _ _

/-- A path whose last name does not lead upwards leads into the directory before. -/
theorem namesFrom_of_concat {before : List String} {name : String} (split : p.parts = before ++ [name])
    (plain : name ≠ up) :
    p.namesFrom current = (p.upTo before.length).namesFrom current ++ [name] := by
  rw [namesFrom_eq, namesFrom_upTo, split, lead_append, List.take_left, lead_cons, lead_nil,
    step_of_ne plain]

end Path

/-! ## Following names -/

namespace FileSystem

variable {fs fs' : FileSystem} {p : Path} {l l' : Location}

/-- Every name of a path is one of a directory that exists. -/
def Passes (fs : FileSystem) (p : Path) : Prop :=
  ∀ n < p.parts.length, fs.entryAt ((p.upTo n).namesFrom fs.current) = some .directory

theorem follow_cons_eq_ok {name : String} {rest : List String}
    (h : fs.follow l (name :: rest) = .ok l') :
    fs.entryAt l = some .directory ∧ fs.follow (Path.step l name) rest = .ok l' := by
  rw [follow] at h
  split at h
  · cases h
  · cases h
  · next entries found =>
    refine ⟨by rw [entryAt_eq, found]; rfl, ?_⟩
    rw [Path.step]
    split at h
    · next leads =>
      rw [if_pos leads]
      exact h
    · next plain =>
      rw [if_neg plain]
      split at h
      · cases h
      · exact h

/-- Names that can be followed lead where they say, through directories. -/
theorem follow_eq_ok {names : List String} (h : fs.follow l names = .ok l') :
    l' = Path.lead l names ∧
      ∀ n < names.length, fs.entryAt (Path.lead l (names.take n)) = some .directory := by
  induction names generalizing l with
  | nil =>
    cases h
    exact ⟨rfl, fun n hn => absurd hn (Nat.not_lt_zero n)⟩
  | cons name rest ih =>
    obtain ⟨first, later⟩ := follow_cons_eq_ok h
    obtain ⟨same, passes⟩ := ih later
    refine ⟨same, fun n hn => ?_⟩
    cases n with
    | zero => exact first
    | succ n => exact passes n (Nat.lt_of_succ_lt_succ hn)

theorem follow_append (fs : FileSystem) (l : Location) (names rest : List String) :
    fs.follow l (names ++ rest) = fs.follow l names >>= fun l' => fs.follow l' rest := by
  induction names generalizing l with
  | nil => rfl
  | cons name names ih =>
    rw [List.cons_append, follow, follow]
    split
    · rfl
    · rfl
    · split
      · exact ih _
      · split
        · rfl
        · exact ih _

theorem locate_eq_ok (h : fs.locate p = .ok l) : l = p.namesFrom fs.current ∧ fs.Passes p := by
  unfold locate at h
  split at h
  · cases h
  · obtain ⟨rfl, passes⟩ := follow_eq_ok h
    exact ⟨rfl, passes⟩

/-- What leads below the end of a path passes its end. -/
theorem locate_of_child {below : String} (h : fs.locate (p.child below) = .ok l) :
    fs.locate p = .ok (p.namesFrom fs.current) := by
  unfold locate at h ⊢
  split at h
  · cases h
  · next short =>
    have fits : ¬ Path.textLimit < p.text.utf8ByteSize := by
      rcases p.utf8ByteSize_text_le below with shorter | fits
      · omega
      · omega
    rw [if_neg fits]
    rw [Path.child, follow_append] at h
    obtain ⟨l', followed, -⟩ := Except.bind_eq_ok.mp h
    obtain ⟨rfl, -⟩ := follow_eq_ok followed
    exact followed

theorem find_eq_ok {t : FileTree} (h : fs.find p = .ok t) :
    fs.locate p = .ok (p.namesFrom fs.current) ∧ fs.at? (p.namesFrom fs.current) = some t := by
  obtain ⟨l, located, h⟩ := Except.bind_eq_ok.mp h
  obtain ⟨rfl, -⟩ := locate_eq_ok located
  refine ⟨located, ?_⟩
  split at h
  · cases h
    assumption
  · cases h

theorem find?_eq_some {t : FileTree} (h : fs.find? p = .ok (some t)) : fs.find p = .ok t := by
  unfold find? at h
  split at h
  · next found =>
    cases h
    exact found
  · cases h
  · cases h
  · cases h

/-- The directory of a location exists if a path leads there by a name of it. -/
theorem Passes.holds (passes : fs.Passes p) {before : List String} {name : String}
    (split : p.parts = before ++ [name]) (plain : name ≠ Path.up) :
    fs.tree.Holds (p.namesFrom fs.current) := by
  right
  rw [Path.namesFrom_of_concat split plain, List.dropLast_concat]
  exact passes before.length (by simp [split])

/-! ## What is done at the end of a path -/

theorem makeDirectory_eq_ok {made : FileSystem} (h : fs.makeDirectory p = .ok made) :
    fs.Passes p ∧ fs.entryAt (p.namesFrom fs.current) = none ∧
      made = fs.put (p.namesFrom fs.current) (.directory []) := by
  obtain ⟨l, located, h⟩ := Except.bind_eq_ok.mp h
  obtain ⟨rfl, passes⟩ := locate_eq_ok located
  split at h
  · cases h
  · next free =>
    cases h
    exact ⟨passes, at?_eq_none.mp free, rfl⟩

/-- What is written stands at the end of the path, where a file was or nothing. -/
theorem writeData_eq_ok {data : ByteArray} {written : FileSystem}
    (h : fs.writeData p data = .ok written) :
    fs.locate p = .ok (p.namesFrom fs.current) ∧
      ∃ executable, written = fs.put (p.namesFrom fs.current) (.file data executable) ∧
        ((fs.entryAt (p.namesFrom fs.current) = none ∧ executable = false) ∨
          ∃ old, fs.entryAt (p.namesFrom fs.current) = some (.file old executable)) := by
  obtain ⟨l, located, h⟩ := Except.bind_eq_ok.mp h
  obtain ⟨rfl, -⟩ := locate_eq_ok located
  refine ⟨located, ?_⟩
  split at h
  · cases h
  · next old executable found =>
    cases h
    exact ⟨executable, rfl, .inr ⟨old, by rw [entryAt_eq, found]; rfl⟩⟩
  · next free =>
    cases h
    exact ⟨false, rfl, .inl ⟨at?_eq_none.mp free, rfl⟩⟩

/-! ## Paths that lead to the same place -/

theorem follow_cons (fs : FileSystem) (l : Location) (name : String) (rest : List String) :
    fs.follow l (name :: rest) =
      match fs.entryAt l with
      | none => .error .notFound
      | some (.file _ _) => .error .notADirectory
      | some .directory =>
        if name == Path.up then fs.follow l.dropLast rest
        else if Path.nameLimit < name.utf8ByteSize then .error .nameTooLong
        else fs.follow (l ++ [name]) rest := by
  rw [follow, entryAt_eq]
  cases fs.at? l with
  | none => rfl
  | some t => cases t <;> rfl

/-- Where names lead depends on what they come by. -/
theorem follow_congr {names : List String}
    (same : ∀ n < names.length,
      fs'.entryAt (Path.lead l (names.take n)) = fs.entryAt (Path.lead l (names.take n))) :
    fs'.follow l names = fs.follow l names := by
  induction names generalizing l with
  | nil => rfl
  | cons name rest ih =>
    have first := same 0 (Nat.zero_lt_succ _)
    have later : ∀ n < rest.length, fs'.entryAt (Path.lead (Path.step l name) (rest.take n)) =
        fs.entryAt (Path.lead (Path.step l name) (rest.take n)) :=
      fun n hn => same (n + 1) (Nat.succ_lt_succ hn)
    rw [List.take_zero, Path.lead_nil] at first
    rw [follow_cons, follow_cons, first]
    split
    · rfl
    · rfl
    · split
      · next leads =>
        rw [Path.step, if_pos leads] at later
        exact ih later
      · next plain =>
        rw [Path.step, if_neg plain] at later
        rw [ih later]

theorem locate_congr (current : fs'.current = fs.current)
    (same : ∀ n < p.parts.length, fs'.entryAt ((p.upTo n).namesFrom fs.current) =
      fs.entryAt ((p.upTo n).namesFrom fs.current)) :
    fs'.locate p = fs.locate p := by
  unfold locate
  rw [current]
  exact if_congr Iff.rfl rfl (follow_congr same)

/-- What is put in the place of a file does not change where the path to it leads. -/
theorem locate_put (located : fs.locate p = .ok l) (free : fs.entryAt l ≠ some .directory)
    (t : FileTree) : (fs.put l t).locate p = .ok l := by
  obtain ⟨-, passes⟩ := locate_eq_ok located
  rw [← located]
  refine locate_congr rfl fun n hn => FileTree.entryAt_put_of_not_prefix ?_
  rintro ⟨rest, through⟩
  have around := passes n hn
  rw [← through] at around
  cases rest with
  | nil => exact free (by rwa [List.append_nil] at around)
  | cons name rest =>
    exact free (FileTree.directory_of_entryAt_append around (List.cons_ne_nil _ _))

/-- The file at the end of a path is found. -/
theorem find_of_file {data : ByteArray} {executable : Bool} (located : fs.locate p = .ok l)
    (file : fs.entryAt l = some (.file data executable)) :
    fs.find p = .ok (.file data executable) := by
  rw [entryAt_eq] at file
  obtain ⟨t, found, same⟩ := Option.map_eq_some_iff.mp file
  refine Except.bind_eq_ok.mpr ⟨l, located, ?_⟩
  rw [found]
  cases t with
  | file old executable' =>
    cases same
    rfl
  | directory entries => cases same

end FileSystem
end TypedApi
