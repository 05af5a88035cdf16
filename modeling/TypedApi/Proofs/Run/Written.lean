import TypedApi.Proofs.Run.Spared
import TypedApi.Proofs.Output.ContentHash

/-! # What a run writes

A run that writes its output to the end leaves the generated files with the hash file in the output
directory, and nothing else (`OutputDirectory.write_eq_ok`): the directory is new, every file goes to a
free place in it, and the directories that are made lie on the way to a file.  The hash that was written
is the one that the next run reads (`OutputDirectory.storedHash_of_find`).
-/
namespace TypedApi

/-! ## Paths that lead to the same place -/

/-- A path that does not come by its end, or anything below it, on the way. -/
def Path.Straight (p : Path) (current : Location) : Prop :=
  ∀ n < p.parts.length, ¬ p.namesFrom current <+: (p.upTo n).namesFrom current

theorem Path.Straight.eq_nil {p : Path} {current l : Location} (straight : p.Straight current)
    (h : p.ComesBy current (p.namesFrom current ++ l)) : l = [] := by
  obtain ⟨n, same⟩ := h
  rcases Nat.lt_or_ge n p.parts.length with before | behind
  · exact absurd (same ▸ List.prefix_append _ l) (straight n before)
  · have end_ : p.upTo n = p := by rw [upTo, List.take_of_length_le behind]
    rw [end_] at same
    exact List.append_cancel_left (same.symm.trans (List.append_nil _).symm)

namespace FileSystem

variable {fs fs' : FileSystem} {p : Path} {l root : Location}

/-! ## Directories with known contents -/

/-- Below `root` there are the given files, none of them a program, and nothing else but the
directories on the way to them. -/
structure HoldsOnly (fs : FileSystem) (root : Location) (items : List (Location × ByteArray)) :
    Prop where
  each : ∀ item ∈ items, fs.entryAt (root ++ item.1) = some (.file item.2 false)
  only : ∀ l, fs.entryAt (root ++ l) ≠ none → l = [] ∨ ∃ item ∈ items, l <+: item.1

variable {items : List (Location × ByteArray)} {names : Location} {data : ByteArray}

/-- A directory is determined by what it holds. -/
theorem HoldsOnly.entryAt_eq (h : fs.HoldsOnly root items) (h' : fs'.HoldsOnly root items)
    (below : l ≠ []) : fs.entryAt (root ++ l) = fs'.entryAt (root ++ l) := by
  by_cases on : ∃ item ∈ items, l <+: item.1
  · obtain ⟨item, hi, rest, named⟩ := on
    have found := h.each item hi
    have found' := h'.each item hi
    rw [← named, ← List.append_assoc] at found found'
    cases rest with
    | nil =>
      rw [List.append_nil] at found found'
      exact found.trans found'.symm
    | cons name rest =>
      exact (FileTree.directory_of_entryAt_append found (List.cons_ne_nil _ _)).trans
        (FileTree.directory_of_entryAt_append found' (List.cons_ne_nil _ _)).symm
  · have nothing : fs.entryAt (root ++ l) = none :=
      not_not.mp fun given => on ((h.only l given).resolve_left below)
    have nothing' : fs'.entryAt (root ++ l) = none :=
      not_not.mp fun given => on ((h'.only l given).resolve_left below)
    rw [nothing, nothing']

/-- A place that none of the files takes is no file. -/
theorem HoldsOnly.not_file (h : fs.HoldsOnly root items) (below : names ≠ [])
    (fresh : ∀ item ∈ items, item.1 ≠ names) (data : ByteArray) (executable : Bool) :
    fs.entryAt (root ++ names) ≠ some (.file data executable) := by
  intro file
  have given : fs.entryAt (root ++ names) ≠ none := by
    rw [file]
    exact Option.some_ne_none _
  obtain ⟨item, hi, rest, named⟩ := (h.only names given).resolve_left below
  have nonempty : rest ≠ [] := fun none => fresh item hi (by rw [← named, none, List.append_nil])
  have found := h.each item hi
  rw [← named, ← List.append_assoc] at found
  cases file.symm.trans (FileTree.directory_of_entryAt_append found nonempty)

/-- **Writing a file adds it**, with the directories on the way to it. -/
theorem HoldsOnly.put (h : fs.HoldsOnly root items) (below : names ≠ [])
    (fresh : ∀ item ∈ items, item.1 ≠ names) {around : FileSystem} {way : Location → Prop}
    (grows : fs.Grows way around) (on : ∀ l, way (root ++ l) → l = [] ∨ l <+: names)
    (inside : around.tree.Holds (root ++ names))
    (free : around.entryAt (root ++ names) ≠ some .directory) :
    (around.put (root ++ names) (.file data false)).HoldsOnly root (items ++ [(names, data)]) := by
  have put := FileSystem.entryAt_put inside (.file data false)
  refine ⟨fun item hi => ?each, fun l given => ?only⟩
  case each =>
    rcases List.mem_append.mp hi with old | new
    · have kept : around.entryAt (root ++ item.1) = some (.file item.2 false) := by
        rcases grows.entries (root ++ item.1) with same | ⟨-, nothing, -⟩
        · exact same.trans (h.each item old)
        · cases nothing.symm.trans (h.each item old)
      have outside : ¬ root ++ names <+: root ++ item.1 := by
        rintro ⟨rest, named⟩
        rw [← named] at kept
        cases rest with
        | nil =>
          rw [List.append_nil] at named
          exact fresh item old (List.append_cancel_left named).symm
        | cons name rest =>
          exact free (FileTree.directory_of_entryAt_append kept (List.cons_ne_nil _ _))
      rw [put, if_neg outside]
      exact kept
    · obtain rfl := List.mem_singleton.mp new
      rw [put, if_pos (List.prefix_refl _), List.drop_length]
      exact FileTree.entryAt_nil _
  case only =>
    have new : (names, data) ∈ items ++ [(names, data)] :=
      List.mem_append_right _ (List.mem_singleton_self _)
    have around_or : around.entryAt (root ++ l) ≠ none ∨ l = names := by
      by_cases under : root ++ names <+: root ++ l
      · obtain ⟨rest, rfl⟩ := (List.prefix_append_right_inj root).mp under
        right
        cases rest with
        | nil => exact List.append_nil _
        | cons name rest =>
          refine absurd ?_ given
          rw [put, if_pos under, ← List.append_assoc, List.drop_left]
          rfl
      · left
        rwa [put, if_neg under] at given
    rcases around_or with given | rfl
    · rcases grows.entries (root ++ l) with same | ⟨made, -, -⟩
      · rw [same] at given
        exact (h.only l given).imp_right fun ⟨item, hi, named⟩ =>
          ⟨item, List.mem_append_left _ hi, named⟩
      · exact (on l made).imp_right fun named => ⟨_, new, named⟩
    · exact .inr ⟨_, new, List.prefix_refl _⟩

end FileSystem

namespace OutputDirectory

open Run

variable {directory : Path} {s s' : RunState} {before : List (Location × ByteArray)}

/-! ## Writing an output -/

theorem exec_reset_of_free (h : isReplaced s.files directory = .ok false) :
    exec (reset directory) s =
      exec (change (fun fs => fs.createDirectory directory false) (.notCreated directory.text))
        s := by
  rw [exec_reset, h]
  rfl

theorem exec_reset_of_replaced (h : isReplaced s.files directory = .ok true) :
    exec (reset directory) s = exec (do
      change (fun fs => fs.removeTree directory) (.notCleared directory.text)
      change (fun fs => fs.createDirectory directory false) (.notCreated directory.text)) s := by
  rw [exec_reset, h]
  rfl

/-- A directory that was reset was made where nothing was. -/
theorem created_of_reset (h : exec (reset directory) s = (.ok (), s')) :
    ∃ between : FileSystem, between.current = s.files.current ∧
      between.createDirectory directory false = (s'.files, .ok ()) := by
  cases found : isReplaced s.files directory with
  | error failure =>
    rw [exec_reset, found] at h
    cases h
  | ok replaced =>
    cases replaced with
    | false =>
      rw [exec_reset_of_free found] at h
      exact ⟨s.files, rfl, exec_change_eq_ok h⟩
    | true =>
      rw [exec_reset_of_replaced found] at h
      obtain ⟨_, between, removed, created⟩ := exec_bind_eq_ok.mp h
      have spared := s.files.removeTree_spares directory fun _ => False
      rw [exec_change_eq_ok removed] at spared
      exact ⟨between.files, spared.current, exec_change_eq_ok created⟩

/-- A directory that was reset is empty, and the way to it does not lead through it. -/
theorem reset_eq_ok (h : exec (reset directory) s = (.ok (), s')) :
    s'.files.current = s.files.current ∧ directory.Straight s.files.current ∧
      s'.files.HoldsOnly (directory.namesFrom s.files.current) [] := by
  obtain ⟨between, current, created⟩ := created_of_reset h
  obtain ⟨around, grows, made⟩ := FileSystem.createDirectory_eq_ok created
  obtain ⟨passes, free, same⟩ := FileSystem.makeDirectory_eq_ok made
  unfold FileSystem.Passes at passes
  rw [grows.current, current] at passes free same
  have nothing (l : Location) :
      around.entryAt (directory.namesFrom s.files.current ++ l) = none :=
    FileTree.entryAt_eq_none_of_prefix free (List.prefix_append _ _)
  refine ⟨by rw [same, FileSystem.put_current, grows.current, current], ?straight, ?empty⟩
  case straight =>
    rintro n hn ⟨l, through⟩
    cases (passes n hn).symm.trans (through ▸ nothing l)
  case empty =>
    refine ⟨fun item hi => absurd hi (List.not_mem_nil), fun l given => .inl ?_⟩
    by_contra below
    obtain ⟨name, rest, rfl⟩ := List.exists_cons_of_ne_nil below
    refine given ?_
    rw [same]
    by_cases inside : around.tree.Holds (directory.namesFrom s.files.current)
    · rw [FileSystem.entryAt_put inside, if_pos (List.prefix_append _ _), List.drop_left]
      rfl
    · exact (FileTree.entryAt_put_of_not_holds inside _).trans (nothing _)

/-- The directory of a file that is written below another one is there. -/
theorem holds_child {around : FileSystem} {below : String}
    (plain : Path.up ∉ Path.names below.toList) (named : Path.names below.toList ≠ [])
    (passes : around.Passes (directory.child below)) :
    around.tree.Holds (directory.namesFrom around.current ++ Path.names below.toList) := by
  have last := List.dropLast_append_getLast named
  have split : (directory.child below).parts =
      (directory.parts ++ (Path.names below.toList).dropLast) ++
        [(Path.names below.toList).getLast named] := by
    rw [List.append_assoc, last]
    rfl
  have holds := passes.holds split fun leads => plain (leads ▸ List.getLast_mem named)
  rwa [Path.namesFrom_child, Path.lead_of_plain plain] at holds

/-- A file that was written is in the directory, and found there. -/
theorem writeFile_eq_ok {below content : String} (plain : Path.up ∉ Path.names below.toList)
    (named : Path.names below.toList ≠ []) (straight : directory.Straight s.files.current)
    (fresh : ∀ item ∈ before, item.1 ≠ Path.names below.toList)
    (holds : s.files.HoldsOnly (directory.namesFrom s.files.current) before)
    (h : exec (writeFile (directory.child below) content) s = (.ok (), s')) :
    s'.files.current = s.files.current ∧
      s'.files.HoldsOnly (directory.namesFrom s.files.current)
        (before ++ [(Path.names below.toList, content.toUTF8)]) ∧
      s'.files.find (directory.child below) = .ok (.file content.toUTF8 false) := by
  obtain ⟨around, grows, made⟩ :=
    s.files.createFile_cases (directory.child below) content.toUTF8
  have created := exec_change_eq_ok h
  rcases made with ⟨e, failed⟩ | ⟨written, done, same⟩
  · cases failed.symm.trans created
  · cases same.symm.trans created
    obtain ⟨located, executable, put, stood⟩ := FileSystem.writeData_eq_ok done
    have inside := holds_child plain named (FileSystem.locate_eq_ok located).2
    rw [Path.namesFrom_child, Path.lead_of_plain plain, grows.current] at located put stood
    rw [grows.current] at inside
    -- A file that stands there was there before, and no file takes this place.
    have notFile (data : ByteArray) (executable : Bool) :
        around.entryAt (directory.namesFrom s.files.current ++ Path.names below.toList) ≠
          some (.file data executable) := by
      intro file
      rcases grows.entries _ with kept | ⟨-, -, made⟩
      · exact holds.not_file named fresh data executable (kept.symm.trans file)
      · cases made.symm.trans file
    rcases stood with ⟨free, rfl⟩ | ⟨old, file⟩
    · have vacant : around.entryAt (directory.namesFrom s.files.current ++
          Path.names below.toList) ≠ some .directory := by
        rw [free]
        exact (Option.some_ne_none _).symm
      rw [put]
      refine ⟨grows.current, ?holds, ?found⟩
      case holds =>
        refine holds.put named fresh grows (fun l on => ?_) inside vacant
        rcases Path.comesBy_of_child plain on with on | ⟨n, same⟩
        · exact .inl (straight.eq_nil on)
        · exact .inr (List.append_cancel_left same ▸ List.take_prefix _ _)
      case found =>
        refine FileSystem.find_of_file (FileSystem.locate_put located vacant _) ?_
        rw [FileSystem.entryAt_put inside, if_pos (List.prefix_refl _), List.drop_length]
        exact FileTree.entryAt_nil _
    · exact absurd file (notFile old executable)

/-- The locations and data of generated files. -/
def items (files : List Code.SourceFile) : List (Location × ByteArray) :=
  files.map fun file => (file.names, file.content.toUTF8)

/-- What is in an output directory: the generated files and the hash file. -/
def contents (files : List Code.SourceFile) (hash : String) : List (Location × ByteArray) :=
  items files ++ [([hashFileName], (hash ++ "\n").toUTF8)]

theorem writeFiles_eq_ok {files : List Code.SourceFile} {written : List Path}
    (plain : ∀ file ∈ files, Path.up ∉ file.names)
    (named : ∀ file ∈ files, file.names ≠ []) (distinct : (files.map (·.names)).Nodup)
    (fresh : ∀ file ∈ files, ∀ item ∈ before, item.1 ≠ file.names)
    (straight : directory.Straight s.files.current)
    (holds : s.files.HoldsOnly (directory.namesFrom s.files.current) before)
    (h : exec (writeFiles directory files) s = (.ok written, s')) :
    s'.files.current = s.files.current ∧
      s'.files.HoldsOnly (directory.namesFrom s.files.current) (before ++ items files) := by
  induction files generalizing s before written with
  | nil =>
    cases h
    exact ⟨rfl, by rwa [items, List.map_nil, List.append_nil]⟩
  | cons file rest ih =>
    obtain ⟨_, wrote, hw, h⟩ := exec_bind_eq_ok.mp h
    obtain ⟨_, reported, hr, h⟩ := exec_bind_eq_ok.mp h
    have kept := files_of_report hr
    obtain ⟨later, final, hl, h⟩ := exec_bind_eq_ok.mp h
    cases h
    obtain ⟨ownPlain, plain⟩ := List.forall_mem_cons.mp plain
    obtain ⟨ownNamed, named⟩ := List.forall_mem_cons.mp named
    obtain ⟨ownFresh, fresh⟩ := List.forall_mem_cons.mp fresh
    obtain ⟨notLater, distinct⟩ := List.nodup_cons.mp distinct
    obtain ⟨current, added, -⟩ := writeFile_eq_ok ownPlain ownNamed straight ownFresh holds hw
    have fresh : ∀ other ∈ rest, ∀ item ∈ before ++ [(file.names, file.content.toUTF8)],
        item.1 ≠ other.names := by
      intro other ho item hi
      rcases List.mem_append.mp hi with old | new
      · exact fresh other ho item old
      · obtain rfl := List.mem_singleton.mp new
        exact fun same => notLater (List.mem_map.mpr ⟨other, ho, same.symm⟩)
    rw [← current, ← kept] at straight added
    obtain ⟨current', holds⟩ := ih plain named distinct fresh straight added hl
    rw [kept, current] at current' holds
    rw [List.append_assoc] at holds
    exact ⟨current', holds⟩

/-- **What a run writes** is the planned files and the hash, and nothing else is in the directory. -/
theorem write_eq_ok {files : List Code.SourceFile} {hash : String} {written : List Path}
    (separate : Separate files) (h : exec (write directory files hash) s = (.ok written, s')) :
    s'.files.current = s.files.current ∧ directory.Straight s.files.current ∧
      s'.files.HoldsOnly (directory.namesFrom s.files.current) (contents files hash) ∧
      s'.files.find (hashFile directory) = .ok (.file (hash ++ "\n").toUTF8 false) := by
  obtain ⟨_, empty, hr, h⟩ := exec_bind_eq_ok.mp h
  obtain ⟨paths, filled, hf, h⟩ := exec_bind_eq_ok.mp h
  obtain ⟨_, marked, hm, h⟩ := exec_bind_eq_ok.mp h
  cases h
  obtain ⟨atReset, straight, holds⟩ := reset_eq_ok hr
  have same := straight
  rw [← atReset] at straight holds
  obtain ⟨atFiles, holds⟩ := writeFiles_eq_ok separate.below separate.named separate.distinct
    (fun _ _ _ hi => absurd hi List.not_mem_nil) straight holds hf
  have fresh : ∀ item ∈ items files, item.1 ≠ Path.names hashFileName.toList := by
    intro item hi
    obtain ⟨file, listed, rfl⟩ := List.mem_map.mp hi
    rw [names_hashFileName]
    exact separate.unhashed file listed
  rw [← atFiles] at straight holds
  have named : Path.names hashFileName.toList ≠ [] := by
    rw [names_hashFileName]
    exact List.cons_ne_nil _ _
  obtain ⟨atHash, holds, found⟩ :=
    writeFile_eq_ok up_notMem_hashFile named straight fresh holds hm
  rw [atFiles, atReset, names_hashFileName] at holds
  exact ⟨atHash.trans (atFiles.trans atReset), same, holds, found⟩

/-! ## Reading the hash -/

/-- The hash that was written is the one that is read. -/
theorem storedHash_of_find {files : FileSystem} {mode text : String} {executable : Bool}
    (found : files.find (hashFile directory) =
      .ok (.file (ContentHash.ofText mode text ++ "\n").toUTF8 executable)) :
    storedHash files directory = .ok (some (ContentHash.ofText mode text)) := by
  unfold storedHash FileSystem.readText FileSystem.readData
  rw [found]
  simp only [fromUTF8?_toUTF8]
  rw [ContentHash.read_written]

end OutputDirectory
end TypedApi
