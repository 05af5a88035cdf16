import TypedApi.Proofs.Run.Unformatted

/-! # Writes that stop halfway

The hash file is what marks a directory as an output, and it is written last.  So a write that stops
after it has cleared its directory leaves a directory without a mark.  If it got as far as putting
anything into it, the directory looks like one that somebody else has filled: it is not replaced any
more, by no later write, until it is emptied by hand.  If it left nothing there, or an empty directory,
a later write is not held up (`OutputDirectory.retry_exact`).
-/
namespace TypedApi
namespace OutputDirectory

open Run

variable {directory : Path} {files between : FileSystem} {current root : Location}
variable {generated : List Code.SourceFile} {hash : String} {s s' : RunState}

/-! ## Cleared directories -/

/-- What is left of the files once an output directory is cleared: nothing stands there, because
nothing did or because it was removed. -/
inductive Cleared (directory : Path) (files : FileSystem) : FileSystem → Prop where
  | free : isReplaced files directory = .ok false →
      files.entryAt (directory.namesFrom files.current) = none → Cleared directory files files
  | removed {left : FileSystem} : isReplaced files directory = .ok true →
      files.removeTree directory = (left, .ok ()) → Cleared directory files left

/-- What a write does with a directory that is cleared. -/
def fill (directory : Path) (generated : List Code.SourceFile) (hash : String) :
    Run (List Path) := do
  Run.change (fun fs => fs.createDirectory directory false) (.notCreated directory.text)
  let written ← writeFiles directory generated
  writeFile (hashFile directory) (hash ++ "\n")
  return written ++ [hashFile directory]

theorem Cleared.gone (h : Cleared directory files between) :
    between.current = files.current ∧
      between.entryAt (directory.namesFrom files.current) = none := by
  cases h with
  | free _ nothing => exact ⟨rfl, nothing⟩
  | removed _ removed => exact FileSystem.removeTree_eq_ok removed

theorem Cleared.allowed (h : Cleared directory files between) :
    ∃ replaced, isReplaced files directory = .ok replaced := by
  cases h with
  | free allowed => exact ⟨false, allowed⟩
  | removed allowed => exact ⟨true, allowed⟩

theorem Cleared.found (h : Cleared directory files between) : Found directory files := by
  cases h with
  | free _ nothing => exact .inl (unmarked_of_entryAt_eq_none nothing)
  | removed allowed =>
    obtain ⟨entries, own⟩ := find_of_replaced allowed
    exact .inr (FileSystem.find_eq_ok own).1

theorem Cleared.exec_write (h : Cleared directory s.files between) :
    exec (write directory generated hash) s =
      exec (fill directory generated hash) ⟨between, s.progress⟩ := by
  rw [write, fill, exec_bind, exec_bind]
  cases h with
  | free allowed => rw [exec_reset_of_free allowed]
  | removed allowed removed =>
    rw [exec_reset_of_replaced allowed, exec_bind, exec_change, removed]
    rfl

/-- The write stopped after it had cleared its directory. -/
structure Stopped (directory : Path) (generated : List Code.SourceFile) (hash : String)
    (s s' : RunState) : Prop where
  cleared : ∃ between, Cleared directory s.files between
  failed : ∃ failure, exec (write directory generated hash) s = (.error failure, s')

/-! ## What a stopped write leaves -/

/-- The working directory is the given one, and at the end of the path there is a directory or
nothing. -/
structure Unblocked (directory : Path) (current : Location) (files : FileSystem) : Prop where
  here : files.current = current
  entry : files.entryAt (directory.namesFrom current) = none ∨
    files.entryAt (directory.namesFrom current) = some .directory

theorem Unblocked.grows {files' : FileSystem} {way : Location → Prop} (h : Unblocked directory current files)
    (grows : files.Grows way files') : Unblocked directory current files' := by
  refine ⟨grows.current.trans h.here, ?_⟩
  rcases grows.entries (directory.namesFrom current) with same | ⟨-, -, made⟩
  · rw [same]
    exact h.entry
  · exact .inr made

theorem Unblocked.createFile {below : String} (h : Unblocked directory current files)
    (plain : Path.up ∉ Path.names below.toList) (named : Path.names below.toList ≠ [])
    (data : ByteArray) :
    Unblocked directory current (files.createFile (directory.child below) data).1 := by
  refine ⟨(FileSystem.createFile_current _ _ _).trans h.here, ?_⟩
  have apart : ¬ (directory.child below).namesFrom files.current <+:
      directory.namesFrom current := by
    rw [Path.namesFrom_child, Path.lead_of_plain plain, h.here]
    intro deeper
    have length := deeper.length_le
    rw [List.length_append] at length
    have some_ := List.length_pos_iff.mpr named
    omega
  rcases FileSystem.createFile_elsewhere data apart with same | ⟨-, made⟩
  · rw [same]
    exact h.entry
  · exact .inr made

/-- Filling a directory puts no file in its place. -/
theorem fill_keeps_unblocked (separate : Separate generated) (hash : String) :
    Keeps (Unblocked directory current) (fill directory generated hash) := by
  refine (keeps_change fun fs h => h.grows (fs.createDirectory_grows directory false)).bind
    fun _ => ?_
  refine (writeFiles_keeps fun file hf fs h => ?_).bind fun _ => ?_
  · exact h.createFile (separate.below file hf) (separate.named file hf) _
  · refine (keeps_change fun fs h => ?_).bind fun _ => keeps_pure _
    exact h.createFile up_notMem_hashFile (by rw [names_hashFileName]; exact List.cons_ne_nil _ _) _

/-- What stands somewhere still does when files were written. -/
theorem writeFiles_keeps_entry (l : Location) :
    Keeps (fun fs => fs.entryAt l ≠ none) (writeFiles directory generated) :=
  writeFiles_keeps fun _ _ fs given => fs.createFile_entryAt_ne_none _ _ given

/-- A file that was written stands in the directory. -/
theorem entryAt_of_createFile {below : String} {data : ByteArray} {written : FileSystem}
    (plain : Path.up ∉ Path.names below.toList) (named : Path.names below.toList ≠ [])
    (h : files.createFile (directory.child below) data = (written, .ok ())) :
    written.entryAt (directory.namesFrom files.current ++ Path.names below.toList) ≠ none := by
  obtain ⟨around, grows, made⟩ := files.createFile_cases (directory.child below) data
  rcases made with ⟨e, failed⟩ | ⟨left, done, created⟩
  · cases failed.symm.trans h
  · cases created.symm.trans h
    obtain ⟨located, executable, rfl, -⟩ := FileSystem.writeData_eq_ok done
    have inside := holds_child plain named (FileSystem.locate_eq_ok located).2
    rw [Path.namesFrom_child, Path.lead_of_plain plain, ← grows.current,
      FileSystem.entryAt_put inside, if_pos (List.prefix_refl _), List.drop_length]
    exact Option.some_ne_none _

/-- Something stands in a directory. -/
def Filled (root : Location) (files : FileSystem) : Prop :=
  ∃ l, l ≠ [] ∧ files.entryAt (root ++ l) ≠ none

/-- Once a file was reported as written, something stands in the directory. -/
theorem filled_of_writeFiles {result : Except Failure (List Path)} (separate : Separate generated)
    (h : exec (writeFiles directory generated) s = (result, s')) (more : s'.progress ≠ s.progress) :
    Filled (directory.namesFrom s.files.current) s'.files := by
  cases generated with
  | nil =>
    cases h
    exact absurd rfl more
  | cons file rest =>
    have plain := separate.below file List.mem_cons_self
    have named := separate.named file List.mem_cons_self
    rw [writeFiles, exec_bind] at h
    cases wrote : exec (writeFile (directory.child file.path) file.content) s with
    | mk outcome written =>
      rw [wrote] at h
      cases outcome with
      | error failure =>
        cases h
        exact absurd (progress_of_change wrote) more
      | ok _ =>
        have stands := entryAt_of_createFile plain named (exec_change_eq_ok wrote)
        refine ⟨file.names, named, ?_⟩
        rw [← show _ = s' from congrArg Prod.snd h]
        refine Keeps.bind (P := fun fs =>
          fs.entryAt (directory.namesFrom s.files.current ++ file.names) ≠ none)
          (keeps_report _) (fun _ => ?_) written stands
        exact (writeFiles_keeps_entry _).bind fun _ => keeps_pure _

theorem filled_of_progress {failure : Failure} (separate : Separate generated)
    (h : exec (fill directory generated hash) s = (.error failure, s'))
    (more : s'.progress ≠ s.progress) :
    Filled (directory.namesFrom s.files.current) s'.files := by
  rcases exec_bind_eq_error.mp h with stopped | ⟨_, empty, created, h⟩
  · exact absurd (progress_of_change stopped) more
  · have grows := s.files.createDirectory_grows directory false
    rw [exec_change_eq_ok created] at grows
    rw [← grows.current]
    rw [← progress_of_change created] at more
    rcases exec_bind_eq_error.mp h with stopped | ⟨paths, full, filled, h⟩
    · exact filled_of_writeFiles separate stopped more
    · rcases exec_bind_eq_error.mp h with stopped | ⟨_, _, -, h⟩
      · rw [progress_of_change stopped] at more
        obtain ⟨l, below, stands⟩ := filled_of_writeFiles separate filled more
        obtain ⟨e, failed, -⟩ := exec_change_eq_error stopped
        refine ⟨l, below, ?_⟩
        have kept := full.files.createFile_entryAt_ne_none (hashFile directory)
          (hash ++ "\n").toUTF8 stands
        rwa [failed] at kept
      · cases h

/-! ## What the next write finds -/

theorem look_of_locate {p : Path} {l : Location} (located : files.locate p = .ok l) :
    look files p = .ok (files.at? l) := by
  rw [look, FileSystem.find?, FileSystem.find, located, Except.ok_bind]
  cases files.at? l <;> rfl

theorem look_eq_error {p : Path} {failure : Failure} (h : look files p = .error failure) :
    failure = .defect .unforeseenSystemError := by
  unfold look at h
  split at h
  · cases h
  · cases h
    rfl

theorem find_of_look {p : Path} {t : FileTree} (h : look files p = .ok (some t)) :
    files.find p = .ok t := by
  unfold look at h
  split at h
  · next found =>
    cases h
    exact FileSystem.find?_eq_some found
  · cases h

/-- Whoever finds a hash file finds it in the directory. -/
theorem not_unmarked_of_isGenerated (h : isGenerated files directory = .ok true) :
    ¬ Unmarked (directory.namesFrom files.current) files := by
  obtain ⟨looked, found, h⟩ := Except.bind_eq_ok.mp h
  split at h
  · next data executable =>
    obtain ⟨-, own⟩ := FileSystem.find_eq_ok (find_of_look found)
    rw [namesFrom_hashFile] at own
    refine fun unmarked => unmarked data executable ?_
    rw [FileSystem.entryAt_eq, own]
    rfl
  · cases h

theorem isGenerated_eq_false_iff {l : Location}
    (located : files.locate (hashFile directory) = .ok l) :
    isGenerated files directory = .ok false ↔
      Unmarked (directory.namesFrom files.current) files := by
  obtain ⟨rfl, -⟩ := FileSystem.locate_eq_ok located
  rw [isGenerated, look_of_locate located, Except.ok_bind, namesFrom_hashFile]
  constructor
  · intro h data executable file
    rw [FileSystem.entryAt_eq] at file
    obtain ⟨t, stands, same⟩ := Option.map_eq_some_iff.mp file
    cases t with
    | directory entries => cases same
    | file old executable' =>
      rw [stands] at h
      cases h
  · intro unmarked
    split
    · next data executable stands =>
      refine absurd ?_ (unmarked data executable)
      rw [FileSystem.entryAt_eq, stands]
      rfl
    · rfl

theorem isGenerated_eq_error {failure : Failure}
    (h : isGenerated files directory = .error failure) :
    failure = .defect .unforeseenSystemError := by
  cases looked : look files (hashFile directory) with
  | error e =>
    rw [isGenerated, looked] at h
    cases h
    exact look_eq_error looked
  | ok found =>
    rw [isGenerated, looked, Except.ok_bind] at h
    split at h <;> cases h

/-- In a directory there is room for a hash file, unless its path is too long. -/
theorem locate_hashFile {entries : List (String × FileTree)}
    (own : files.find directory = .ok (.directory entries)) :
    (∃ l, files.locate (hashFile directory) = .ok l) ∨
      files.locate (hashFile directory) = .error .nameTooLong := by
  obtain ⟨located, stands⟩ := FileSystem.find_eq_ok own
  unfold FileSystem.locate at located ⊢
  by_cases long : Path.textLimit < (hashFile directory).text.utf8ByteSize
  · exact .inr (if_pos long)
  · refine .inl ⟨directory.namesFrom files.current ++ [hashFileName], ?_⟩
    split at located
    · cases located
    · rw [if_neg long, hashFile, Path.child, names_hashFileName, FileSystem.follow_append]
      refine Except.bind_eq_ok.mpr ⟨_, located, ?_⟩
      rw [FileSystem.follow, stands]
      rfl

/-- Something stands in a directory if it has entries. -/
theorem filled_iff {entries : List (String × FileTree)}
    (own : files.find directory = .ok (.directory entries)) :
    Filled (directory.namesFrom files.current) files ↔ entries.isEmpty = false := by
  obtain ⟨-, stands⟩ := FileSystem.find_eq_ok own
  have inside (l : Location) : files.entryAt (directory.namesFrom files.current ++ l) =
      (FileTree.directory entries).entryAt l := by
    rw [FileSystem.entryAt, FileTree.entryAt_append]
    rw [show files.tree.at? (directory.namesFrom files.current) = _ from stands, Option.bind_some]
  cases entries with
  | nil =>
    refine iff_of_false ?_ (by simp)
    rintro ⟨l, below, given⟩
    obtain ⟨name, rest, rfl⟩ := List.exists_cons_of_ne_nil below
    rw [inside] at given
    exact given rfl
  | cons entry rest =>
    refine iff_of_true ⟨[entry.1], List.cons_ne_nil _ _, ?_⟩ rfl
    rw [inside, FileTree.entryAt_cons, List.lookup_cons_self, Option.bind_some,
      FileTree.entryAt_nil]
    exact Option.some_ne_none _

/-- **Why an output directory is refused.**  It cannot be looked up, there is a file, or something
stands in it and no hash file does. -/
theorem isReplaced_eq_error {failure : Failure} (h : isReplaced files directory = .error failure) :
    failure = .defect .unforeseenSystemError ∨
      (failure = .output (.notADirectory directory.text) ∧ ∃ data executable,
        files.entryAt (directory.namesFrom files.current) = some (.file data executable)) ∨
      (failure = .output (.foreignDirectory directory.text) ∧
        Filled (directory.namesFrom files.current) files ∧
        Unmarked (directory.namesFrom files.current) files ∧
        ∃ l, files.locate (hashFile directory) = .ok l) := by
  cases looked : look files directory with
  | error e =>
    rw [isReplaced, looked] at h
    cases h
    exact .inl (look_eq_error looked)
  | ok found =>
    rw [isReplaced, looked, Except.ok_bind] at h
    split at h
    · cases h
    · next data executable =>
      cases h
      obtain ⟨-, stands⟩ := FileSystem.find_eq_ok (find_of_look looked)
      refine .inr (.inl ⟨rfl, data, executable, ?_⟩)
      rw [FileSystem.entryAt_eq, stands]
      rfl
    · next entries =>
      have own := find_of_look looked
      cases generated : isGenerated files directory with
      | error e =>
        rw [generated] at h
        cases h
        exact .inl (isGenerated_eq_error generated)
      | ok marked =>
        rw [generated, Except.ok_bind] at h
        split at h
        · next refused =>
          cases h
          obtain ⟨foreign_, nonempty⟩ := Bool.and_eq_true_iff.mp refused
          obtain ⟨l, located⟩ := (locate_hashFile own).resolve_right fun long => by
            rw [isGenerated, look, FileSystem.find?, FileSystem.find, long] at generated
            cases generated
          obtain rfl : marked = false := by simpa using foreign_
          exact .inr (.inr ⟨rfl, (filled_iff own).mpr (by simpa using nonempty),
            (isGenerated_eq_false_iff located).mp generated, l, located⟩)
        · cases h

/-- What is replaced without a hash file is empty. -/
theorem not_filled_of_replaced (unmarked : Unmarked (directory.namesFrom files.current) files)
    (replaced : isReplaced files directory = .ok true) :
    ¬ Filled (directory.namesFrom files.current) files := by
  obtain ⟨entries, own⟩ := find_of_replaced replaced
  rw [filled_iff own, Bool.not_eq_false]
  rw [isReplaced, look, FileSystem.find?, own, Except.ok_bind] at replaced
  obtain ⟨generated, marked, h⟩ := Except.bind_eq_ok.mp replaced
  cases generated with
  | true => exact absurd unmarked (not_unmarked_of_isGenerated marked)
  | false =>
    split at h
    · cases h
    · next empty => simpa using empty

/-- **When a directory is refused as foreign.** -/
theorem isReplaced_eq_foreign_iff :
    isReplaced files directory = .error (.output (.foreignDirectory directory.text)) ↔
      Filled (directory.namesFrom files.current) files ∧
        Unmarked (directory.namesFrom files.current) files ∧
        ∃ l, files.locate (hashFile directory) = .ok l := by
  constructor
  · intro h
    rcases isReplaced_eq_error h with other | ⟨other, -⟩ | ⟨-, refused⟩
    · cases other
    · cases other
    · exact refused
  · rintro ⟨⟨m, below, stands⟩, unmarked, l, located⟩
    obtain ⟨e, inside⟩ := Option.ne_none_iff_exists'.mp stands
    obtain ⟨t, own, here⟩ := Option.map_eq_some_iff.mp
      (FileTree.directory_of_entryAt_append inside below)
    cases t with
    | file data executable => cases here
    | directory entries =>
      have own : files.find directory = .ok (.directory entries) := by
        refine Except.bind_eq_ok.mpr ⟨_, FileSystem.locate_of_child located, ?_⟩
        rw [show files.at? (directory.namesFrom files.current) = _ from own]
        rfl
      have nonempty := (filled_iff own).mp ⟨m, below, stands⟩
      rw [isReplaced, look, FileSystem.find?, own, Except.ok_bind]
      simp only [(isGenerated_eq_false_iff located).mpr unmarked, Except.ok_bind, nonempty]
      rfl

/-! ## Writing again -/

section Again
variable {later last : RunState} {retried : List Code.SourceFile} {again : String}

theorem Stopped.bare (h : Stopped directory generated hash s s') (separate : Separate generated) :
    Bare directory s.files.current s'.files := by
  obtain ⟨⟨between, cleared⟩, failure, failed⟩ := h
  obtain ⟨replaced, allowed⟩ := cleared.allowed
  exact write_bare cleared.found allowed separate failed

theorem Stopped.unblocked (h : Stopped directory generated hash s s') (separate : Separate generated) :
    Unblocked directory s.files.current s'.files := by
  obtain ⟨⟨between, cleared⟩, failure, failed⟩ := h
  rw [cleared.exec_write] at failed
  obtain ⟨here, gone⟩ := cleared.gone
  have kept := fill_keeps_unblocked separate hash ⟨between, s.progress⟩ ⟨here, .inl gone⟩
  rwa [failed] at kept

theorem Stopped.filled (h : Stopped directory generated hash s s') (separate : Separate generated)
    (more : s'.progress ≠ s.progress) :
    Filled (directory.namesFrom s.files.current) s'.files := by
  obtain ⟨⟨between, cleared⟩, failure, failed⟩ := h
  rw [cleared.exec_write] at failed
  have filled := filled_of_progress separate failed more
  rwa [cleared.gone.1] at filled

theorem exec_write_of_refused {failure : Failure}
    (refused : isReplaced later.files directory = .error failure) :
    exec (write directory retried again) later = (.error failure, later) :=
  exec_bind_of_error (by rw [exec_reset, refused]) _

/-- A write is refused as foreign if its directory is, and then it changes nothing. -/
theorem write_eq_foreign_iff :
    exec (write directory retried again) later =
        (.error (.output (.foreignDirectory directory.text)), later) ↔
      isReplaced later.files directory = .error (.output (.foreignDirectory directory.text)) := by
  cases looked : isReplaced later.files directory with
  | error failure =>
    rw [exec_write_of_refused looked]
    simp
  | ok replaced =>
    refine iff_of_false (fun refused => ?_) (by simp)
    cases interrupts_of_write refused looked

/-- No write ends in a directory without a hash file in which something stands. -/
theorem not_written_of_filled {paths : List Path}
    (unmarked : Unmarked (directory.namesFrom later.files.current) later.files)
    (filled : Filled (directory.namesFrom later.files.current) later.files) :
    exec (write directory retried again) later ≠ (.ok paths, last) := by
  intro h
  obtain ⟨_, empty, reset, -⟩ := exec_bind_eq_ok.mp h
  cases looked : isReplaced later.files directory with
  | error failure => cases (exec_write_of_refused looked).symm.trans h
  | ok replaced =>
    cases replaced with
    | true => exact not_filled_of_replaced unmarked looked filled
    | false =>
      -- the directory would have to be made where it stands
      rw [exec_reset_of_free looked] at reset
      obtain ⟨around, grows, made⟩ := FileSystem.createDirectory_eq_ok (exec_change_eq_ok reset)
      obtain ⟨-, free, -⟩ := FileSystem.makeDirectory_eq_ok made
      obtain ⟨l, below, stands⟩ := filled
      obtain ⟨e, inside⟩ := Option.ne_none_iff_exists'.mp stands
      have here : later.files.entryAt (directory.namesFrom later.files.current) ≠ none := by
        rw [FileSystem.entryAt, FileTree.directory_of_entryAt_append inside below]
        exact Option.some_ne_none _
      rw [grows.current] at free
      exact grows.entryAt_ne_none here free

/-- Nothing but its own steps stops a write to a directory in which nothing stands. -/
theorem own_failure {failure : Failure}
    (unblocked : Unblocked directory later.files.current later.files)
    (empty : ¬ Filled (directory.namesFrom later.files.current) later.files)
    (h : exec (write directory retried again) later = (.error failure, last)) :
    failure.Interrupts ∨ failure = .defect .unforeseenSystemError := by
  cases looked : isReplaced later.files directory with
  | ok replaced => exact .inl (interrupts_of_write h looked)
  | error refusal =>
    cases (exec_write_of_refused looked).symm.trans h
    rcases isReplaced_eq_error looked with other | ⟨-, data, executable, file⟩ | ⟨-, filled, -⟩
    · exact .inr other
    · rcases unblocked.entry with free | made
      · cases free.symm.trans file
      · cases made.symm.trans file
    · exact absurd filled empty

theorem Filled.untouched {files' : FileSystem} (h : Filled root files)
    (untouched : Untouched root files files') : Filled root files' := by
  obtain ⟨l, below, stands⟩ := h
  exact ⟨l, below, by rwa [untouched l]⟩

theorem Untouched.symm {files' : FileSystem} (h : Untouched root files files') :
    Untouched root files' files := fun l => (h l).symm

theorem Untouched.unblocked {files' : FileSystem}
    (untouched : Untouched (directory.namesFrom current) files files')
    (here : files'.current = current) (h : Unblocked directory current files) :
    Unblocked directory current files' := by
  refine ⟨here, ?_⟩
  rw [untouched.at_root]
  exact h.entry

end Again

/-! ## A name that is too long -/

/-- A name that no file can have. -/
def endlessName : List Char := List.replicate 256 'x'

/-- A file with such a name in the given folder. -/
def endless (folder : String) : Code.SourceFile :=
  ⟨.ofList (folder.toList ++ endlessName), "export type X = string;\n"⟩

/-- A file that can be written. -/
def plainFile : Code.SourceFile := ⟨"model/a.ts", "export type A = string;\n"⟩

/-- No files, and a directory to work in. -/
def blank : RunState := ⟨⟨.directory [], []⟩, []⟩

/-- The first write, of the given files. -/
def firstWrite (generated : List Code.SourceFile) : Except Failure (List Path) × RunState :=
  exec (write (.ofText "out") generated "first") blank

/-- The names of the files, which are not computed from their long texts. -/
theorem names_endless :
    (endless "model/").names = ["model", .ofList endlessName] ∧
      (endless "").names = [.ofList endlessName] := by
  simp only [Code.SourceFile.names, endless, String.toList_ofList]
  decide +kernel

theorem separate_endless :
    Separate [plainFile] ∧ Separate [endless ""] ∧ Separate [plainFile, endless "model/"] := by
  obtain ⟨folder, bare⟩ := names_endless
  have plain : plainFile.names = ["model", "a.ts"] := by decide +kernel
  refine ⟨⟨?_, ?_, ?_, ?_⟩, ⟨?_, ?_, ?_, ?_⟩, ⟨?_, ?_, ?_, ?_⟩⟩
  all_goals
    simp only [List.forall_mem_cons, List.map_cons, List.map_nil, folder, bare, plain]
    decide +kernel

theorem stopped_of_isNone {generated : List Code.SourceFile}
    (h : (firstWrite generated).1.toOption.isNone = true) :
    Stopped (.ofText "out") generated "first" blank (firstWrite generated).2 := by
  refine ⟨⟨blank.files, .free (Except.eq_ok_of_toOption (by decide +kernel)) ?_⟩, ?_⟩
  · exact Option.isNone_iff_eq_none.mp (by decide +kernel)
  · cases failed : (firstWrite generated).1 with
    | ok paths =>
      rw [failed] at h
      cases h
    | error failure => exact ⟨failure, Prod.ext failed rfl⟩

/-- The second file of the tree cannot be written. -/
theorem stops_inside :
    (firstWrite [plainFile, endless "model/"]).1.toOption.isNone = true ∧
      (firstWrite [plainFile, endless "model/"]).2.progress.isEmpty = false ∧
      ((firstWrite [plainFile, endless "model/"]).2.files.locate
        (hashFile (.ofText "out"))).toOption.isSome = true := by
  simp only [firstWrite, write, writeFiles, Path.child]
  rw [show Path.names (endless "model/").path.toList = _ from names_endless.1]
  decide +kernel

/-- The only file of the tree cannot be written, and then another one can. -/
theorem stops_empty :
    (firstWrite [endless ""]).1.toOption.isNone = true ∧
      (exec (write (.ofText "out") [plainFile] "again")
        (firstWrite [endless ""]).2).1.toOption.isSome = true := by
  simp only [firstWrite, write, writeFiles, Path.child]
  rw [show Path.names (endless "").path.toList = _ from names_endless.2]
  decide +kernel

end OutputDirectory
end TypedApi
