import TypedApi.Proofs.Run.UpToDate

/-! # Runs that fail and are skipped when repeated

The hash file is written last, but before the output is formatted.  A run that fails before has left no
hash file behind, or has left the one of an earlier output in place; a run whose formatter fails has left
its own.  So a run that failed is skipped when it is repeated exactly if its output was written and the
formatter failed (`Session.skipped_of_failed`).
-/
namespace TypedApi

namespace OutputDirectory

variable {files files' : FileSystem} {directory : Path} {root current : Location}

/-- There is no hash file. -/
def Unmarked (root : Location) (files : FileSystem) : Prop :=
  ∀ data executable, files.entryAt (root ++ [hashFileName]) ≠ some (.file data executable)

theorem Unmarked.grows {way : Location → Prop} (h : Unmarked root files)
    (grows : files.Grows way files') : Unmarked root files' := by
  intro data executable file
  rcases grows.entries (root ++ [hashFileName]) with same | ⟨-, -, made⟩
  · exact h data executable (same.symm.trans file)
  · cases made.symm.trans file

theorem unmarked_of_entryAt_eq_none (h : files.entryAt root = none) : Unmarked root files := by
  intro data executable file
  cases (FileTree.entryAt_eq_none_of_prefix h (List.prefix_append _ _)).symm.trans file

/-- Whoever reads a hash reads a hash file. -/
theorem not_unmarked_of_storedHash {hash : String}
    (h : storedHash files directory = .ok (some hash)) :
    ¬ Unmarked (directory.namesFrom files.current) files := by
  obtain ⟨data, executable, -, file, -⟩ := entryAt_of_storedHash h
  exact fun unmarked => unmarked data executable file

/-! ## Runs that stop before the hash file -/

/-- The working directory is the given one, and there is no hash file. -/
structure Bare (directory : Path) (current : Location) (files : FileSystem) : Prop where
  here : files.current = current
  unmarked : Unmarked (directory.namesFrom current) files

theorem Bare.grows {way : Location → Prop} (h : Bare directory current files)
    (grows : files.Grows way files') : Bare directory current files' :=
  ⟨grows.current.trans h.here, h.unmarked.grows grows⟩

theorem Bare.createFile {below : String} (h : Bare directory current files)
    (plain : Path.up ∉ Path.names below.toList) (named : Path.names below.toList ≠ [])
    (other : Path.names below.toList ≠ [hashFileName]) (data : ByteArray) :
    Bare directory current (files.createFile (directory.child below) data).1 := by
  refine ⟨(files.createFile_current _ _).trans h.here, fun data' executable file => ?_⟩
  have apart : ¬ (directory.child below).namesFrom files.current <+:
      directory.namesFrom current ++ [hashFileName] := by
    rw [Path.namesFrom_child, Path.lead_of_plain plain, h.here, List.prefix_append_right_inj]
    intro through
    rcases List.prefix_cons_iff.mp through with none | ⟨rest, same, short⟩
    · exact named none
    · exact other (by rw [same, List.prefix_nil.mp short])
  rcases FileSystem.createFile_elsewhere data apart with same | ⟨-, made⟩
  · exact h.unmarked data' executable (same.symm.trans file)
  · cases made.symm.trans file

/-- What every file keeps is kept while files are written, whether this fails or not. -/
theorem writeFiles_keeps {P : FileSystem → Prop} {generated : List Code.SourceFile}
    (each : ∀ file ∈ generated, ∀ fs, P fs →
      P (fs.createFile (directory.child file.path) file.content.toUTF8).1) :
    Run.Keeps P (writeFiles directory generated) := by
  induction generated with
  | nil => exact Run.keeps_pure _
  | cons file rest ih =>
    obtain ⟨own, later⟩ := List.forall_mem_cons.mp each
    refine (Run.keeps_change own).bind fun _ => (Run.keeps_report _).bind fun _ => ?_
    exact (ih later).bind fun _ => Run.keeps_pure _

/-- Writing generated files makes no hash file. -/
theorem writeFiles_keeps_bare {generated : List Code.SourceFile} (separate : Separate generated) :
    Run.Keeps (Bare directory current) (writeFiles directory generated) :=
  writeFiles_keeps fun file hf _ bare => bare.createFile (separate.below file hf)
    (separate.named file hf) (separate.unhashed file hf) _

/-- If there is a hash file, the path leads to it. -/
def Found (directory : Path) (files : FileSystem) : Prop :=
  Unmarked (directory.namesFrom files.current) files ∨
    files.locate directory = .ok (directory.namesFrom files.current)

theorem unmarked_of_free (found : Found directory files)
    (free : isReplaced files directory = .ok false) :
    Unmarked (directory.namesFrom files.current) files := by
  refine found.elim id fun located => ?_
  cases stands : files.at? (directory.namesFrom files.current) with
  | none => exact unmarked_of_entryAt_eq_none (FileSystem.at?_eq_none.mp stands)
  | some t =>
    have own : files.find directory = .ok t := by
      refine Except.bind_eq_ok.mpr ⟨_, located, ?_⟩
      rw [stands]
      rfl
    obtain ⟨looked, hl, h⟩ := Except.bind_eq_ok.mp free
    simp only [look, FileSystem.find?, own] at hl
    cases hl
    cases t with
    | file data executable => cases h
    | directory entries =>
      obtain ⟨generated, -, h⟩ := Except.bind_eq_ok.mp h
      split at h <;> cases h

theorem find_of_replaced (replaced : isReplaced files directory = .ok true) :
    ∃ entries, files.find directory = .ok (.directory entries) := by
  obtain ⟨looked, hl, h⟩ := Except.bind_eq_ok.mp replaced
  unfold look at hl
  split at hl
  · next found stands =>
    cases hl
    split at h
    · cases h
    · cases h
    · exact ⟨_, FileSystem.find?_eq_some stands⟩
  · cases hl

/-- A directory that is removed has no hash file any more, also if only its entries are gone. -/
theorem removeTree_bare {entries : List (String × FileTree)}
    (found : files.find directory = .ok (.directory entries)) :
    Bare directory files.current (files.removeTree directory).1 := by
  obtain ⟨located, stands⟩ := FileSystem.find_eq_ok found
  refine ⟨(files.removeTree_spares directory fun _ => False).current, ?_⟩
  have inside : files.tree.Holds (directory.namesFrom files.current) :=
    FileTree.holds_of_entryAt (show files.entryAt _ = some .directory by
      rw [FileSystem.entryAt_eq, stands]
      rfl)
  intro data executable file
  cases (FileSystem.entryAt_removeTree located inside (List.cons_ne_nil _ _)).symm.trans file

/-- A directory that is reset has no hash file, whether this fails or not. -/
theorem reset_bare {s : RunState} {replaced : Bool} (found : Found directory s.files)
    (allowed : isReplaced s.files directory = .ok replaced) :
    Bare directory s.files.current (Run.exec (reset directory) s).2.files := by
  have create : Run.Keeps (Bare directory s.files.current)
      (Run.change (fun fs => fs.createDirectory directory false) (.notCreated directory.text)) :=
    Run.keeps_change fun files bare => bare.grows (files.createDirectory_grows directory false)
  cases replaced with
  | false =>
    rw [exec_reset_of_free allowed]
    exact create s ⟨rfl, unmarked_of_free found allowed⟩
  | true =>
    obtain ⟨entries, own⟩ := find_of_replaced allowed
    have bare := removeTree_bare own
    rw [exec_reset_of_replaced allowed, Run.exec_bind, Run.exec_change]
    cases removed : s.files.removeTree directory with
    | mk left outcome =>
      rw [removed] at bare
      cases outcome with
      | error e => exact bare
      | ok _ => exact create ⟨left, s.progress⟩ bare

/-- **A run that stops before its hash file is complete leaves none.** -/
theorem write_bare {generated : List Code.SourceFile} {hash : String} {s s' : RunState}
    {replaced : Bool} {failure : Failure} (found : Found directory s.files)
    (allowed : isReplaced s.files directory = .ok replaced) (separate : Separate generated)
    (h : Run.exec (write directory generated hash) s = (.error failure, s')) :
    Bare directory s.files.current s'.files := by
  have cleared := reset_bare found allowed
  rcases Run.exec_bind_eq_error.mp h with stopped | ⟨_, empty, done, h⟩
  · rwa [stopped] at cleared
  rw [done] at cleared
  have filled := writeFiles_keeps_bare separate empty cleared
  rcases Run.exec_bind_eq_error.mp h with stopped | ⟨_, full, done, h⟩
  · rwa [stopped] at filled
  rw [done] at filled
  rcases Run.exec_bind_eq_error.mp h with stopped | ⟨_, _, -, h⟩
  · obtain ⟨e, created, -⟩ := Run.exec_change_eq_error stopped
    obtain ⟨around, grows, made⟩ :=
      full.files.createFile_cases (hashFile directory) (hash ++ "\n").toUTF8
    rcases made with ⟨_, failed⟩ | ⟨_, -, written⟩
    · cases failed.symm.trans created
      exact filled.grows grows
    · cases written.symm.trans created
  · cases h

end OutputDirectory

/-! ## The way to the hash file -/

namespace Path

theorem upTo_child {p : Path} {n : Nat} (below : String) (short : n ≤ p.parts.length) :
    (p.child below).upTo n = p.upTo n := by
  rw [upTo, child, List.take_append_of_le_length short]
  rfl

end Path

namespace OutputDirectory

/-- The hash file of a directory and the way to the directory are as before. -/
structure KeepsMark (directory : Path) (files files' : FileSystem) : Prop where
  current : files'.current = files.current
  way : ∀ n < directory.parts.length,
    files'.entryAt ((directory.upTo n).namesFrom files.current) =
      files.entryAt ((directory.upTo n).namesFrom files.current)
  mark : files'.entryAt (directory.namesFrom files.current ++ [hashFileName]) =
    files.entryAt (directory.namesFrom files.current ++ [hashFileName])

variable {files files' : FileSystem} {directory : Path}

theorem KeepsMark.unmarked (h : KeepsMark directory files files')
    (unmarked : Unmarked (directory.namesFrom files.current) files) :
    Unmarked (directory.namesFrom files'.current) files' := by
  intro data executable file
  rw [h.current, h.mark] at file
  exact unmarked data executable file

/-- The hash file is found as before. -/
theorem KeepsMark.find (h : KeepsMark directory files files') {data : ByteArray} {executable : Bool}
    (found : files.find (hashFile directory) = .ok (.file data executable)) :
    files'.find (hashFile directory) = .ok (.file data executable) := by
  obtain ⟨located, stands⟩ := FileSystem.find_eq_ok found
  rw [namesFrom_hashFile] at located stands
  have file : files.entryAt (directory.namesFrom files.current ++ [hashFileName]) =
      some (.file data executable) := by
    rw [FileSystem.entryAt_eq, stands]
    rfl
  have file' := h.mark.trans file
  refine FileSystem.find_of_file ?_ file'
  rw [← located]
  refine FileSystem.locate_congr h.current fun n hn => ?_
  have short : n ≤ directory.parts.length := by
    have length : (hashFile directory).parts.length = directory.parts.length + 1 := by
      rw [hashFile, Path.child, names_hashFileName, List.length_append, List.length_singleton]
    omega
  rw [hashFile, Path.upTo_child _ short]
  rcases Nat.lt_or_eq_of_le short with before | rfl
  · exact h.way n before
  · -- The directory itself is one before and after, because the hash file is in it.
    rw [Path.upTo_length]
    have inside : [hashFileName] ≠ [] := List.cons_ne_nil _ _
    exact (FileTree.directory_of_entryAt_append file' inside).trans
      (FileTree.directory_of_entryAt_append file inside).symm

end OutputDirectory

/-! ## Formatting -/

/-- A program that changes nothing outside the directory in which it is run, and leaves the hash file
there as it is. -/
structure Program.Formats (program : Program) : Prop where
  confined : program.Confined
  marks : ∀ arguments directory (files : FileSystem),
    (program arguments directory files).1.entryAt (directory ++ [OutputDirectory.hashFileName]) =
      files.entryAt (directory ++ [OutputDirectory.hashFileName])

theorem Program.formats_absent : Program.absent.Formats :=
  ⟨Program.confined_absent, fun _ _ _ => rfl⟩

namespace Run

variable {formatter : Program} {directory : Path} {s s' : RunState}

theorem isFromFormatter_of_format {failure : Failure}
    (h : exec (Formatter.format formatter directory) s = (.error failure, s')) :
    failure.isFromFormatter = true := by
  rw [exec_format] at h
  split at h
  · cases h
    rfl
  · next l located =>
    cases ran : formatter Formatter.arguments l s.files with
    | mk files outcome =>
      rw [ran] at h
      cases outcome with
      | error kind =>
        cases h
        rfl
      | ok report =>
        simp only at h
        split at h
        · cases h
        · cases h
          rfl

/-- Formatting leaves the hash file and the way to it as they are. -/
theorem format_keepsMark {result : Except Failure Unit}
    (h : exec (Formatter.format formatter directory) s = (result, s'))
    (formats : formatter.Formats) (straight : directory.Straight s.files.current) :
    OutputDirectory.KeepsMark directory s.files s'.files := by
  rw [exec_format] at h
  cases located : s.files.locate directory with
  | error kind =>
    rw [located] at h
    cases h
    exact ⟨rfl, fun _ _ => rfl, rfl⟩
  | ok l =>
    obtain ⟨rfl, -⟩ := FileSystem.locate_eq_ok located
    rw [located] at h
    simp only at h
    have left : s'.files =
        (formatter Formatter.arguments (directory.namesFrom s.files.current) s.files).1 := by
      cases ran : formatter Formatter.arguments (directory.namesFrom s.files.current) s.files with
      | mk files outcome =>
        rw [ran] at h
        cases h
        rfl
    have spared := formats.confined Formatter.arguments
      (directory.namesFrom s.files.current) s.files
    have mark := formats.marks Formatter.arguments (directory.namesFrom s.files.current) s.files
    rw [← left] at spared mark
    exact ⟨spared.current,
      fun n hn => (spared.entries _ (straight n hn)).resolve_right fun h => h.1, mark⟩

end Run

/-! ## Calls -/

namespace Call

/-- A call with the given output, and with a program that formats if it asks for one. -/
structure Writes (output : Path) (c : Call) : Prop where
  output : c.request.output = output
  formats : c.request.format = true → c.formatter.Formats

/-- The output of a call was written, and then the formatter failed. -/
def Unformatted (c : Call) : Prop :=
  (∃ planned, c.request.plan c.files = .ok (some planned)) ∧
    ∃ failure, c.result = .error failure ∧ failure.isFromFormatter = true

end Call

namespace OutputDirectory

variable {output : Path} {calls : List Call} {files files' : FileSystem} {c : Call}

/-- The hash file has the hash of what one of the calls read, from which an output is generated. -/
def Hashed (output : Path) (calls : List Call) (files : FileSystem) : Prop :=
  ∃ c ∈ calls, ∃ source tree, c.source = .ok source ∧ Generates source tree ∧
    files.find (hashFile output) = .ok (.file (Request.hash source ++ "\n").toUTF8 false)

/-- There is no hash file, or it has the hash of what one of the calls read. -/
def Honest (output : Path) (calls : List Call) (files : FileSystem) : Prop :=
  Unmarked (output.namesFrom files.current) files ∨ Hashed output calls files

theorem Hashed.mono {more : List Call} (h : Hashed output calls files)
    (sub : ∀ c ∈ calls, c ∈ more) : Hashed output more files := by
  obtain ⟨c, hc, rest⟩ := h
  exact ⟨c, sub c hc, rest⟩

theorem Honest.found (h : Honest output calls files) : Found output files := by
  refine h.imp_right fun ⟨c, hc, source, tree, hs, generated, found⟩ => ?_
  exact FileSystem.locate_of_child (FileSystem.find_eq_ok found).1

theorem Hashed.keepsMark (h : Hashed output calls files) (same : KeepsMark output files files') :
    Hashed output calls files' := by
  obtain ⟨c, hc, source, tree, hs, generated, found⟩ := h
  exact ⟨c, hc, source, tree, hs, generated, same.find found⟩

theorem Honest.keepsMark (h : Honest output calls files) (same : KeepsMark output files files') :
    Honest output calls files' :=
  h.imp (fun unmarked => same.unmarked unmarked) fun hashed => hashed.keepsMark same

end OutputDirectory

namespace Call

open OutputDirectory

variable {c : Call} {output : Path} {calls : List Call} {tree : OutputTree} {hash : String}

/-- A call that writes its output leaves its own hash, whether the output is formatted then or not. -/
theorem hashed_of_write {progress : List Progress} {paths : List Path} {written : RunState}
    (plan : c.request.plan c.files = .ok (some (tree, hash)))
    (write : Run.exec (OutputDirectory.write c.request.output tree.files hash)
      ⟨c.files, progress⟩ = (.ok paths, written)) :
    Hashed c.request.output [c] written.files ∧
      c.request.output.Straight written.files.current := by
  obtain ⟨source, hs, generated, rfl⟩ := generates_of_plan plan
  obtain ⟨current, straight, -, found⟩ := write_eq_ok generated.separate write
  rw [← current] at straight
  exact ⟨⟨c, List.mem_cons_self, source, tree, hs, generated, found⟩, straight⟩

theorem bare_of_broken {progress : List Progress} {failure : Failure} {stopped : RunState}
    (found : Found c.request.output c.files)
    (plan : c.request.plan c.files = .ok (some (tree, hash)))
    (write : Run.exec (OutputDirectory.write c.request.output tree.files hash)
      ⟨c.files, progress⟩ = (.error failure, stopped)) :
    Unmarked (c.request.output.namesFrom stopped.files.current) stopped.files := by
  obtain ⟨-, replaced, allowed⟩ := isReplaced_of_plan plan
  obtain ⟨source, -, generated, -⟩ := generates_of_plan plan
  have bare := write_bare found allowed generated.separate write
  rw [bare.here]
  exact bare.unmarked

/-- **The hash file stays honest** from call to call. -/
theorem Writes.honest (h : c.Writes output) (honest : Honest output calls c.files) :
    Honest output (c :: calls) c.left := by
  have own : ∀ d ∈ [c], d ∈ c :: calls := fun d hd =>
    List.mem_cons.mpr (.inl (List.mem_singleton.mp hd))
  have before (same : c.left = c.files) : Honest output (c :: calls) c.left := by
    rw [same]
    exact honest.imp_right fun hashed => hashed.mono fun d hd => List.mem_cons_of_mem c hd
  obtain rfl := h.output
  cases c.course with
  | refused plan result left => exact before left
  | skipped plan result left => exact before left
  | broken plan write result left =>
    rw [left]
    exact .inl (bare_of_broken honest.found plan write)
  | written plan write unformatted wrote left =>
    rw [left]
    exact .inr ((hashed_of_write plan write).1.mono own)
  | formatted plan write asked format failed skipped left =>
    obtain ⟨hashed, straight⟩ := hashed_of_write plan write
    have kept := Run.format_keepsMark format (h.formats asked) straight
    rw [left]
    exact .inr ((hashed.keepsMark kept).mono own)

/-- A call whose formatter failed is skipped when it is repeated: its hash is stored. -/
theorem Unformatted.again_skipped (h : c.Unformatted)
    (formats : c.request.format = true → c.formatter.Formats)
    (same : c.again.source = c.source) : c.again.skipped = true := by
  obtain ⟨⟨planned, plan⟩, failure, failed, formatter⟩ := h
  cases c.course with
  | refused refused => cases plan.symm.trans refused
  | skipped skipped => cases plan.symm.trans skipped
  | broken plan write result =>
    obtain ⟨_, result', interrupts⟩ := interrupted_of_write plan write result
    cases failed.symm.trans result'
    cases formatter.symm.trans interrupts.isFromFormatter
  | written plan write unformatted wrote =>
    rw [Call.wrote, failed] at wrote
    cases wrote
  | formatted plan write asked format failures skipped left =>
    obtain ⟨hashed, straight⟩ := hashed_of_write plan write
    have kept := Run.format_keepsMark format (formats asked) straight
    obtain ⟨d, hd, source, tree, hs, -, found⟩ := hashed.keepsMark kept
    obtain rfl := List.mem_singleton.mp hd
    rw [← left] at found
    obtain ⟨visible, -⟩ := isReplaced_of_plan plan
    exact @skipped_of_stored d.again _ rfl visible (same.trans hs) (storedHash_of_find found)

end Call

namespace Session

open OutputDirectory

variable {output : Path} {start files : FileSystem} {calls : List Call} {c : Call}

theorem honest (absent : start.entryAt (output.namesFrom start.current) = none)
    (session : Session (Call.Writes output) (KeepsMark output) start calls files) :
    Honest output calls files := by
  induction session with
  | start => exact .inl (unmarked_of_entryAt_eq_none absent)
  | edited before edit ih => exact ih.keepsMark edit
  | called before admitted ih => exact admitted.honest ih

/-- What a call reads that finds its own hash is what an output was generated from. -/
theorem generates_of_stored (honest : Honest output calls c.files) (writes : c.Writes output)
    {source : String × String} (apart : ∀ earlier ∈ calls, earlier.Apart c)
    (hs : c.source = .ok source)
    (stored : storedHash c.files c.request.output = .ok (some (Request.hash source))) :
    ∃ tree, Generates source tree := by
  rw [writes.output] at stored
  obtain ⟨earlier, he, source', tree, hs', generated, found⟩ :=
    honest.resolve_left (not_unmarked_of_storedHash stored)
  have same : Request.hash source' = Request.hash source := by
    have read := (storedHash_of_find found).symm.trans stored
    exact Option.some.inj (Except.ok.inj read)
  have equal := ContentHash.source_eq (apart earlier he _ _ hs' hs) generated.plain
    generated.plainText same
  exact ⟨tree, equal ▸ generated⟩

/-- A call that is refused is not skipped when it is repeated. -/
theorem not_skipped_of_refused (honest : Honest output calls c.files) (writes : c.Writes output)
    {mode : String} (named : c.request.mode = .text mode)
    (apart : ∀ earlier ∈ calls, earlier.Apart c) {failure : Failure}
    (refused : c.request.plan c.files = .error failure) (left : c.left = c.files) :
    c.again.skipped ≠ true := by
  intro skipped
  obtain ⟨-, source, read, visible, found⟩ := Call.stored_of_skipped skipped
  have hs : c.request.source c.left = .ok source := read
  have stored : storedHash c.left c.request.output = .ok (some (Request.hash source)) := found
  have visible : c.request.output.hasNul = false := visible
  rw [left] at hs stored
  cases force : c.request.force with
  | false =>
    have plan := Request.plan_eq_none.mpr
      ⟨source, hs, Request.isCurrent_eq_true.mpr ⟨force, visible, stored⟩⟩
    cases refused.symm.trans plan
  | true =>
    -- The hash vouches for an output that was generated from the same source.
    obtain ⟨tree, generated⟩ := generates_of_stored honest writes apart hs stored
    cases refused.symm.trans (Call.plan_of_forced force visible named hs generated stored)

/-- A call that asks for a formatter that is not there. -/
def formatting : Call :=
  { generating with request := { generating.request with format := true } }

theorem unformatted_formatting : formatting.Unformatted := by
  constructor
  · have planned : (formatting.request.plan formatting.files).toOption.join.isSome = true := by
      decide +kernel
    obtain ⟨planned, found⟩ := Option.isSome_iff_exists.mp planned
    exact ⟨planned, Except.eq_ok_of_toOption (Option.join_eq_some_iff.mp found)⟩
  · have stopped : formatting.failure?.any Failure.isFromFormatter = true := by decide +kernel
    obtain ⟨failure, found, formatter⟩ := (Option.any_eq_true _ _).mp stopped
    exact ⟨failure, Call.failure?_eq_some.mp found, formatter⟩

theorem source_formatting : formatting.again.source = formatting.source := by
  have read : formatting.again.source = .ok (Mode.api.name, emptyDocument) :=
    Except.eq_ok_of_toOption (by decide +kernel)
  exact read.trans source_generating.symm

end Session

end TypedApi
