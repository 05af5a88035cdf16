import TypedApi.Proofs.Generation.Places
import TypedApi.Proofs.Run.Plan

/-! # What a run leaves alone

A run changes nothing outside its output directory, except that it makes the directories on the way
there; the names of generated files do not lead out of it again.  What is not a generated output is
not replaced, and a document that cannot be read or generated from stops the run before it changes
anything (`Run.perform_spares`).
-/
namespace TypedApi

/-- A program that changes nothing outside the directory in which it is run. -/
def Program.Confined (program : Program) : Prop :=
  ∀ arguments directory (files : FileSystem),
    files.Spares directory (fun _ => False) (program arguments directory files).1

theorem Program.confined_absent : Program.absent.Confined := fun _ _ _ => .refl _ _ _

namespace Run

variable {α β : Type} {current root : Location} {way : Location → Prop}

/-! ## Steps inside a directory -/

/-- Whatever the outcome of a run, it spares what is outside `root`. -/
def Within (current root : Location) (way : Location → Prop) (x : Run α) : Prop :=
  ∀ s : RunState, s.files.current = current → s.files.Spares root way (exec x s).2.files

theorem within_of_reads {x : Run α} (h : ∀ s, (exec x s).2.files = s.files) :
    Within current root way x := by
  intro s _
  rw [h s]
  exact .refl _ _ _

theorem Within.bind {x : Run α} {f : α → Run β} (hx : Within current root way x)
    (hf : ∀ a, Within current root way (f a)) : Within current root way (x >>= f) := by
  intro s here
  have first := hx s here
  rw [exec_bind]
  cases h : exec x s with
  | mk result between =>
    rw [h] at first
    cases result with
    | error failure => exact first
    | ok a => exact first.trans (hf a between (first.current.trans here))

theorem within_change {step : FileSystem → FileSystem.Change} {fault : SystemError → OutputFault}
    (h : ∀ fs : FileSystem, fs.current = current → fs.Spares root way (step fs).1) :
    Within current root way (change step fault) := by
  intro s here
  rw [exec_change]
  exact h s.files here

theorem within_report (p : Progress) : Within current root way (report p) :=
  within_of_reads fun s => by rw [exec_report]

theorem within_pure (a : α) : Within current root way (pure a : Run α) :=
  within_of_reads fun s => by rw [exec_pure]

/-! ## Writing -/

section Writing
variable (directory : Path) (current : Location)

/-- Everything outside a directory is spared, but the way to it is made. -/
def Inside (x : Run α) : Prop :=
  Within current (directory.namesFrom current) (directory.ComesBy current) x

theorem reset_inside : Inside directory current (OutputDirectory.reset directory) := by
  intro s here
  have remove : Inside directory current
      (change (fun fs => fs.removeTree directory) (.notCleared directory.text)) :=
    within_change fun fs at_ => by
      subst at_
      exact fs.removeTree_spares directory _
  have create : Inside directory current
      (change (fun fs => fs.createDirectory directory false) (.notCreated directory.text)) :=
    within_change fun fs at_ => by
      subst at_
      exact (fs.createDirectory_grows directory false).spares fun _ on _ => on
  rw [exec_reset]
  cases OutputDirectory.isReplaced s.files directory with
  | error failure => exact .refl _ _ _
  | ok replaced =>
    cases replaced with
    | false => exact create s here
    | true => exact (remove.bind fun _ => create) s here

variable {directory current}

/-- What is below the end of a path is inside. -/
theorem prefix_namesFrom_child {below : String} (plain : Path.up ∉ Path.names below.toList) :
    directory.namesFrom current <+: (directory.child below).namesFrom current := by
  rw [Path.namesFrom_child, Path.lead_of_plain plain]
  exact List.prefix_append _ _

theorem createFile_spares {fs : FileSystem} {below : String} (data : ByteArray)
    (plain : Path.up ∉ Path.names below.toList) :
    fs.Spares (directory.namesFrom fs.current) (directory.ComesBy fs.current)
      (fs.createFile (directory.child below) data).1 := by
  obtain ⟨around, grows, made⟩ := fs.createFile_cases (directory.child below) data
  have first : fs.Spares (directory.namesFrom fs.current) (directory.ComesBy fs.current) around :=
    grows.spares fun l on outside => by
      rcases Path.comesBy_of_child plain on with on | ⟨n, rfl⟩
      · exact on
      · exact absurd (List.prefix_append _ _) outside
  rcases made with ⟨e, failed⟩ | ⟨written, done, created⟩
  · rw [failed]
    exact first
  · rw [created]
    obtain ⟨-, executable, rfl, -⟩ := FileSystem.writeData_eq_ok done
    refine first.trans (around.put_spares _ ?_ _)
    rw [grows.current]
    exact prefix_namesFrom_child plain

theorem writeFile_inside {below : String} (plain : Path.up ∉ Path.names below.toList)
    (content : String) :
    Inside directory current (OutputDirectory.writeFile (directory.child below) content) :=
  within_change fun fs at_ => by
    subst at_
    exact createFile_spares _ plain

theorem writeFiles_inside {files : List Code.SourceFile}
    (plain : ∀ file ∈ files, Path.up ∉ file.names) :
    Inside directory current (OutputDirectory.writeFiles directory files) := by
  induction files with
  | nil => exact within_pure _
  | cons file rest ih =>
    obtain ⟨own, later⟩ := List.forall_mem_cons.mp plain
    refine (writeFile_inside own file.content).bind fun _ => ?_
    refine (within_report _).bind fun _ => ?_
    exact (ih later).bind fun _ => within_pure _

theorem up_notMem_hashFile : Path.up ∉ Path.names OutputDirectory.hashFileName.toList := by
  decide

theorem write_inside {files : List Code.SourceFile} (hash : String)
    (plain : ∀ file ∈ files, Path.up ∉ file.names) :
    Inside directory current (OutputDirectory.write directory files hash) := by
  refine (reset_inside directory current).bind fun _ => ?_
  refine (writeFiles_inside plain).bind fun _ => ?_
  exact (writeFile_inside up_notMem_hashFile _).bind fun _ => within_pure _

/-- The formatter is run where the path leads. -/
theorem exec_format (program : Program) (directory : Path) (s : RunState) :
    exec (Formatter.format program directory) s =
      match s.files.locate directory with
      | .error kind =>
        (.error (.output (.formatterNotRun directory.text ⟨kind, directory.text⟩)), s)
      | .ok l =>
        let (files, outcome) := program Formatter.arguments l s.files
        (match outcome with
          | .error kind => .error (.output (.formatterNotRun directory.text ⟨kind, Formatter.name⟩))
          | .ok report =>
            if report.status == 0 then .ok ()
            else .error (.output (.formatterFailed directory.text (Formatter.failureText report))),
          { s with files := files }) := by
  unfold Formatter.format
  rw [exec_bind_of_ok (exec_get s)]
  cases s.files.locate directory with
  | error kind => rfl
  | ok l =>
    simp only
    cases program Formatter.arguments l s.files with
    | mk files outcome =>
      cases outcome with
      | error kind => rfl
      | ok report =>
        simp only
        cases report.status == 0 <;> rfl

theorem format_inside {formatter : Program} (confined : formatter.Confined) :
    Inside directory current (Formatter.format formatter directory) := by
  intro s here
  rw [exec_format]
  cases located : s.files.locate directory with
  | error kind => exact .refl _ _ _
  | ok l =>
    obtain ⟨rfl, -⟩ := FileSystem.locate_eq_ok located
    rw [here]
    obtain ⟨same, spared⟩ := confined Formatter.arguments (directory.namesFrom current) s.files
    exact ⟨same, fun l outside => .inl ((spared l outside).resolve_right fun h => h.1)⟩

theorem finish_inside {formatter : Program} {r : Request}
    (confined : r.format = true → formatter.Confined) {tree : OutputTree} (hash : String)
    (plain : ∀ file ∈ tree.files, Path.up ∉ file.names) :
    Inside r.output current (finish formatter r tree hash) := by
  refine (write_inside hash plain).bind fun _ => (within_report _).bind fun _ => ?_
  split
  · next asked => exact (format_inside (confined asked)).bind fun _ => within_pure _
  · exact within_pure _

end Writing

end Run

/-! ## What is refused -/

namespace OutputDirectory

variable {files : FileSystem} {directory : Path}

/-- The path leads to a file, or to a directory that is neither empty nor a generated output. -/
inductive Occupied (files : FileSystem) (directory : Path) : Prop where
  | file {data : ByteArray} {executable : Bool} :
      files.find? directory = .ok (some (.file data executable)) → Occupied files directory
  | foreign {entries : List (String × FileTree)} :
      files.find? directory = .ok (some (.directory entries)) → entries ≠ [] →
      (∀ data executable,
        files.find? (hashFile directory) ≠ .ok (some (.file data executable))) →
      Occupied files directory

theorem names_hashFileName : Path.names hashFileName.toList = [hashFileName] := by decide

theorem namesFrom_hashFile (directory : Path) (current : Location) :
    (hashFile directory).namesFrom current = directory.namesFrom current ++ [hashFileName] := by
  rw [hashFile, Path.namesFrom_child, names_hashFileName, Path.lead_of_plain (by decide)]

/-- A hash that is read is the text of a file. -/
theorem storedHash_eq_some {hash : String} (h : storedHash files directory = .ok (some hash)) :
    ∃ data executable text, files.find (hashFile directory) = .ok (.file data executable) ∧
      String.fromUTF8? data = some text ∧ Text.trimmed? (Text.withLineFeeds text) = some hash := by
  unfold storedHash FileSystem.readText FileSystem.readData at h
  cases found : files.find (hashFile directory) with
  | error e =>
    rw [found] at h
    simp only at h
    split at h <;> cases h
  | ok t =>
    rw [found] at h
    cases t with
    | directory entries => cases h
    | file data executable =>
      simp only at h
      cases decoded : String.fromUTF8? data with
      | none =>
        rw [decoded] at h
        cases h
      | some text =>
        rw [decoded] at h
        exact ⟨data, executable, text, rfl, decoded, Except.ok.inj h⟩

/-- Nothing is looked up in a file. -/
theorem find_hashFile_of_file {data : ByteArray} {executable : Bool}
    (h : files.find? directory = .ok (some (.file data executable))) (t : FileTree) :
    files.find (hashFile directory) ≠ .ok t := by
  intro found
  obtain ⟨-, own⟩ := FileSystem.find_eq_ok (FileSystem.find?_eq_some h)
  obtain ⟨-, inside⟩ := FileSystem.find_eq_ok found
  rw [namesFrom_hashFile] at inside
  have below : files.entryAt (directory.namesFrom files.current ++ [hashFileName]) =
      some t.entry := by
    rw [FileSystem.entryAt_eq, inside]
    rfl
  have around := FileTree.directory_of_entryAt_append below (List.cons_ne_nil _ _)
  have here : files.entryAt (directory.namesFrom files.current) = some (.file data executable) := by
    rw [FileSystem.entryAt_eq, own]
    rfl
  cases around.symm.trans here

theorem Occupied.storedHash (h : Occupied files directory) (hash : String) :
    storedHash files directory ≠ .ok (some hash) := by
  intro stored
  obtain ⟨data, executable, text, found, -⟩ := storedHash_eq_some stored
  cases h with
  | file own => exact find_hashFile_of_file own _ found
  | foreign own nonempty unmarked =>
    refine unmarked data executable ?_
    rw [FileSystem.find?, found]

theorem Occupied.isReplaced (h : Occupied files directory) :
    ∃ failure, isReplaced files directory = .error failure := by
  cases h with
  | file own =>
    refine ⟨.output (.notADirectory directory.text), ?_⟩
    simp only [OutputDirectory.isReplaced, look, own]
    rfl
  | @foreign entries own nonempty unmarked =>
    simp only [OutputDirectory.isReplaced, look, own, Except.ok_bind]
    cases marked : isGenerated files directory with
    | error failure => exact ⟨failure, rfl⟩
    | ok generated =>
      cases generated with
      | true =>
        obtain ⟨found, looked, marked⟩ := Except.bind_eq_ok.mp marked
        split at marked
        · rename_i data executable
          unfold look at looked
          split at looked
          · next t marker =>
            cases looked
            exact absurd marker (unmarked data executable)
          · cases looked
        · cases marked
      | false =>
        refine ⟨.output (.foreignDirectory directory.text), ?_⟩
        have filled : entries.isEmpty = false := by simpa using nonempty
        simp only [Except.ok_bind, filled]
        rfl

end OutputDirectory

namespace Run

variable {formatter : Program} {r : Request} {s : RunState}

/-- The document cannot be read, is refused, or nothing can be generated from it. -/
inductive FailsEarly (files : FileSystem) (r : Request) : Prop where
  | unread {failure : Failure} :
      documentText files r.input = .error failure → FailsEarly files r
  | unparsed {text : String} {failure : Failure} :
      documentText files r.input = .ok text →
      Source.document ⟨r.input.text, text⟩ = .error failure → FailsEarly files r
  | ungenerated {text : String} {document : Members} {failure : Failure} :
      documentText files r.input = .ok text →
      Source.document ⟨r.input.text, text⟩ = .ok document →
      (Generation.generate r.mode (.map document)).result = .error failure → FailsEarly files r

theorem source_eq_ok {files : FileSystem} {source : String × String}
    (h : r.source files = .ok source) :
    r.input.hasNul = false ∧ documentText files r.input = .ok source.2 ∧
      modeName r.mode = .ok source.1 := by
  unfold Request.source at h
  split at h
  · cases h
  · next visible =>
    obtain ⟨text, ht, h⟩ := Except.bind_eq_ok.mp h
    obtain ⟨mode, hm, h⟩ := Except.bind_eq_ok.mp h
    cases h
    exact ⟨by simpa using visible, ht, hm⟩

theorem tree_eq_ok {text : String} {tree : OutputTree} (h : r.tree text = .ok tree) :
    ∃ document, Source.document ⟨r.input.text, text⟩ = .ok document ∧
      (Generation.generate r.mode (.map document)).result = .ok tree :=
  Except.bind_eq_ok.mp h

theorem FailsEarly.plan {files : FileSystem} (h : FailsEarly files r) :
    ∀ planned, r.plan files ≠ .ok (some planned) := by
  rintro ⟨tree, hash⟩ planned
  obtain ⟨source, hs, -, ht, -, -⟩ := Request.plan_eq_some.mp planned
  obtain ⟨-, read, -⟩ := source_eq_ok hs
  obtain ⟨document, parsed, generated⟩ := tree_eq_ok ht
  cases h with
  | unread failed => cases read.symm.trans failed
  | unparsed read' failed =>
    cases read.symm.trans read'
    cases parsed.symm.trans failed
  | ungenerated read' parsed' failed =>
    cases read.symm.trans read'
    cases parsed.symm.trans parsed'
    cases generated.symm.trans failed

/-- Unless a tree is going to be written, no file is changed. -/
theorem files_of_unplanned (h : ∀ planned, r.plan s.files ≠ .ok (some planned)) :
    (exec (perform formatter r) s).2.files = s.files := by
  obtain ⟨progress, done⟩ := exec_perform_plan formatter r s
  cases plan : r.plan s.files with
  | error failure =>
    rw [plan] at done
    rw [done]
  | ok planned =>
    cases planned with
    | none =>
      rw [plan] at done
      rw [done]
    | some planned => exact absurd plan (h planned)

theorem plan_of_occupied (h : OutputDirectory.Occupied s.files r.output) :
    ∃ failure, r.plan s.files = .error failure := by
  cases plan : r.plan s.files with
  | error failure => exact ⟨failure, rfl⟩
  | ok planned =>
    cases planned with
    | none =>
      obtain ⟨source, -, current⟩ := Request.plan_eq_none.mp plan
      obtain ⟨-, -, stored⟩ := Request.isCurrent_eq_true.mp current
      exact absurd stored (h.storedHash _)
    | some planned =>
      obtain ⟨source, -, -, -, ⟨replaced, hr⟩, -⟩ := Request.plan_eq_some.mp plan
      obtain ⟨failure, refused⟩ := h.isReplaced
      unfold Request.replaces at hr
      rw [refused] at hr
      split at hr <;> cases hr

/-- A directory with notes, beside a document. -/
def notedFiles : FileSystem :=
  ⟨.directory [
    ("notes", .directory [("todo.txt", .file "water the plants".toUTF8 false)]),
    ("spec.yaml", .file "openapi: 3.0.0".toUTF8 false)], []⟩

/-- A forced request for output in the place of the notes. -/
def ontoNotes : Request :=
  ⟨.ofText "spec.yaml", .ofText "notes", .text Mode.api.name, true, false⟩

end Run
end TypedApi
