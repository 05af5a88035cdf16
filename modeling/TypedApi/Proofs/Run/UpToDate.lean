import TypedApi.Proofs.Run.Generated
import TypedApi.Proofs.Run.Session

/-! # Outputs that are up to date

Whatever calls are made on an output directory, as long as none is interrupted, the directory is as
the last call that wrote left it: it holds the files of that call's document and mode, and their hash.
A call is skipped if its own hash is the stored one.  A hash tells its source, so that the directory
holds what the call would have written (`Session.upToDate`).
-/
namespace TypedApi

/-! ## Calls -/

namespace Call

open OutputDirectory

variable {c : Call} {root : Location} {tree : OutputTree} {hash : String}

/-- The messages of the sources of two calls do not collide. -/
def Apart (c other : Call) : Prop :=
  ∀ source source', c.source = .ok source → other.source = .ok source' →
    ContentHash.Apart source source'

/-- A call on the output directory at a location, without the formatter, that is not interrupted. -/
structure Plainly (root : Location) (c : Call) : Prop where
  place : c.place = root
  unformatted : c.request.format = false
  uninterrupted : ¬ c.Interrupted

theorem generates_of_plan (plan : c.request.plan c.files = .ok (some (tree, hash))) :
    ∃ source, c.source = .ok source ∧ Generates source tree ∧ hash = Request.hash source := by
  obtain ⟨source, hs, -, ht, -, same⟩ := Request.plan_eq_some.mp plan
  exact ⟨source, hs, Request.generates_of_tree hs ht, same⟩

/-- A call that writes leaves what its source generates. -/
theorem holds_of_write {progress : List Progress} {paths : List Path} {written : RunState}
    (plan : c.request.plan c.files = .ok (some (tree, hash)))
    (write : Run.exec (OutputDirectory.write c.request.output tree.files hash)
      ⟨c.files, progress⟩ = (.ok paths, written)) :
    ∃ source, c.source = .ok source ∧ Holds written.files c.place source := by
  obtain ⟨source, hs, generated, rfl⟩ := generates_of_plan plan
  obtain ⟨-, -, holds, -⟩ := write_eq_ok generated.separate write
  exact ⟨source, hs, tree, generated, holds⟩

theorem isReplaced_of_plan (plan : c.request.plan c.files = .ok (some (tree, hash))) :
    c.request.output.hasNul = false ∧
      ∃ replaced, isReplaced c.files c.request.output = .ok replaced := by
  obtain ⟨source, -, -, -, ⟨replaced, allowed⟩, -⟩ := Request.plan_eq_some.mp plan
  unfold Request.replaces at allowed
  split at allowed
  · cases allowed
  · next visible => exact ⟨by simpa using visible, replaced, allowed⟩

theorem interrupted_of_write {progress : List Progress} {failure : Failure} {stopped : RunState}
    (plan : c.request.plan c.files = .ok (some (tree, hash)))
    (write : Run.exec (OutputDirectory.write c.request.output tree.files hash)
      ⟨c.files, progress⟩ = (.error failure, stopped))
    (result : c.result = .error failure) : c.Interrupted := by
  obtain ⟨-, replaced, allowed⟩ := isReplaced_of_plan plan
  exact ⟨failure, result, interrupts_of_write write allowed⟩

/-- A call that is skipped leaves the files as they are, and has found its own hash. -/
theorem stored_of_skipped (h : c.skipped = true) :
    c.left = c.files ∧ ∃ source, c.source = .ok source ∧ c.request.output.hasNul = false ∧
      storedHash c.files c.request.output = .ok (some (Request.hash source)) := by
  cases c.course with
  | refused plan result left => exact absurd result (not_error_of_skipped h _)
  | skipped plan result left =>
    obtain ⟨source, hs, current⟩ := Request.plan_eq_none.mp plan
    obtain ⟨-, visible, stored⟩ := Request.isCurrent_eq_true.mp current
    exact ⟨left, source, hs, visible, stored⟩
  | broken plan write result left => exact absurd result (not_error_of_skipped h _)
  | written plan write unformatted wrote left => cases wrote.symm.trans (wrote_of_skipped h)
  | formatted plan write asked format failed skipped left => cases skipped.symm.trans h

/-- A call without the formatter that has a plan carries it out, if it is not interrupted. -/
theorem Plainly.written (h : c.Plainly root)
    (plan : c.request.plan c.files = .ok (some (tree, hash))) :
    c.wrote = true ∧ ∃ source, c.source = .ok source ∧ Holds c.left root source := by
  cases c.course with
  | refused refused => cases plan.symm.trans refused
  | skipped skipped => cases plan.symm.trans skipped
  | broken plan write result left =>
    exact absurd (interrupted_of_write plan write result) h.uninterrupted
  | written plan write unformatted wrote left =>
    obtain ⟨source, hs, holds⟩ := holds_of_write plan write
    rw [h.place, ← left] at holds
    exact ⟨wrote, source, hs, holds⟩
  | formatted plan write asked => cases h.unformatted.symm.trans asked

theorem not_interrupted_of_wrote (h : c.wrote = true) : ¬ c.Interrupted := by
  rintro ⟨failure, failed, -⟩
  rw [wrote, failed] at h
  cases h

theorem files_again (c : Call) : c.again.files = c.left := rfl

/-- A call is skipped if its own hash is stored. -/
theorem skipped_of_stored {source : String × String} (unforced : c.request.force = false)
    (visible : c.request.output.hasNul = false) (hs : c.source = .ok source)
    (stored : storedHash c.files c.request.output = .ok (some (Request.hash source))) :
    c.skipped = true := by
  have plan : c.request.plan c.files = .ok none :=
    Request.plan_eq_none.mpr
      ⟨source, hs, Request.isCurrent_eq_true.mpr ⟨unforced, visible, stored⟩⟩
  cases c.course with
  | skipped plan result left => exact result
  | refused refused => cases plan.symm.trans refused
  | broken planned => cases plan.symm.trans planned
  | written planned => cases plan.symm.trans planned
  | formatted planned => cases plan.symm.trans planned

/-- A call that writes stores its own hash. -/
theorem stored_of_write {progress : List Progress} {paths : List Path} {written : RunState}
    (plan : c.request.plan c.files = .ok (some (tree, hash)))
    (write : Run.exec (OutputDirectory.write c.request.output tree.files hash)
      ⟨c.files, progress⟩ = (.ok paths, written)) :
    ∃ source, c.source = .ok source ∧
      storedHash written.files c.request.output = .ok (some (Request.hash source)) := by
  obtain ⟨source, hs, generated, rfl⟩ := generates_of_plan plan
  obtain ⟨-, -, -, found⟩ := write_eq_ok generated.separate write
  exact ⟨source, hs, storedHash_of_find found⟩

/-- **A call that is repeated is skipped**, if it has written and its document is the same. -/
theorem again_skipped (wrote : c.wrote = true) (unformatted : c.request.format = false)
    (same : c.again.source = c.source) : c.again.skipped = true := by
  cases c.course with
  | refused plan result =>
    rw [Call.wrote, result] at wrote
    cases wrote
  | skipped plan result => cases wrote.symm.trans (wrote_of_skipped result)
  | broken plan write result =>
    rw [Call.wrote, result] at wrote
    cases wrote
  | written plan write unformatted wrote left =>
    obtain ⟨visible, -⟩ := isReplaced_of_plan plan
    obtain ⟨source, hs, stored⟩ := stored_of_write plan write
    rw [← left] at stored
    exact skipped_of_stored rfl visible (same.trans hs) stored
  | formatted plan write asked => cases unformatted.symm.trans asked

/-- What a call without the formatter does, if it is not interrupted: it changes nothing, or it
leaves what its source generates. -/
theorem Plainly.cases (h : c.Plainly root) :
    (c.wrote = false ∧ c.left = c.files) ∨
      (c.wrote = true ∧ ∃ source, c.source = .ok source ∧ Holds c.left root source) := by
  cases c.course with
  | refused plan result left =>
    refine .inl ⟨?_, left⟩
    rw [wrote, result]
  | skipped plan result left => exact .inl ⟨wrote_of_skipped result, left⟩
  | broken plan => exact .inr (h.written plan)
  | written plan => exact .inr (h.written plan)
  | formatted plan => exact .inr (h.written plan)

/-- The name of the mode of a call is that of its source. -/
theorem mode_of_source {mode : String} {source : String × String} (hs : c.source = .ok source)
    (named : c.request.mode = .text mode) : source.1 = mode := by
  obtain ⟨-, -, known⟩ := Run.source_eq_ok hs
  rw [named] at known
  exact (Except.ok.inj known).symm

/-- With force an output is written also if it has a hash. -/
theorem plan_of_forced {mode stored : String} {source : String × String}
    (forced : c.request.force = true) (visible : c.request.output.hasNul = false)
    (named : c.request.mode = .text mode) (hs : c.source = .ok source)
    (generated : Generates source tree)
    (hashed : storedHash c.files c.request.output = .ok (some stored)) :
    c.request.plan c.files = .ok (some (tree, Request.hash source)) := by
  refine Request.plan_eq_some.mpr ⟨source, hs, ?current, ?tree, ⟨true, ?allowed⟩, rfl⟩
  case current => rw [Request.isCurrent, if_pos forced]
  case tree =>
    refine Request.tree_of_generates ?_ generated
    rw [mode_of_source hs named]
    exact named
  case allowed =>
    rw [Request.replaces, visible, if_neg Bool.false_ne_true]
    exact isReplaced_of_storedHash hashed

end Call

namespace Session

open OutputDirectory

variable {root : Location} {start files : FileSystem} {calls : List Call} {c : Call}

/-- The output directory is as the last of the calls that wrote left it; without one it is vacant. -/
inductive LastWritten (root : Location) (calls : List Call) (files : FileSystem) : Prop where
  | nothing (unwritten : ∀ c ∈ calls, c.wrote = false) (vacant : Vacant files root)
  | output {later earlier : List Call} {c : Call} {source : String × String}
      (split : calls = later ++ c :: earlier) (unwritten : ∀ d ∈ later, d.wrote = false)
      (wrote : c.wrote = true) (read : c.source = .ok source) (holds : Holds files root source)

theorem LastWritten.edited (h : LastWritten root calls files) {files' : FileSystem}
    (edit : Untouched root files files') : LastWritten root calls files' := by
  cases h with
  | nothing unwritten vacant => exact .nothing unwritten (edit.vacant vacant)
  | output split unwritten wrote read holds =>
    exact .output split unwritten wrote read (edit.holds holds)

theorem LastWritten.called (h : LastWritten root calls c.files) (plainly : c.Plainly root) :
    LastWritten root (c :: calls) c.left := by
  rcases plainly.cases with ⟨unwritten, same⟩ | ⟨wrote, source, read, holds⟩
  · rw [same]
    cases h with
    | nothing before vacant => exact .nothing (List.forall_mem_cons.mpr ⟨unwritten, before⟩) vacant
    | @output later earlier d source split before wrote read holds =>
      exact .output (congrArg (List.cons c) split) (List.forall_mem_cons.mpr ⟨unwritten, before⟩)
        wrote read holds
  · exact .output (List.nil_append _).symm (List.forall_mem_nil _) wrote read holds

theorem lastWritten (vacant : Vacant start root)
    (session : Session (Call.Plainly root) (Untouched root) start calls files) :
    LastWritten root calls files := by
  induction session with
  | start => exact .nothing (List.forall_mem_nil _) vacant
  | edited before edit ih => exact ih.edited edit
  | called before admitted ih => exact ih.called admitted

/-- A call that is skipped finds what its source generates. -/
theorem holds_of_skipped (last : LastWritten root calls c.files) (place : c.place = root)
    (apart : ∀ earlier ∈ calls, earlier.Apart c) (skipped : c.skipped = true) :
    ∃ source, c.source = .ok source ∧ Holds c.files root source := by
  obtain ⟨-, source, hs, -, stored⟩ := Call.stored_of_skipped skipped
  obtain ⟨data, executable, _, file, -⟩ := entryAt_of_storedHash stored
  change c.files.entryAt (c.place ++ [hashFileName]) = _ at file
  rw [place] at file
  cases last with
  | nothing unwritten vacant => cases vacant.entryAt_hashFile.symm.trans file
  | @output later earlier writer source' split unwritten wrote hs' holds =>
    obtain ⟨tree, generated, only⟩ := holds
    have written := entryAt_hashFile_of_holdsOnly only
    rw [← place] at written
    have same := storedHash_unique written stored
    have listed : writer ∈ calls := split ▸ List.mem_append_right _ List.mem_cons_self
    have equal := ContentHash.source_eq (apart writer listed _ _ hs' hs) generated.plain
      generated.plainText same.symm
    exact ⟨source, hs, equal ▸ ⟨tree, generated, only⟩⟩

/-- A document without components and operations. -/
def emptyDocument : String :=
  "openapi: 3.0.0\ninfo: \x7btitle: Nothing, version: '1'\x7d\n" ++
    "paths: \x7b\x7d\ncomponents: \x7bschemas: \x7b\x7d\x7d\n"

/-- The document, and nothing else. -/
def documentFiles : FileSystem :=
  ⟨.directory [("spec.yaml", .file emptyDocument.toUTF8 false)], []⟩

/-- A call that generates controllers from the document. -/
def generating : Call :=
  ⟨.absent, ⟨.ofText "spec.yaml", .ofText "out", .text Mode.api.name, false, false⟩, documentFiles⟩

theorem wrote_generating : generating.wrote = true := by decide +kernel

theorem wrote_forced_generating : generating.again.forced.wrote = true := by decide +kernel

theorem source_generating : generating.source = .ok (Mode.api.name, emptyDocument) :=
  Except.eq_ok_of_toOption (by decide +kernel)

theorem source_again_generating :
    generating.again.source = .ok (Mode.api.name, emptyDocument) :=
  Except.eq_ok_of_toOption (by decide +kernel)

theorem plainly_generating : generating.Plainly ["out"] :=
  ⟨by decide +kernel, rfl, Call.not_interrupted_of_wrote wrote_generating⟩

end Session
end TypedApi
