import TypedApi.Proofs.Run.Written

/-! # Generated outputs

The text of a document and the name of a mode are the source of an output: they determine the generated
files (`Generates.unique`) and the hash that is written with them.  An output directory that holds the
output of a source (`OutputDirectory.Holds`) is the same wherever and whenever it was written, and what is
read from its hash file is the hash of this source (`OutputDirectory.storedHash_unique`).
-/
namespace TypedApi

/-! ## What a source generates -/

theorem Source.value_eq_ok {name text : String} {value : Value}
    (h : Source.value ⟨name, text⟩ = .ok value) (other : String) :
    Source.value ⟨other, text⟩ = .ok value := by
  unfold Source.value at h ⊢
  simp only at h ⊢
  split at h
  · exact h
  · cases h
  · cases h

theorem Source.check_eq_ok {name text : String} {members : Members}
    (h : Source.check ⟨name, text⟩ members = .ok ()) (other : String) :
    Source.check ⟨other, text⟩ members = .ok () := by
  obtain ⟨version, declared, h⟩ := Except.bind_eq_ok.mp h
  obtain ⟨_, supported, h⟩ := Except.bind_eq_ok.mp h
  refine Except.bind_eq_ok.mpr ⟨version, declared, Except.bind_eq_ok.mpr ⟨_, supported, ?_⟩⟩
  split at h
  · cases h
  · next accepted =>
    rw [if_neg accepted]
    rfl

/-- The document in a text does not depend on where the text comes from. -/
theorem Source.document_eq_ok {name text : String} {document : Members}
    (h : Source.document ⟨name, text⟩ = .ok document) (other : String) :
    Source.document ⟨other, text⟩ = .ok document := by
  obtain ⟨value, read, h⟩ := Except.bind_eq_ok.mp h
  refine Except.bind_eq_ok.mpr ⟨value, Source.value_eq_ok read other, ?_⟩
  split at h
  · obtain ⟨_, checked, h⟩ := Except.bind_eq_ok.mp h
    exact Except.bind_eq_ok.mpr ⟨_, Source.check_eq_ok checked other, h⟩
  · cases h

/-- A text with a character that YAML forbids is no document. -/
theorem Source.allowed_of_document {name text : String} {document : Members}
    (h : Source.document ⟨name, text⟩ = .ok document) :
    ∀ c ∈ text.toList, Yaml.isAllowed c = true := by
  rw [← List.all_eq_true]
  by_contra forbidden
  have tokens : Yaml.Tokens.ofText text = ⟨[], some .forbiddenCharacter⟩ := by
    rw [Yaml.Tokens.ofText, Bool.eq_false_of_not_eq_true forbidden]
    rfl
  have faulty : Yaml.valueOfText text = .error .forbiddenCharacter := by
    rw [Yaml.valueOfText, Yaml.Node.ofText, tokens]
    rfl
  rw [Source.document, Source.value, faulty] at h
  cases h

/-- The files that the text of a source generates in its mode. -/
def Generates (source : String × String) (tree : OutputTree) : Prop :=
  ∃ name document, Source.document ⟨name, source.2⟩ = .ok document ∧
    (Generation.generate (.text source.1) (.map document)).result = .ok tree

theorem Generates.unique {source : String × String} {tree tree' : OutputTree}
    (h : Generates source tree) (h' : Generates source tree') : tree = tree' := by
  obtain ⟨name, document, parsed, generated⟩ := h
  obtain ⟨name', document', parsed', generated'⟩ := h'
  cases (Source.document_eq_ok parsed name').symm.trans parsed'
  exact Except.ok.inj (generated.symm.trans generated')

theorem Generates.separate {source : String × String} {tree : OutputTree}
    (h : Generates source tree) : Separate tree.files := by
  obtain ⟨name, document, -, generated⟩ := h
  exact Generation.separate_of_generate generated

/-- Files are generated only in the name of a mode, which is plain. -/
theorem Generates.plain {source : String × String} {tree : OutputTree}
    (h : Generates source tree) : ContentHash.Plain source.1 := by
  obtain ⟨name, document, -, generated⟩ := h
  obtain ⟨mode, known, -⟩ := Noted.bind_eq_ok.mp generated
  change Generation.mode? (.text source.1) = .ok mode at known
  unfold Generation.mode? at known
  simp only at known
  split at known
  · next found looked =>
    have listed := List.find?_some (show List.find? _ [Mode.api, Mode.client] = _ from looked)
    rw [← beq_iff_eq.mp listed]
    exact ContentHash.plain_name found
  · cases known

theorem Generates.plainText {source : String × String} {tree : OutputTree}
    (h : Generates source tree) : ContentHash.Plain source.2 := by
  obtain ⟨name, document, parsed, -⟩ := h
  intro c hc zero
  have allowed := Source.allowed_of_document parsed c hc
  simp [Yaml.isAllowed, zero] at allowed

namespace Request

variable {r : Request} {files : FileSystem} {source : String × String} {tree : OutputTree}

theorem tree_of_generates (mode : r.mode = .text source.1) (h : Generates source tree) :
    r.tree source.2 = .ok tree := by
  obtain ⟨name, document, parsed, generated⟩ := h
  rw [← mode] at generated
  exact Except.bind_eq_ok.mpr ⟨document, Source.document_eq_ok parsed _, generated⟩

theorem generates_of_tree (hs : r.source files = .ok source) (ht : r.tree source.2 = .ok tree) :
    Generates source tree := by
  obtain ⟨-, -, named⟩ := Run.source_eq_ok hs
  obtain ⟨document, parsed, generated⟩ := Run.tree_eq_ok ht
  obtain ⟨mode, known, -⟩ := Noted.bind_eq_ok.mp generated
  change Generation.mode? r.mode = .ok mode at known
  unfold Generation.mode? at known
  split at known
  · next name given =>
    rw [given] at named generated
    cases named
    exact ⟨r.input.text, document, parsed, generated⟩
  · cases known

end Request

/-! ## The output directory -/

namespace OutputDirectory

variable {files files' : FileSystem} {directory : Path} {root : Location}
  {source source' : String × String}

/-- Nothing is there, or an empty directory. -/
inductive Vacant (files : FileSystem) (root : Location) : Prop where
  | absent : files.entryAt root = none → Vacant files root
  | empty : files.entryAt root = some .directory → (∀ l ≠ [], files.entryAt (root ++ l) = none) →
      Vacant files root

/-- There are exactly the files that a source generates, and its hash. -/
def Holds (files : FileSystem) (root : Location) (source : String × String) : Prop :=
  ∃ tree, Generates source tree ∧
    files.HoldsOnly root (contents tree.files (Request.hash source))

theorem entryAt_hashFile_of_holdsOnly {generated : List Code.SourceFile} {hash : String}
    (h : files.HoldsOnly root (contents generated hash)) :
    files.entryAt (root ++ [hashFileName]) = some (.file (hash ++ "\n").toUTF8 false) :=
  h.each ([hashFileName], (hash ++ "\n").toUTF8) (List.mem_append_right _ List.mem_cons_self)

theorem Holds.entryAt_eq (h : Holds files root source) (h' : Holds files' root source)
    (l : Location) : files.entryAt (root ++ l) = files'.entryAt (root ++ l) := by
  obtain ⟨tree, generated, holds⟩ := h
  obtain ⟨tree', generated', holds'⟩ := h'
  obtain rfl := generated.unique generated'
  by_cases below : l = []
  · rw [below, List.append_nil]
    have inside : [hashFileName] ≠ [] := List.cons_ne_nil _ _
    exact (FileTree.directory_of_entryAt_append (entryAt_hashFile_of_holdsOnly holds) inside).trans
      (FileTree.directory_of_entryAt_append (entryAt_hashFile_of_holdsOnly holds') inside).symm
  · exact holds.entryAt_eq holds' below

/-- What happens elsewhere leaves the entries at a location and below as they are. -/
def Untouched (root : Location) (files files' : FileSystem) : Prop :=
  ∀ l, files'.entryAt (root ++ l) = files.entryAt (root ++ l)

theorem Untouched.at_root (h : Untouched root files files') :
    files'.entryAt root = files.entryAt root := by
  have same := h []
  rwa [List.append_nil] at same

theorem Untouched.vacant (h : Untouched root files files') (vacant : Vacant files root) :
    Vacant files' root := by
  cases vacant with
  | absent nothing => exact .absent (h.at_root.trans nothing)
  | empty there nothing =>
    exact .empty (h.at_root.trans there) fun l hl => (h l).trans (nothing l hl)

theorem Untouched.holds (h : Untouched root files files') (holds : Holds files root source) :
    Holds files' root source := by
  obtain ⟨tree, generated, each, only⟩ := holds
  exact ⟨tree, generated, fun item hi => (h item.1).trans (each item hi),
    fun l given => only l (by rwa [← h l])⟩

theorem Vacant.entryAt_hashFile (h : Vacant files root) :
    files.entryAt (root ++ [hashFileName]) = none := by
  cases h with
  | absent nothing => exact FileTree.entryAt_eq_none_of_prefix nothing (List.prefix_append _ _)
  | empty _ nothing => exact nothing _ (List.cons_ne_nil _ _)

/-- What is stored is in the hash file. -/
theorem entryAt_of_storedHash {hash : String} (h : storedHash files directory = .ok (some hash)) :
    ∃ data executable text,
      files.entryAt (directory.namesFrom files.current ++ [hashFileName]) =
        some (.file data executable) ∧
      String.fromUTF8? data = some text ∧
        Text.trimmed? (Text.withLineFeeds text) = some hash := by
  obtain ⟨data, executable, text, found, decoded, trimmed⟩ := storedHash_eq_some h
  obtain ⟨-, stands⟩ := FileSystem.find_eq_ok found
  rw [namesFrom_hashFile] at stands
  refine ⟨data, executable, text, ?_, decoded, trimmed⟩
  rw [FileSystem.entryAt_eq, stands]
  rfl

/-- A hash file with the hash of a source is read as that hash. -/
theorem storedHash_unique {hash : String} {executable : Bool}
    (file : files.entryAt (directory.namesFrom files.current ++ [hashFileName]) =
      some (.file (Request.hash source ++ "\n").toUTF8 executable))
    (h : storedHash files directory = .ok (some hash)) : hash = Request.hash source := by
  obtain ⟨data, _, text, stands, decoded, trimmed⟩ := entryAt_of_storedHash h
  cases stands.symm.trans file
  cases decoded.symm.trans (fromUTF8?_toUTF8 _)
  exact Option.some.inj (trimmed.symm.trans (ContentHash.read_written _ _))

/-- A directory with a hash may be replaced. -/
theorem isReplaced_of_storedHash {hash : String}
    (h : storedHash files directory = .ok (some hash)) : isReplaced files directory = .ok true := by
  obtain ⟨data, executable, text, found, -⟩ := storedHash_eq_some h
  obtain ⟨located, -⟩ := FileSystem.find_eq_ok found
  obtain ⟨_, _, _, stands, -⟩ := entryAt_of_storedHash h
  have around := FileTree.directory_of_entryAt_append stands (List.cons_ne_nil _ _)
  obtain ⟨t, at_, isDirectory⟩ := Option.map_eq_some_iff.mp around
  cases t with
  | file _ _ => cases isDirectory
  | directory entries =>
    have own : files.find directory = .ok (.directory entries) := by
      refine Except.bind_eq_ok.mpr ⟨_, FileSystem.locate_of_child located, ?_⟩
      rw [FileSystem.at?, at_]
      rfl
    simp only [isReplaced, isGenerated, look, FileSystem.find?, own, found, Except.ok_bind]
    rfl

end OutputDirectory

end TypedApi
