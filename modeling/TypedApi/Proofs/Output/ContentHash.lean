import TypedApi.Output.ContentHash
import TypedApi.Output.Mode
import TypedApi.Text.Lines

/-! # What a content hash tells

A message is read back to the mode and the text that it was made of: a zero byte ends the mode, and no
mode has one.  Equal hashes are those of digests that are equal, so that a hash tells its mode and text
as far as messages do not collide (`ContentHash.source_eq`).  A hash that was written to a file with a
line feed behind is read back from it (`ContentHash.read_written`).
-/
namespace TypedApi

/-! ## Bytes of a text -/

theorem toListLoop_eq (bytes : ByteArray) (i : Nat) (read : List UInt8) :
    ByteArray.toList.loop bytes i read = read.reverse ++ bytes.data.toList.drop i := by
  fun_induction ByteArray.toList.loop bytes i read with
  | case1 i read more ih =>
    have listed : i < bytes.data.toList.length := more
    have byte : bytes.get! i = bytes.data.toList[i] := by
      simp [ByteArray.get!, more]
    rw [ih, List.reverse_cons, List.append_assoc, byte, List.singleton_append,
      ← List.drop_eq_getElem_cons]
  | case2 i read done =>
    have listed : bytes.data.toList.length ≤ i := Nat.le_of_not_lt done
    rw [List.drop_of_length_le listed, List.append_nil]

theorem toList_eq (bytes : ByteArray) : bytes.toList = bytes.data.toList := by
  rw [ByteArray.toList, toListLoop_eq]
  rfl

/-- A text is read back from its bytes. -/
theorem fromUTF8?_toUTF8 (s : String) : String.fromUTF8? s.toUTF8 = some s := by
  unfold String.fromUTF8?
  exact dif_pos s.isValidUTF8

/-- Only the character with the number zero has a zero byte. -/
theorem zero_notMem_utf8EncodeChar {c : Char} (h : c.toNat ≠ 0) :
    0 ∉ String.utf8EncodeChar c := by
  have small (n : Nat) (positive : 0 < n) (byte : n < 256) : (0 : UInt8) ≠ UInt8.ofNat n := by
    intro same
    have numbers := congrArg UInt8.toNat same
    rw [UInt8.toNat_ofNat_of_lt' byte] at numbers
    exact absurd numbers (Nat.ne_of_lt positive)
  have given : 0 < c.val.toNat := Nat.pos_of_ne_zero h
  unfold String.utf8EncodeChar
  simp only
  repeat' split
  all_goals
    simp only [List.mem_cons, List.not_mem_nil, or_false, not_or]
    repeat' constructor
    all_goals exact small _ (by omega) (by omega)

namespace ContentHash

/-- A text is encoded character by character. -/
theorem utf8_eq_flatMap (s : String) : utf8 s = s.toList.flatMap String.utf8EncodeChar := by
  rw [utf8, String.toUTF8, toList_eq, ← String.utf8Encode_toList, List.utf8Encode]
  simp

theorem utf8_injective {s t : String} (h : utf8 s = utf8 t) : s = t := by
  rw [utf8, utf8, toList_eq, toList_eq] at h
  exact String.toByteArray_inj.mp (ByteArray.ext (Array.toList_inj.mp h))

/-! ## Messages -/

/-- A text without the character that is written as a zero byte. -/
def Plain (s : String) : Prop := ∀ c ∈ s.toList, c.toNat ≠ 0

theorem plain_name (mode : Mode) : Plain mode.name := by
  cases mode <;> simp [Plain, Mode.name]

theorem zero_notMem_utf8 {s : String} : 0 ∉ utf8 s ↔ Plain s := by
  rw [utf8_eq_flatMap]
  constructor
  · intro h c hc zero
    refine h (List.mem_flatMap.mpr ⟨c, hc, ?_⟩)
    obtain rfl : c = Char.ofNat 0 := by rw [← zero, Char.ofNat_toNat]
    decide
  · intro plain h
    obtain ⟨c, hc, zero⟩ := List.mem_flatMap.mp h
    exact zero_notMem_utf8EncodeChar (plain c hc) zero

/-- Lists are told apart from what follows by the first occurrence of a mark that they lack. -/
theorem append_cons_injective {mark : UInt8} {before before' after after' : List UInt8}
    (lacks : mark ∉ before) (lacks' : mark ∉ before')
    (h : before ++ mark :: after = before' ++ mark :: after') :
    before = before' ∧ after = after' := by
  induction before generalizing before' with
  | nil =>
    cases before' with
    | nil => exact ⟨rfl, (List.cons.inj h).2⟩
    | cons byte rest => exact absurd ((List.cons.inj h).1 ▸ List.mem_cons_self) lacks'
  | cons byte rest ih =>
    cases before' with
    | nil => exact absurd ((List.cons.inj h).1 ▸ List.mem_cons_self) lacks
    | cons byte' rest' =>
      obtain ⟨rfl, later⟩ := List.cons.inj h
      obtain ⟨rfl, same⟩ := ih (fun h => lacks (List.mem_cons_of_mem _ h))
        (fun h => lacks' (List.mem_cons_of_mem _ h)) later
      exact ⟨rfl, same⟩

variable {mode mode' text text' : String}

/-- What follows the version in a message. -/
theorem parts_eq_of_message_eq (h : message mode text = message mode' text') :
    utf8 mode ++ 0 :: (utf8 text ++ [0]) = utf8 mode' ++ 0 :: (utf8 text' ++ [0]) := by
  simp only [message, List.flatMap_cons, List.flatMap_nil, List.append_nil, List.append_assoc,
    List.singleton_append] at h
  exact (List.cons.inj (List.append_cancel_left h)).2

/-- **A message tells its mode and its text**, whatever characters the text has. -/
theorem message_injective (plain : Plain mode) (plain' : Plain mode')
    (h : message mode text = message mode' text') : mode = mode' ∧ text = text' := by
  obtain ⟨modes, texts⟩ := append_cons_injective (zero_notMem_utf8.mpr plain)
    (zero_notMem_utf8.mpr plain') (parts_eq_of_message_eq h)
  exact ⟨utf8_injective modes, utf8_injective (List.append_cancel_right texts)⟩

/-- A name with a zero byte does not have the message of a mode and a text without: there would be
more zero bytes in its message. -/
theorem plain_of_message_eq (plain : Plain mode) (plainText : Plain text)
    (h : message mode text = message mode' text') : Plain mode' := by
  have zeros := congrArg (List.count 0) (parts_eq_of_message_eq h)
  have none := List.count_eq_zero.mpr (zero_notMem_utf8.mpr plain)
  have noneInText := List.count_eq_zero.mpr (zero_notMem_utf8.mpr plainText)
  simp only [List.count_append, List.count_cons_self, List.count_nil, none, noneInText] at zeros
  exact zero_notMem_utf8.mp (List.count_eq_zero.mp (by omega))

/-! ## Digits -/

theorem hexDigit_injective {m n : Nat} (hm : m < 16) (hn : n < 16)
    (h : Text.hexDigit m = Text.hexDigit n) : m = n := by
  have distinct : ∀ m < 16, ∀ n < 16, Text.hexDigit m = Text.hexDigit n → m = n := by decide
  exact distinct m hm n hn h

/-- Bytes are told by their digits. -/
theorem hexText_injective {bytes bytes' : List UInt8} (h : hexText bytes = hexText bytes') :
    bytes = bytes' := by
  have digits := String.ofList_injective h
  clear h
  induction bytes generalizing bytes' with
  | nil =>
    cases bytes' with
    | nil => rfl
    | cons byte rest => simp [Text.hexDigits] at digits
  | cons byte rest ih =>
    cases bytes' with
    | nil => simp [Text.hexDigits] at digits
    | cons byte' rest' =>
      simp only [List.flatMap_cons, Text.hexDigits, List.nil_append, List.cons_append,
        List.cons.injEq] at digits
      obtain ⟨high, low, later⟩ := digits
      have high := hexDigit_injective (Nat.mod_lt _ (by decide)) (Nat.mod_lt _ (by decide)) high
      have low := hexDigit_injective (Nat.mod_lt _ (by decide)) (Nat.mod_lt _ (by decide)) low
      have small := byte.toNat_lt
      have small' := byte'.toNat_lt
      rw [ih later, UInt8.toNat_inj.mp (by omega : byte.toNat = byte'.toNat)]

theorem digest_ne_nil (bytes : List UInt8) : Sha256.digest bytes ≠ [] := by
  simp [Sha256.digest, Sha256.bigEndian]

/-- No digit is a blank or ends a line. -/
theorem hexDigit_visible {n : Nat} (h : n < 16) :
    Text.isBlank (Text.hexDigit n) = false ∧ Text.hexDigit n ≠ '\r' := by
  have visible : ∀ n < 16,
      Text.isBlank (Text.hexDigit n) = false ∧ Text.hexDigit n ≠ '\r' := by decide
  exact visible n h

theorem mem_hexDigits {width n : Nat} {c : Char} (h : c ∈ Text.hexDigits width n) :
    ∃ digit < 16, c = Text.hexDigit digit := by
  induction width generalizing n with
  | zero => cases h
  | succ width ih =>
    rcases List.mem_append.mp h with h | h
    · exact ih h
    · exact ⟨n % 16, Nat.mod_lt _ (by decide), List.mem_singleton.mp h⟩

/-- The characters of a hash are digits. -/
theorem visible_of_mem_ofText {mode text : String} {c : Char} (h : c ∈ (ofText mode text).toList) :
    Text.isBlank c = false ∧ c ≠ '\r' := by
  rw [ofText, hexText, String.toList_ofList] at h
  obtain ⟨byte, -, h⟩ := List.mem_flatMap.mp h
  obtain ⟨digit, small, rfl⟩ := mem_hexDigits h
  exact hexDigit_visible small

theorem ofText_toList_ne_nil (mode text : String) : (ofText mode text).toList ≠ [] := by
  rw [ofText, hexText, String.toList_ofList]
  obtain ⟨byte, rest, same⟩ := List.exists_cons_of_ne_nil (digest_ne_nil (message mode text))
  rw [same, List.flatMap_cons]
  simp [Text.hexDigits]

/-! ## Reading a hash back -/

theorem feedsFrom_eq_self {cs : List Char} (h : '\r' ∉ cs) : Text.feedsFrom cs = cs := by
  fun_induction Text.feedsFrom cs with
  | case1 => rfl
  | case2 rest ih => exact absurd List.mem_cons_self h
  | case3 c rest notPair ih =>
    obtain ⟨own, later⟩ := not_or.mp (mt List.mem_cons.mpr h)
    rw [ih later, if_neg (by simpa using Ne.symm own)]

theorem trimEnd_append_lineFeed {cs : List Char} (visible : ∀ c ∈ cs, Text.isBlank c = false) :
    Text.trimEnd (cs ++ ['\n']) = cs := by
  induction cs with
  | nil => decide
  | cons c rest ih =>
    obtain ⟨own, later⟩ := List.forall_mem_cons.mp visible
    rw [List.cons_append, Text.trimEnd, ih later]
    cases rest with
    | nil => simp [own]
    | cons d rest => rfl

/-- **A hash that was written is read back.** -/
theorem read_written (mode text : String) :
    Text.trimmed? (Text.withLineFeeds (ofText mode text ++ "\n")) = some (ofText mode text) := by
  have visible := fun c (hc : c ∈ (ofText mode text).toList) => (visible_of_mem_ofText hc).1
  have unreturned : '\r' ∉ (ofText mode text ++ "\n").toList := by
    rw [String.toList_append]
    intro h
    rcases List.mem_append.mp h with h | h
    · exact (visible_of_mem_ofText h).2 rfl
    · revert h
      decide
  obtain ⟨c, rest, digits⟩ := List.exists_cons_of_ne_nil (ofText_toList_ne_nil mode text)
  have first : Text.isBlank c = false := visible c (digits ▸ List.mem_cons_self)
  have lineFeed : "\n".toList = ['\n'] := rfl
  rw [Text.withLineFeeds, feedsFrom_eq_self unreturned, String.ofList_toList, Text.trimmed?]
  have given : Text.isBlankText (ofText mode text ++ "\n") = false := by
    simp [Text.isBlankText, String.toList_append, digits, first]
  rw [given, if_neg Bool.false_ne_true, Text.trim, String.toList_append, lineFeed]
  have start : Text.trimStart ((ofText mode text).toList ++ ['\n']) =
      (ofText mode text).toList ++ ['\n'] := by
    rw [digits, List.cons_append, Text.trimStart, List.dropWhile_cons_of_neg (by simp [first])]
  rw [start, trimEnd_append_lineFeed visible, String.ofList_toList]

/-! ## Equal hashes -/

/-- The messages of two sources, each a mode with a text, do not collide. -/
def Apart (source source' : String × String) : Prop :=
  Sha256.digest (message source.1 source.2) = Sha256.digest (message source'.1 source'.2) →
    message source.1 source.2 = message source'.1 source'.2

/-- **The hash of a mode and a text that can be read tells them**, as far as messages do not
collide. -/
theorem source_eq {source source' : String × String} (apart : Apart source source')
    (plain : Plain source.1) (plainText : Plain source.2)
    (h : ofText source.1 source.2 = ofText source'.1 source'.2) : source = source' := by
  have same := apart (hexText_injective h)
  have plain' := plain_of_message_eq plain plainText same
  exact Prod.ext_iff.mpr (message_injective plain plain' same)

end ContentHash
end TypedApi
