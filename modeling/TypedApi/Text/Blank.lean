/-! # Blank characters

Which characters count as blank, and trimming them off both ends of a text. `trimEnd_append`
says that trimming the end drops blanks only.
-/
namespace TypedApi.Text

/-- The white space of Unicode, together with the information separators U+001C to U+001F. -/
def isBlank (c : Char) : Bool :=
  let n := c.toNat
  (9 ≤ n && n ≤ 13) || (28 ≤ n && n ≤ 32) || n == 0x85 || n == 0xA0 || n == 0x1680
    || (0x2000 ≤ n && n ≤ 0x200A) || n == 0x2028 || n == 0x2029 || n == 0x202F
    || n == 0x205F || n == 0x3000

/-- `cs` without its leading blanks. -/
def trimStart (cs : List Char) : List Char :=
  cs.dropWhile isBlank

/-- `cs` without its trailing blanks. -/
def trimEnd : List Char → List Char
  | [] => []
  | c :: rest =>
    match trimEnd rest with
    | [] => if isBlank c then [] else [c]
    | kept => c :: kept

@[simp] theorem trimEnd_nil : trimEnd [] = [] := rfl

/-- What trimming the end drops is blank. -/
theorem trimEnd_append (cs : List Char) :
    ∃ blanks, cs = trimEnd cs ++ blanks ∧ ∀ c ∈ blanks, isBlank c = true := by
  induction cs with
  | nil => exact ⟨[], by simp⟩
  | cons c rest ih =>
    obtain ⟨blanks, hrest, hblank⟩ := ih
    cases h : trimEnd rest with
    | nil =>
      rw [h, List.nil_append] at hrest
      subst hrest
      by_cases hc : isBlank c = true
      · exact ⟨c :: rest, by simp [trimEnd, h, hc], by simpa [hc] using hblank⟩
      · exact ⟨rest, by simp [trimEnd, h, hc], hblank⟩
    | cons d kept =>
      refine ⟨blanks, ?_, hblank⟩
      rw [h] at hrest
      simp [trimEnd, h, ← hrest]

/-- `s` without the blanks at both of its ends. -/
def trim (s : String) : String :=
  .ofList (trimEnd (trimStart s.toList))

/-- Whether `s` holds nothing but blanks. -/
def isBlankText (s : String) : Bool :=
  s.toList.all isBlank

/-- `s` trimmed, unless nothing is left. -/
def trimmed? (s : String) : Option String :=
  if isBlankText s then none else some (trim s)

end TypedApi.Text
