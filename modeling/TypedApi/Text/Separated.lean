/-! # Separated texts

A text as the list of its parts between separators. Two separators in a row have the empty part
between them, so that the parts give the text back.
-/
namespace TypedApi.Text

/-- The parts of a text between the separators `mark`. -/
def separated (mark : Char) : List Char → List (List Char)
  | [] => [[]]
  | c :: rest =>
    match separated mark rest with
    | part :: parts => if c == mark then [] :: part :: parts else (c :: part) :: parts
    | [] => [[c]]

@[simp] theorem separated_nil (mark : Char) : separated mark [] = [[]] := rfl

theorem separated_ne_nil (mark : Char) (cs : List Char) : separated mark cs ≠ [] := by
  cases cs with
  | nil => simp
  | cons c rest =>
    unfold separated
    split
    · split <;> simp
    · simp

/-- The parts with the separators between them are the text. -/
theorem intercalate_separated (mark : Char) (cs : List Char) :
    [mark].intercalate (separated mark cs) = cs := by
  induction cs with
  | nil => rfl
  | cons c rest ih =>
    unfold separated
    split
    · next part parts found =>
      rw [found] at ih
      split
      · next same =>
        rw [List.intercalate_cons_cons, ih, eq_of_beq same]
        rfl
      · cases parts with
        | nil =>
          rw [List.intercalate_singleton] at ih ⊢
          rw [ih]
        | cons next parts =>
          rw [List.intercalate_cons_cons] at ih ⊢
          rw [List.cons_append, List.cons_append, ih]
    · next found => exact absurd found (separated_ne_nil mark rest)

end TypedApi.Text
