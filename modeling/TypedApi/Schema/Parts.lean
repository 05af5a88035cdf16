import TypedApi.Schema.Classify

/-! # Parts of schemas

The shape of a schema is built from schemas that the schema holds. `sizeOf_options`,
`sizeOf_items` and `sizeOf_values` say that they are smaller, so that a schema can be followed
down to its leaves.
-/
namespace TypedApi
namespace Schema

variable {place : Place} {members : Members} {shape : Shape}

/-- The parts of a shape are taken from one member of the schema. -/
def PartsFrom (members : Members) (shape : Shape) : Prop :=
  (∃ options, shape = .oneOf options ∧ members.get? "oneOf" = some (.list options)) ∨
  (∃ items, shape = .array items ∧ members.get? "items" = some items) ∨
  (∃ values, shape = .map values ∧ members.get? "additionalProperties" = some values) ∨
  shape.parts = []

theorem oneOf_partsFrom (h : oneOf place members = .ok shape) : PartsFrom members shape := by
  simp only [oneOf, bind, Except.bind] at h
  split at h
  · cases h
  · split at h
    · next found =>
      cases h
      exact .inl ⟨_, rfl, found⟩
    · cases h

theorem array_partsFrom (h : array place members = .ok shape) : PartsFrom members shape := by
  simp only [array, bind, Except.bind] at h
  split at h
  · cases h
  · split at h
    · next found =>
      cases h
      exact .inr (.inl ⟨_, rfl, found⟩)
    · cases h

theorem map_partsFrom (h : map place members = .ok shape) : PartsFrom members shape := by
  simp only [map, bind, Except.bind] at h
  split at h
  · cases h
  · split at h
    · next found =>
      cases h
      exact .inr (.inr (.inl ⟨_, rfl, found⟩))
    all_goals cases h

theorem partsFrom_of_leaf (h : shape.parts = []) : PartsFrom members shape :=
  .inr (.inr (.inr h))

theorem reference_parts (h : reference place members = .ok shape) : shape.parts = [] := by
  simp only [reference, bind, Except.bind] at h
  split at h
  · cases h
  · split at h
    · split at h
      · cases h
      · cases h; rfl
    · cases h

theorem enumeration_parts (h : enumeration place members = .ok shape) : shape.parts = [] := by
  simp only [enumeration, bind, Except.bind, pure, Except.pure, throw, throwThe,
    MonadExceptOf.throw] at h
  repeat' split at h
  all_goals cases h
  all_goals rfl

theorem boundedText_parts {email : Bool} (h : boundedText place members email = .ok shape) :
    shape.parts = [] := by
  simp only [boundedText, bind, Except.bind, pure, Except.pure, throw, throwThe,
    MonadExceptOf.throw] at h
  repeat' split at h
  all_goals cases h
  all_goals rfl

theorem text_parts (h : text place members = .ok shape) : shape.parts = [] := by
  simp only [text, bind, Except.bind, pure, Except.pure, throw, throwThe,
    MonadExceptOf.throw] at h
  split at h
  · exact boundedText_parts h
  · exact boundedText_parts h
  all_goals try split at h
  all_goals cases h
  all_goals rfl

theorem object_parts (h : object place members = .ok shape) : shape.parts = [] := by
  simp only [object, bind, Except.bind, pure, Except.pure, throw, throwThe,
    MonadExceptOf.throw] at h
  repeat' split at h
  all_goals cases h
  all_goals rfl

theorem typed_partsFrom (h : typed place members = .ok shape) : PartsFrom members shape := by
  simp only [typed, bind, Except.bind, pure, Except.pure, throw, throwThe,
    MonadExceptOf.throw] at h
  split at h
  · split at h
    · exact partsFrom_of_leaf (enumeration_parts h)
    · exact partsFrom_of_leaf (text_parts h)
  · split at h
    · cases h
    · cases h; exact partsFrom_of_leaf rfl
  · split at h
    · cases h
    · cases h; exact partsFrom_of_leaf rfl
  · split at h
    · cases h
    · cases h; exact partsFrom_of_leaf rfl
  · exact array_partsFrom h
  · split at h
    · exact partsFrom_of_leaf (object_parts h)
    · exact map_partsFrom h
  · cases h
  · cases h

theorem ofMembers_partsFrom (h : ofMembers place members = .ok shape) :
    PartsFrom members shape := by
  simp only [ofMembers] at h
  split at h
  · exact partsFrom_of_leaf (reference_parts h)
  · split at h
    · cases h
    · split at h
      · exact oneOf_partsFrom h
      · exact typed_partsFrom h
end Schema

variable {place : Place} {schema : Value}

/-- A shape with parts takes them from one member of the schema. -/
theorem partsFrom_of_classify {shape : Shape} (h : classify place schema = .ok shape) :
    ∃ members, schema = .map members ∧ Schema.PartsFrom members shape := by
  unfold classify at h
  split at h
  · exact ⟨_, rfl, Schema.ofMembers_partsFrom h⟩
  · cases h

/-- The alternatives of a choice are parts of the schema. -/
theorem sizeOf_options {options : List Value}
    (h : classify place schema = .ok (.oneOf options)) : sizeOf options < sizeOf schema := by
  obtain ⟨members, rfl, from_⟩ := partsFrom_of_classify h
  rcases from_ with ⟨_, same, found⟩ | ⟨_, same, _⟩ | ⟨_, same, _⟩ | leaf
  · cases same
    have := Members.sizeOf_get? found
    simp at this ⊢
    omega
  · cases same
  · cases same
  · simp only [Shape.parts] at leaf
    subst leaf
    cases members <;> simp only [Value.map.sizeOf_spec, List.nil.sizeOf_spec,
      List.cons.sizeOf_spec] <;> omega

/-- The items of a list are a part of the schema. -/
theorem sizeOf_items {items : Value} (h : classify place schema = .ok (.array items)) :
    sizeOf items < sizeOf schema := by
  obtain ⟨members, rfl, from_⟩ := partsFrom_of_classify h
  rcases from_ with ⟨_, same, _⟩ | ⟨_, same, found⟩ | ⟨_, same, _⟩ | leaf
  · cases same
  · cases same
    have := Members.sizeOf_get? found
    simp
    omega
  · cases same
  · simp [Shape.parts] at leaf

/-- The values of a map are a part of the schema. -/
theorem sizeOf_values {values : Value} (h : classify place schema = .ok (.map values)) :
    sizeOf values < sizeOf schema := by
  obtain ⟨members, rfl, from_⟩ := partsFrom_of_classify h
  rcases from_ with ⟨_, same, _⟩ | ⟨_, same, _⟩ | ⟨_, same, found⟩ | leaf
  · cases same
  · cases same
  · cases same
    have := Members.sizeOf_get? found
    simp
    omega
  · simp [Shape.parts] at leaf

end TypedApi
