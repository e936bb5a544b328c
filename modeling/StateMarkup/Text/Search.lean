/-!
# Finding text in text

Whether a text starts with another or holds it anywhere. `isInfixOf_iff` says what the second means.
-/

namespace StateMarkup.Text

/-- Whether some part of a list is the other list. -/
def isInfixOf {α : Type} [BEq α] (needle : List α) : List α → Bool
  | [] => needle.isEmpty
  | a :: rest => needle.isPrefixOf (a :: rest) || isInfixOf needle rest

/-- Whether a text starts with another. -/
def startsWith (text start : String) : Bool := start.toList.isPrefixOf text.toList

/-- Whether a text holds another. -/
def holds (text part : String) : Bool := isInfixOf part.toList text.toList

/-- A list holds another if it is made of something, the other, and something. -/
theorem isInfixOf_iff {α : Type} [BEq α] [LawfulBEq α] {needle hay : List α} :
    isInfixOf needle hay = true ↔ ∃ before after, hay = before ++ needle ++ after := by
  induction hay with
  | nil =>
    simp only [isInfixOf, List.isEmpty_iff]
    constructor
    · rintro rfl
      exact ⟨[], [], rfl⟩
    · rintro ⟨before, after, h⟩
      have := congrArg List.length h
      simp only [List.length_nil, List.length_append] at this
      exact List.eq_nil_of_length_eq_zero (by omega)
  | cons a rest ih =>
    simp only [isInfixOf, Bool.or_eq_true, List.isPrefixOf_iff_prefix, ih]
    constructor
    · rintro (⟨after, h⟩ | ⟨before, after, h⟩)
      · exact ⟨[], after, h.symm⟩
      · exact ⟨a :: before, after, by rw [h]; rfl⟩
    · rintro ⟨before, after, h⟩
      cases before with
      | nil => exact .inl ⟨after, h.symm⟩
      | cons b before => exact .inr ⟨before, after, (List.cons.inj h).2⟩

end StateMarkup.Text
