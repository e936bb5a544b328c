import Mathlib.Data.List.Basic
import Mathlib.Data.List.Induction
import Mathlib.Data.List.TakeWhile
import StateMarkup.Text.Lines

/-!
# The line of a place

A place in a text has a line: what stands between the line feed before it and the end of a line
behind it (`Text.IsLine`). The lines that a text is cut into are numbered by the line feeds in front
of them, so the line of a place is found by counting the line feeds before the place
(`Text.exists_line_of_place`).
-/

namespace StateMarkup.Text

/-- **A line of a text**, with what is above and below it. It ends before a line feed, or before a
carriage return and a line feed, or with the text. -/
structure IsLine (text above line below : List Char) : Prop where
  whole : text = above ++ line ++ below
  unbroken : '\n' ∉ line
  begins : above = [] ∨ above.getLast? = some '\n'
  ends : below = [] ∨ ['\n'] <+: below ∨ ['\r', '\n'] <+: below

/-- A character that is no line feed goes on with the line. Lines are collected backwards, so it
comes first in what is collected. -/
theorem splitLines_cons {c : Char} (goes_on : c ≠ '\n') (line rest : List Char) :
    splitLines line (c :: rest) = splitLines (c :: line) rest := if_neg goes_on

/-- A line feed behind a carriage return ends the line before both. -/
theorem splitLines_return (line rest : List Char) :
    splitLines ('\r' :: line) ('\n' :: rest) = line.reverse :: splitLines [] rest := rfl

/-- Any other line feed ends the line before it alone. -/
theorem splitLines_feed {line : List Char} (plain : line.head? ≠ some '\r') (rest : List Char) :
    splitLines line ('\n' :: rest) = line.reverse :: splitLines [] rest := by
  cases line with
  | nil => rfl
  | cons c line =>
    have other : c ≠ '\r' := by simpa using plain
    simp [splitLines, other]

/-- Characters that do not end a line go on with it, all of them at once. -/
theorem splitLines_append_of_not_mem {cs : List Char} (unbroken : '\n' ∉ cs)
    (line rest : List Char) :
    splitLines line (cs ++ rest) = splitLines (cs.reverse ++ line) rest := by
  induction cs generalizing line with
  | nil => rfl
  | cons c cs ih =>
    have apart := List.ne_of_not_mem_cons unbroken
    rw [List.cons_append, splitLines_cons apart.symm, ih (List.not_mem_of_not_mem_cons unbroken),
      List.reverse_cons, List.append_assoc]
    rfl

/-- The lines above a place are as many as the line feeds before it, and what stands between the
last of these and the place begins the line of the place. The induction goes back from the place,
since each line feed before it ends one line. -/
theorem exists_splitLines_append (before rest : List Char) :
    ∃ above lead lines, before = above ++ lead ∧ '\n' ∉ lead ∧
      (above = [] ∨ above.getLast? = some '\n') ∧ lines.length = before.count '\n' ∧
      splitLines [] (before ++ rest) = lines ++ splitLines lead.reverse rest := by
  induction before using List.reverseRecOn generalizing rest with
  | nil => exact ⟨[], [], [], by simp⟩
  | append_singleton before c ih =>
    obtain ⟨above, lead, lines, rfl, unbroken, begins, counted, split⟩ := ih (c :: rest)
    have again : above ++ lead ++ [c] ++ rest = above ++ lead ++ c :: rest := by simp
    rw [again, split]
    by_cases feed : c = '\n'
    · subst feed
      obtain ⟨ended, whole⟩ : ∃ ended, splitLines lead.reverse ('\n' :: rest) =
          ended :: splitLines [] rest := ⟨_, rfl⟩
      refine ⟨above ++ lead ++ ['\n'], [], lines ++ [ended], by simp, by simp, by simp, ?_, ?_⟩
      · simp [counted, Nat.add_assoc]
      · simp [whole]
    · refine ⟨above, lead ++ [c], lines, by simp, ?_, begins, ?_, ?_⟩
      · simpa [Ne.symm feed] using unbroken
      · simpa [feed] using counted
      · simp [splitLines_cons feed]

/-- From a character that ends no line on, the line goes on to the next end of a line. That is a
line feed, or a carriage return in front of one, which is not part of the line either; a carriage
return elsewhere is. -/
theorem exists_splitLines_cons (line rest : List Char) {c : Char} (feed : c ≠ '\n')
    (returns : c ≠ '\r') :
    ∃ tail below more, rest = tail ++ below ∧ '\n' ∉ tail ∧
      (below = [] ∨ ['\n'] <+: below ∨ ['\r', '\n'] <+: below) ∧
      splitLines line (c :: rest) = (line.reverse ++ c :: tail) :: more := by
  have unbroken : '\n' ∉ rest.takeWhile (· != '\n') := fun h => by
    simpa using List.mem_takeWhile_imp h
  -- the line is read up to the next line feed, and then that is looked at
  have onward := splitLines_append_of_not_mem unbroken (c :: line) (rest.dropWhile (· != '\n'))
  rw [List.takeWhile_append_dropWhile] at onward
  rw [splitLines_cons feed, onward]
  have whole := List.takeWhile_append_dropWhile (p := (· != '\n')) (l := rest)
  have next := List.head?_dropWhile_not (· != '\n') rest
  generalize rest.takeWhile (· != '\n') = tail at unbroken whole
  generalize rest.dropWhile (· != '\n') = below at whole next
  subst whole
  cases below with
  | nil => exact ⟨tail, [], [], rfl, unbroken, .inl rfl, by simp [splitLines]⟩
  | cons d more =>
    obtain rfl : d = '\n' := by simpa using next
    by_cases plain : (tail.reverse ++ c :: line).head? = some '\r'
    · -- the carriage return is behind the character, and belongs to the end of the line
      rcases tail.eq_nil_or_concat' with rfl | ⟨tail, last, rfl⟩
      · exact absurd plain (by simpa using returns)
      · obtain rfl : last = '\r' := by simpa using plain
        refine ⟨tail, '\r' :: '\n' :: more, splitLines [] more, by simp,
          fun h => unbroken (List.mem_append_left _ h), .inr (.inr ⟨more, rfl⟩), ?_⟩
        simp [splitLines_return]
    · refine ⟨tail, '\n' :: more, splitLines [] more, rfl, unbroken, .inr (.inl ⟨more, rfl⟩), ?_⟩
      simp [splitLines_feed plain]

/-- **The line of a place.** A character that ends no line stands on the line with the number of the
line feeds before it, behind what is before it on that line. -/
theorem exists_line_of_place (before rest : List Char) {c : Char} (feed : c ≠ '\n')
    (returns : c ≠ '\r') :
    ∃ above lead tail below, before = above ++ lead ∧ rest = tail ++ below ∧
      IsLine (before ++ c :: rest) above (lead ++ c :: tail) below ∧
      (splitLines [] (before ++ c :: rest))[before.count '\n']? = some (lead ++ c :: tail) := by
  obtain ⟨above, lead, lines, split, unbroken, begins, counted, lines_above⟩ :=
    exists_splitLines_append before (c :: rest)
  obtain ⟨tail, below, more, rest_split, tail_unbroken, ends, lines_on⟩ :=
    exists_splitLines_cons lead.reverse rest feed returns
  refine ⟨above, lead, tail, below, split, rest_split, ⟨?_, ?_, begins, ends⟩, ?_⟩
  · simp [split, rest_split]
  · simp [unbroken, tail_unbroken, Ne.symm feed]
  · rw [lines_above, lines_on, ← counted]
    simp

end StateMarkup.Text
