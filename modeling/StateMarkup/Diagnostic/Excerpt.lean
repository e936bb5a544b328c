import StateMarkup.Position
import StateMarkup.Text.Lines

/-!
# Excerpts

The part of a document around a span: the line on which the span starts with up to two lines before
it and two behind it, and under that line a row of carets. The carets begin below the column where
the span starts; there is one for every byte of the span, and always at least one.
-/

namespace StateMarkup

/-- A row of an excerpt. -/
inductive ExcerptRow where
  /-- a line of the document and its number -/
  | context (number : Nat) (line : String)
  /-- the line on which the span starts -/
  | marked (number : Nat) (line : String)
  /-- carets behind a margin -/
  | carets (margin count : Nat)
deriving DecidableEq, Repr

/-- The rows and the width of the largest line number. -/
structure Excerpt where
  width : Nat
  rows : List ExcerptRow
deriving DecidableEq, Repr

namespace Excerpt

/-- The rows of one line of the document. -/
def rowsOf (span : Span) (number : Nat) (line : String) : List ExcerptRow :=
  if number = span.line then
    [.marked number line, .carets (span.col - 1) (max (span.stop - span.start) 1)]
  else [.context number line]

/-- The lines with their numbers, those further than two away from the given one left out. -/
def nearby (lines : List String) (line : Nat) : List (Nat × String) :=
  ((lines.zipIdx 1).filter fun (_, number) => line ≤ number + 2 && number ≤ line + 2).map
    fun (text, number) => (number, text)

/-- The excerpt of a document around a span; none if the document has no such line. -/
def ofSource? (source : String) (span : Span) : Option Excerpt :=
  let lines := Text.lines source
  if lines.length ≤ span.line - 1 then none
  else
    some ⟨(toString (min (span.line + 2) lines.length)).length,
      (nearby lines span.line).flatMap fun (number, text) => rowsOf span number text⟩

end Excerpt

end StateMarkup
