/-!
# Positions in a document

A `Cursor` is a place between two characters. It counts lines and columns from one, columns in
characters, and keeps the number of bytes before it. A `Span` is the stretch between two cursors,
named by where it starts and by its two byte offsets.

The only way a cursor moves is over a character, so where it stands is a function of the text
behind it: `Cursor.past_append` splits that text at any place.
-/

namespace StateMarkup

/-- A stretch of the document: line and column of its first character, and the byte offsets of its
two ends. -/
structure Span where
  /-- the line it starts on, from one -/
  line : Nat
  /-- the column it starts in, from one, in characters -/
  col : Nat
  /-- the number of bytes before it -/
  start : Nat
  /-- the number of bytes before its end -/
  stop : Nat
deriving DecidableEq, Repr

/-- A place in the document. -/
structure Cursor where
  /-- the line, from one -/
  line : Nat
  /-- the column, from one, in characters -/
  col : Nat
  /-- the number of bytes before the place -/
  offset : Nat
deriving DecidableEq, Repr

namespace Cursor

/-- Where every document begins. -/
def origin : Cursor := ⟨1, 1, 0⟩

/-- The place after one more character: a line feed starts the next line. -/
def advance (c : Cursor) (ch : Char) : Cursor :=
  if ch = '\n' then ⟨c.line + 1, 1, c.offset + ch.utf8Size⟩
  else ⟨c.line, c.col + 1, c.offset + ch.utf8Size⟩

/-- The place after a run of characters. -/
def past (c : Cursor) (chars : List Char) : Cursor :=
  chars.foldl advance c

/-- The stretch from one cursor to another. -/
def spanTo (c d : Cursor) : Span := ⟨c.line, c.col, c.offset, d.offset⟩

@[simp] theorem past_nil (c : Cursor) : c.past [] = c := rfl

@[simp] theorem past_cons (c : Cursor) (ch : Char) (chars : List Char) :
    c.past (ch :: chars) = (c.advance ch).past chars := rfl

/-- Moving over two runs is moving over the first and then over the second. -/
theorem past_append (c : Cursor) (before after : List Char) :
    c.past (before ++ after) = (c.past before).past after := by
  simp [past]

/-- Every character moves the offset by its own number of bytes. -/
@[simp] theorem advance_offset (c : Cursor) (ch : Char) :
    (c.advance ch).offset = c.offset + ch.utf8Size := by
  unfold advance; split <;> rfl

end Cursor

end StateMarkup
