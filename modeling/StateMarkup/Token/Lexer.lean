import StateMarkup.Token

/-!
# Cutting a document into tokens

`Token.read` takes the first token of a text that does not start with a blank: the longest word,
a begin tag with the longest word behind it, a close tag up to its `>` (or, if there is none, the
whole rest), or a single character. `Token.literal_read` says that nothing is lost: the literal
and the rest make up the text again.

A `Lexer` is a place in the document and the text from there on. `Lexer.next` skips blanks and
takes one token, at the end the end-of-document token, again and again. `tokenize` takes them all,
up to and with the first of these.
-/

namespace StateMarkup

/-- The text up to and with the first `>`, and the text after it; all of it if there is none. -/
def throughBracket (cs : List Char) : List Char × List Char :=
  match cs.dropWhile (· != '>') with
  | bracket :: rest => (cs.takeWhile (· != '>') ++ [bracket], rest)
  | [] => (cs, [])

/-- The two parts are the text. -/
theorem throughBracket_append (cs : List Char) :
    (throughBracket cs).1 ++ (throughBracket cs).2 = cs := by
  unfold throughBracket
  split
  · rename_i bracket rest h
    have := List.takeWhile_append_dropWhile (p := (· != '>')) (l := cs)
    rw [h] at this
    simpa using this
  · simp

/-- The first token of the text of `c` and `cs`, where `c` is no blank, and the text after it. -/
def Token.read (c : Char) (cs : List Char) : Token × List Char :=
  if c = '<' then
    match cs with
    | '/' :: _ =>
      (.closeTag (String.ofList ('<' :: (throughBracket cs).1)), (throughBracket cs).2)
    | d :: _ =>
      if isWordChar d then
        (.beginTag (String.ofList ('<' :: cs.takeWhile isWordChar)), cs.dropWhile isWordChar)
      else (.illegal '<', cs)
    | [] => (.illegal '<', [])
  else if c = '>' then (.endTag, cs)
  else if c = '"' then (.quote, cs)
  else if c = '=' then (.assign, cs)
  else if isWordChar c then
    (.text (String.ofList (c :: cs.takeWhile isWordChar)), cs.dropWhile isWordChar)
  else (.illegal c, cs)

/-- **Nothing is lost.** The literal and the rest make up the text. -/
theorem Token.literal_read (c : Char) (cs : List Char) :
    (Token.read c cs).1.literal.toList ++ (Token.read c cs).2 = c :: cs := by
  unfold Token.read
  split
  · subst_vars
    split
    · simpa [Token.literal] using throughBracket_append _
    · split
      · simp [Token.literal]
      · simp [Token.literal, Char.toString]
    · simp [Token.literal, Char.toString]
  · split
    · subst_vars; simp [Token.literal]
    · split
      · subst_vars; simp [Token.literal]
      · split
        · subst_vars; simp [Token.literal]
        · split <;> simp [Token.literal, Char.toString]

/-- A token that is read is not the end of the document. -/
theorem Token.isEof_read (c : Char) (cs : List Char) : (Token.read c cs).1.isEof = false := by
  unfold Token.read
  repeat' split
  all_goals rfl

/-- What is left is shorter. -/
theorem Token.length_read_lt (c : Char) (cs : List Char) :
    (Token.read c cs).2.length < (c :: cs).length := by
  have dropped : ∀ p : Char → Bool, (cs.dropWhile p).length ≤ cs.length := fun p =>
    (List.dropWhile_suffix p).length_le
  have through : (throughBracket cs).2.length ≤ cs.length := by
    have := congrArg List.length (throughBracket_append cs)
    simp only [List.length_append] at this
    omega
  have := dropped isWordChar
  unfold Token.read
  repeat' split
  all_goals simp only [List.length_cons, List.length_nil] at *
  all_goals omega

/-- A place in the document and the text from there on. -/
structure Lexer where
  cursor : Cursor
  rest : List Char
deriving DecidableEq, Repr

namespace Lexer

/-- The lexer at the start of a document. -/
def ofString (source : String) : Lexer := ⟨.origin, source.toList⟩

/-- The lexer behind the blanks it stands before. -/
def skipBlanks (l : Lexer) : Lexer :=
  ⟨l.cursor.past (l.rest.takeWhile isBlank), l.rest.dropWhile isBlank⟩

/-- The token that starts where the lexer stands, and the lexer behind it. -/
def take (l : Lexer) : Lexeme × Lexer :=
  match l.rest with
  | [] => (⟨.eof, l.cursor.spanTo l.cursor⟩, l)
  | c :: cs =>
    let token := (Token.read c cs).1
    let there := l.cursor.past token.literal.toList
    (⟨token, l.cursor.spanTo there⟩, ⟨there, (Token.read c cs).2⟩)

/-- The next token and the lexer behind it. At the end of the document it stays there. -/
def next (l : Lexer) : Lexeme × Lexer := l.skipBlanks.take

/-- A token other than the end uses up some text. -/
theorem length_take_lt {l : Lexer} (h : l.take.1.token.isEof = false) :
    l.take.2.rest.length < l.rest.length := by
  unfold take at h ⊢
  split at h
  · simp [Token.isEof] at h
  · rename_i c cs hrest
    simpa [hrest] using Token.length_read_lt c cs

/-- A token other than the end uses up some text, blanks before it or not. -/
theorem length_next_lt {l : Lexer} (h : l.next.1.token.isEof = false) :
    l.next.2.rest.length < l.rest.length :=
  Nat.lt_of_lt_of_le (length_take_lt h) (List.dropWhile_suffix _).length_le

/-- The tokens before the end, the first of them after those already `read` (newest first), and
the lexer that is left, which stands at the end. -/
def collect (l : Lexer) (read : List Lexeme) : List Lexeme × Lexer :=
  if l.next.1.token.isEof then (read.reverse, l)
  else l.next.2.collect (l.next.1 :: read)
termination_by l.rest.length
decreasing_by rename_i h; exact length_next_lt (Bool.eq_false_iff.mpr h)

end Lexer

/-- All tokens of a document, the last of them its end. -/
def tokenize (source : String) : List Lexeme :=
  let (lexemes, last) := (Lexer.ofString source).collect []
  lexemes ++ [last.next.1]

end StateMarkup
