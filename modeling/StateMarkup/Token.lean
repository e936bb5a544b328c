import StateMarkup.Position

/-!
# Tokens

The words of the markup. A begin tag is `<` and a word, and ends there: what follows up to the
next `>` are tokens of their own. A close tag is taken whole. Every token has a `literal`, the text
it stands for, and a description for messages; `Token.isEof` marks the end of the document.
-/

namespace StateMarkup

/-- A letter, a digit or an underscore, all of them ASCII. -/
def isWordChar (c : Char) : Bool := c.isAlphanum || c == '_'

/-- What may stand between tokens: space, tab, carriage return and line feed. -/
def isBlank (c : Char) : Bool := c == ' ' || c == '\t' || c == '\r' || c == '\n'

/-- The characters of words, one by one. -/
theorem isWordChar_iff {c : Char} :
    isWordChar c = true ↔
      ('A' ≤ c ∧ c ≤ 'Z') ∨ ('a' ≤ c ∧ c ≤ 'z') ∨ ('0' ≤ c ∧ c ≤ '9') ∨ c = '_' := by
  have ranges : isWordChar c = (decide ('A' ≤ c ∧ c ≤ 'Z') ||
      (decide ('a' ≤ c) && decide (c ≤ 'z')) || (decide ('0' ≤ c) && decide (c ≤ '9')) ||
      c == '_') := rfl
  simp only [ranges, Bool.or_eq_true, Bool.and_eq_true, decide_eq_true_eq, beq_iff_eq, or_assoc]

/-- The blanks, one by one. -/
theorem isBlank_iff {c : Char} :
    isBlank c = true ↔ c = ' ' ∨ c = '\t' ∨ c = '\r' ∨ c = '\n' := by
  simp [isBlank, or_assoc]

/-- No character is both part of a word and a blank. So a blank ends every word, and no word is lost
when blanks are skipped. -/
theorem isBlank_eq_false_of_isWordChar {c : Char} (h : isWordChar c = true) :
    isBlank c = false := by
  refine Bool.eq_false_iff.mpr fun blank => ?_
  rcases isBlank_iff.mp blank with rfl | rfl | rfl | rfl <;> exact absurd h (by decide)

/-- One token. Begin tags, close tags and text carry their literal. -/
inductive Token where
  /-- a left angle bracket and the name behind it -/
  | beginTag (literal : String)
  /-- the right angle bracket that ends a begin tag -/
  | endTag
  /-- a whole close tag -/
  | closeTag (literal : String)
  /-- a word -/
  | text (literal : String)
  /-- the equals sign of an attribute -/
  | assign
  /-- the double quote around an attribute's value -/
  | quote
  /-- the end of the document -/
  | eof
  /-- any other character -/
  | illegal (char : Char)
deriving DecidableEq, Repr

/-- The eight kinds of token. -/
inductive TokenKind where
  | beginTag
  | endTag
  | closeTag
  | text
  | assign
  | quote
  | eof
  | illegal
deriving DecidableEq, Repr

/-- What messages call a token of the kind. -/
def TokenKind.describe : TokenKind → String
  | .beginTag => "begin tag"
  | .endTag => "'>'"
  | .closeTag => "close tag"
  | .text => "text"
  | .assign => "'='"
  | .quote => "'\"'"
  | .eof => "end of input"
  | .illegal => "illegal character"

namespace Token

/-- The kind of a token. -/
def kind : Token → TokenKind
  | .beginTag _ => .beginTag
  | .endTag => .endTag
  | .closeTag _ => .closeTag
  | .text _ => .text
  | .assign => .assign
  | .quote => .quote
  | .eof => .eof
  | .illegal _ => .illegal

/-- The text a token stands for; the end of the document stands for none. -/
def literal : Token → String
  | .beginTag s => s
  | .endTag => ">"
  | .closeTag s => s
  | .text s => s
  | .assign => "="
  | .quote => "\""
  | .eof => ""
  | .illegal c => c.toString

/-- What messages call this token. -/
def describe : Token → String
  | .beginTag s => "begin tag '" ++ s ++ "'"
  | .endTag => "'>'"
  | .closeTag s => "close tag '" ++ s ++ "'"
  | .text s => "text '" ++ s ++ "'"
  | .assign => "'='"
  | .quote => "'\"'"
  | .eof => "end of input"
  | .illegal c => "illegal character '" ++ c.toString ++ "'"

/-- True of the end of the document only. -/
def isEof : Token → Bool
  | .eof => true
  | _ => false

/-- True of the bracket that ends a begin tag only. -/
def isEndTag : Token → Bool
  | .endTag => true
  | _ => false

@[simp] theorem isEof_iff (t : Token) : t.isEof = true ↔ t = .eof := by
  cases t <;> simp [isEof]

end Token

/-- A token and where it was read. -/
structure Lexeme where
  token : Token
  span : Span
deriving DecidableEq, Repr

end StateMarkup
