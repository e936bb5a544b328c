import StateMarkup.Token

/-!
# What can be wrong with the tokens of a document

A `SyntaxError` fails the reading of a document, a `SyntaxWarning` does not: it says what was
skipped or mended on the way. Both are causes with positions; their wording is `message`.
-/

namespace StateMarkup

/-- The most elements that may stand open inside each other. -/
def maxDepth : Nat := 256

/-- What would have been right where a token was wrong. -/
inductive Expectation where
  /-- the begin tag of the root -/
  | beginTag
  /-- the bracket that ends a begin tag -/
  | endTag
  /-- anything that may stand inside an element -/
  | content
  /-- the close tag of the named element -/
  | closeTag (name : String)
  /-- nothing more -/
  | endOfInput
deriving DecidableEq, Repr

/-- How messages name what was expected. -/
def Expectation.describe : Expectation → String
  | .beginTag => TokenKind.beginTag.describe
  | .endTag => TokenKind.endTag.describe
  | .content => "element, text or close tag"
  | .closeTag name => "</" ++ name ++ ">"
  | .endOfInput => TokenKind.eof.describe

/-- A fault that no tree can be made of. -/
inductive SyntaxError where
  /-- there is no token at all -/
  | emptyDocument
  /-- a token that may not stand where it stands -/
  | unexpectedToken (expected : Expectation) (found : Token) (span : Span)
  /-- the document ends inside the named element -/
  | unexpectedEnd (expected : Expectation) (element : String)
  /-- a second element beside the root -/
  | secondRoot (name : String) (span : Span)
  /-- a begin tag inside `maxDepth` open elements -/
  | tooDeep (span : Span)
deriving DecidableEq, Repr

/-- A fault that was mended. -/
inductive SyntaxWarning where
  /-- a token inside a begin tag that belongs to no attribute -/
  | skippedToken (literal : String) (span : Span)
  /-- a close tag that names another element than the one it closes -/
  | mismatchedCloseTag (opened closed : String) (span : Span)
deriving DecidableEq, Repr

/-- The end of most messages: where the token stands. -/
def Span.describe (s : Span) : String :=
  " at line " ++ toString s.line ++ ", column " ++ toString s.col

namespace SyntaxError

/-- Where the fault is; the end of the document has no span. -/
def span? : SyntaxError → Option Span
  | .emptyDocument => none
  | .unexpectedToken _ _ span => some span
  | .unexpectedEnd _ _ => none
  | .secondRoot _ span => some span
  | .tooDeep span => some span

/-- The wording of an error. -/
def message : SyntaxError → String
  | .emptyDocument => "document is empty"
  | .unexpectedToken expected found span =>
    "expected " ++ expected.describe ++ ", got " ++ found.describe ++ span.describe
  | .unexpectedEnd expected element =>
    "unexpected end of input while parsing <" ++ element ++ ">, expected " ++ expected.describe
  | .secondRoot name span =>
    "unsupported input: second top-level element <" ++ name ++ ">" ++ span.describe
  | .tooDeep span =>
    "elements nested deeper than " ++ toString maxDepth ++ " levels" ++ span.describe

end SyntaxError

/-- Where the mended fault is. -/
def SyntaxWarning.span : SyntaxWarning → Span
  | .skippedToken _ span => span
  | .mismatchedCloseTag _ _ span => span

/-- The wording of a warning. -/
def SyntaxWarning.message : SyntaxWarning → String
  | .skippedToken literal span =>
    "skipped malformed attribute token '" ++ literal ++ "'" ++ span.describe
  | .mismatchedCloseTag opened closed span =>
    "<" ++ opened ++ "> closed by </" ++ closed ++ ">" ++ span.describe

/-- The first position among several errors. -/
def SyntaxError.firstSpan (errors : List SyntaxError) : Option Span :=
  errors.findSome? span?

/-- The wording of several errors, a line each. -/
def SyntaxError.report (errors : List SyntaxError) : String :=
  "\n".intercalate (errors.map message)

end StateMarkup
