import StateMarkup.Node
import StateMarkup.SyntaxError
import StateMarkup.Text.Blank
import StateMarkup.Token.Lexer

/-!
# Reading the tree of a document

The tokens are read one at a time. A `Parser` knows which elements are open, the innermost first,
and whether it stands inside a begin tag or among the contents of the innermost element; from
there `Parser.step` is the whole grammar:

* inside a begin tag every token up to `>` is kept, and `readAttributes` then takes each
  `name = " value "` among them and skips the rest, one token at a time, with a warning;
* among contents, a begin tag opens an element, text that follows text joins it, a close tag closes
  the innermost element whatever its name (a wrong name marks the element `unknown`, with a
  warning), and any other token is an error that does not stop the reading;
* a begin tag inside `maxDepth` open elements stops the reading, as does any token after the root.

A document is read if no error has been met and its root is closed when the tokens end. What stands
behind the first end-of-document token is never looked at.
-/

namespace StateMarkup

/-! ## Names inside tags -/

/-- A text without one given start, if it has it. -/
def dropStart (start cs : List Char) : List Char :=
  if start.isPrefixOf cs then cs.drop start.length else cs

/-- The name in a begin tag. -/
def beginTagName (literal : String) : String :=
  String.ofList (dropStart ['<'] literal.toList)

/-- The name in a close tag, without white space around it. -/
def closeTagName (literal : String) : String :=
  let inner := dropStart ['<', '/'] literal.toList
  String.ofList (Text.trimChars (dropStart ['>'] inner.reverse).reverse)

/-- The name in a begin tag that is not opened: all its brackets are taken away. -/
def strayTagName (literal : String) : String :=
  String.ofList (literal.toList.dropWhile (· == '<'))

/-! ## Attributes -/

/-- The attributes among the tokens of a begin tag, and a warning for each token that belongs to
none. -/
def readAttributes : List Lexeme → List Attribute × List SyntaxWarning
  | ⟨.text name, _⟩ :: ⟨.assign, _⟩ :: ⟨.quote, _⟩ :: ⟨.text value, _⟩ :: ⟨.quote, _⟩ :: rest =>
    let (attributes, warnings) := readAttributes rest
    (⟨name, value⟩ :: attributes, warnings)
  | lexeme :: rest =>
    let (attributes, warnings) := readAttributes rest
    (attributes, .skippedToken lexeme.token.literal lexeme.span :: warnings)
  | [] => ([], [])

/-! ## Open elements -/

/-- An element whose begin tag has been read and whose close tag has not. -/
structure OpenElement where
  name : String
  attributes : List Attribute
  /-- what has been read of its contents, the newest first -/
  children : List Node
deriving Repr

namespace OpenElement

/-- One more child. -/
def push (e : OpenElement) (child : Node) : OpenElement :=
  ⟨e.name, e.attributes, child :: e.children⟩

/-- A word among the contents: it joins the text it follows. -/
def pushText (e : OpenElement) (word : String) : OpenElement :=
  match e.children with
  | ⟨.text, text, attributes, children⟩ :: older =>
    ⟨e.name, e.attributes, ⟨.text, text ++ word, attributes, children⟩ :: older⟩
  | _ => e.push (.ofText word)

/-- The element once a close tag of the name `closed` has been read. -/
def toNode (e : OpenElement) (closed : String) : Node :=
  ⟨if closed = e.name then .element else .unknown, e.name, e.attributes, e.children.reverse⟩

end OpenElement

/-! ## The parser -/

/-- Where the parser stands. -/
inductive Stage where
  /-- before the root -/
  | start
  /-- inside the begin tag of the name, with its tokens so far (the newest first) -/
  | inTag (name : String) (run : List Lexeme) (outer : List OpenElement)
  /-- among the contents of the innermost open element -/
  | inContent (innermost : OpenElement) (outer : List OpenElement)
  /-- behind the root -/
  | closed (root : Node)
  /-- behind an error that ends the reading -/
  | stopped (error : SyntaxError)
deriving Repr

/-- What has been read so far; errors and warnings with the newest first. -/
structure Parser where
  stage : Stage
  strays : List SyntaxError
  warnings : List SyntaxWarning
deriving Repr

/-- A tree and what was mended on the way. -/
structure Document where
  root : Node
  warnings : List SyntaxWarning
deriving DecidableEq, Repr

namespace Parser

/-- Nothing has been read. -/
def init : Parser := ⟨.start, [], []⟩

/-- The parser at another stage. -/
def goto (p : Parser) (stage : Stage) : Parser := ⟨stage, p.strays, p.warnings⟩

/-- The parser behind the end of a begin tag. -/
def openElement (p : Parser) (name : String) (run : List Lexeme) (outer : List OpenElement) :
    Parser :=
  let (attributes, warnings) := readAttributes run.reverse
  ⟨.inContent ⟨name, attributes, []⟩ outer, p.strays, warnings.reverse ++ p.warnings⟩

/-- The parser behind the close tag of the innermost element. -/
def closeElement (p : Parser) (e : OpenElement) (outer : List OpenElement) (literal : String)
    (span : Span) : Parser :=
  let closed := closeTagName literal
  let warnings :=
    if closed = e.name then p.warnings
    else .mismatchedCloseTag e.name closed span :: p.warnings
  match outer with
  | [] => ⟨.closed (e.toNode closed), p.strays, warnings⟩
  | parent :: outer => ⟨.inContent (parent.push (e.toNode closed)) outer, p.strays, warnings⟩

/-- The parser behind one more token. -/
def step (p : Parser) (lexeme : Lexeme) : Parser :=
  match p.stage with
  | .start =>
    match lexeme.token with
    | .beginTag literal => p.goto (.inTag (beginTagName literal) [] [])
    | token => p.goto (.stopped (.unexpectedToken .beginTag token lexeme.span))
  | .inTag name run outer =>
    if lexeme.token.isEndTag then p.openElement name run outer
    else p.goto (.inTag name (lexeme :: run) outer)
  | .inContent e outer =>
    match lexeme.token with
    | .closeTag literal => p.closeElement e outer literal lexeme.span
    | .beginTag literal =>
      if outer.length + 1 < maxDepth then p.goto (.inTag (beginTagName literal) [] (e :: outer))
      else p.goto (.stopped (.tooDeep lexeme.span))
    | .text word => p.goto (.inContent (e.pushText word) outer)
    | token => ⟨p.stage, .unexpectedToken .content token lexeme.span :: p.strays, p.warnings⟩
  | .closed _ =>
    match lexeme.token with
    | .beginTag literal => p.goto (.stopped (.secondRoot (strayTagName literal) lexeme.span))
    | token => p.goto (.stopped (.unexpectedToken .endOfInput token lexeme.span))
  | .stopped _ => p

/-- The parser behind several tokens. -/
def feed (p : Parser) (lexemes : List Lexeme) : Parser := lexemes.foldl step p

/-- What has been read when the tokens end here: the tree, or all errors in order. -/
def finish (p : Parser) : Except (List SyntaxError) Document :=
  match p.stage with
  | .start => .error [.emptyDocument]
  | .inTag name _ _ => .error (p.strays.reverse ++ [.unexpectedEnd .endTag name])
  | .inContent e _ => .error (p.strays.reverse ++ [.unexpectedEnd (.closeTag e.name) e.name])
  | .closed root =>
    if p.strays.isEmpty then
      .ok ⟨⟨.root, root.name, root.attributes, root.children⟩, p.warnings.reverse⟩
    else .error p.strays.reverse
  | .stopped error => .error (p.strays.reverse ++ [error])

theorem feed_append (p : Parser) (before after : List Lexeme) :
    p.feed (before ++ after) = (p.feed before).feed after := List.foldl_append

/-- Nothing is read behind an error that ends the reading. -/
theorem feed_stopped (error : SyntaxError) (strays : List SyntaxError)
    (warnings : List SyntaxWarning) (lexemes : List Lexeme) :
    feed ⟨.stopped error, strays, warnings⟩ lexemes = ⟨.stopped error, strays, warnings⟩ := by
  induction lexemes with
  | nil => rfl
  | cons _ _ ih => exact ih

end Parser

/-- The tree of a list of tokens. -/
def Document.ofLexemes (lexemes : List Lexeme) : Except (List SyntaxError) Document :=
  (Parser.init.feed (lexemes.takeWhile (!·.token.isEof))).finish

/-- The tree of a text. -/
def Document.parse (source : String) : Except (List SyntaxError) Document :=
  ofLexemes (tokenize source)

end StateMarkup
