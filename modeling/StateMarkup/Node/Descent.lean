import StateMarkup.Node.Parser

/-!
# Recursive descent

The tree of a document once more, with a function for each part of the grammar: `Descent.element`
reads an element from its begin tag to its close tag, and calls itself for those inside. A `Reader`
holds all tokens and the place of the next one. The places are looked at one by one, up to five
ahead where an attribute may begin, and nothing but an end of the document keeps a reader from
running past the last token.

The loops and calls take a number of steps that they may need at most. A descent that needs more
stops, as does one that looks where no token is; `Stop` tells these from an error in the document.
-/

namespace StateMarkup

/-- Why a part of a descent has nothing to give. -/
inductive Stop where
  /-- an error that ends the reading -/
  | failed (error : SyntaxError)
  /-- a look at a place where no token is -/
  | outOfRange
  /-- the need for more steps than were granted -/
  | outOfSteps
deriving DecidableEq, Repr

/-- The tokens and the place of the next one, with what has been met on the way, oldest first. -/
structure Reader where
  tokens : List Lexeme
  place : Nat
  errors : List SyntaxError
  warnings : List SyntaxWarning
  /-- the number of elements that are open -/
  depth : Nat
deriving DecidableEq, Repr

namespace Reader

/-- Before the first token. Tokens that do not end with an end of the document get one, which has
the last offset but neither a line nor a column. -/
def start (lexemes : List Lexeme) : Reader :=
  let stop := (lexemes.getLast?.map (·.span.stop)).getD 0
  let ended := lexemes.getLast?.any (·.token.isEof)
  ⟨if ended then lexemes else lexemes ++ [⟨.eof, ⟨0, 0, stop, stop⟩⟩], 0, [], [], 0⟩

/-- The kind of the token so many places ahead; there are only ends of the document behind the last
token. -/
def kindAhead (r : Reader) (n : Nat) : TokenKind :=
  ((r.tokens[r.place + n]?).map (·.token.kind)).getD .eof

/-- Behind the next token. -/
def next (r : Reader) : Reader := ⟨r.tokens, r.place + 1, r.errors, r.warnings, r.depth⟩

/-- With one more error. -/
def note (r : Reader) (error : SyntaxError) : Reader :=
  ⟨r.tokens, r.place, r.errors ++ [error], r.warnings, r.depth⟩

/-- With one more warning. -/
def warn (r : Reader) (warning : SyntaxWarning) : Reader :=
  ⟨r.tokens, r.place, r.errors, r.warnings ++ [warning], r.depth⟩

/-- At another depth. -/
def atDepth (r : Reader) (depth : Nat) : Reader :=
  ⟨r.tokens, r.place, r.errors, r.warnings, depth⟩

end Reader

/-- A part of a descent. -/
abbrev Descent := EStateM Stop Reader

namespace Descent

/-- The next token. -/
def current : Descent Lexeme := fun r =>
  match r.tokens[r.place]? with
  | some l => .ok l r
  | none => .error .outOfRange r

/-- The next token, behind which the reader goes unless it is the end of the document. -/
def advance : Descent Lexeme := do
  let l ← current
  if l.token.isEof then return l
  else
    modify Reader.next
    return l

/-- The next token, which must be of the kind, for the named element. -/
def expect (kind : TokenKind) (expected : Expectation) (name : String) : Descent Lexeme := do
  let l ← current
  if l.token.kind = kind then advance
  else if l.token.isEof then throw (.failed (.unexpectedEnd expected name))
  else throw (.failed (.unexpectedToken expected l.token l.span))

/-! ## Begin tags -/

/-- The kinds of the tokens of an attribute. -/
def attributeShape : List TokenKind := [.text, .assign, .quote, .text, .quote]

/-- True where the next tokens are those of an attribute. -/
def atAttribute : Descent Bool := do
  let r ← get
  return attributeShape.zipIdx.all fun (kind, n) => r.kindAhead n == kind

/-- The attribute that the next tokens are. -/
def oneAttribute : Descent Attribute := do
  let key ← advance
  let _ ← advance
  let _ ← advance
  let value ← advance
  let _ ← advance
  return ⟨key.token.literal, value.token.literal⟩

/-- Skips a token with which no attribute begins. -/
def skip : Descent Unit := do
  let l ← advance
  modify (·.warn (.skippedToken l.token.literal l.span))

/-- The attributes up to the end of the begin tag of the named element, behind those that have been
read. -/
def attributes (name : String) : Nat → List Attribute → Descent (List Attribute)
  | 0, _ => throw .outOfSteps
  | steps + 1, read => do
    let l ← current
    match l.token with
    | .endTag => return read
    | .eof => throw (.failed (.unexpectedEnd .endTag name))
    | _ =>
      if ← atAttribute then
        let next ← oneAttribute
        attributes name steps (read ++ [next])
      else
        skip
        attributes name steps read

/-! ## Elements -/

/-- A run of words, behind what has been read of it. -/
def words : Nat → String → Descent String
  | 0, _ => throw .outOfSteps
  | steps + 1, read => do
    let l ← current
    match l.token with
    | .text word =>
      let _ ← advance
      words steps (read ++ word)
    | _ => return read

/-- Passes over a token that may not stand among contents. -/
def passOver : Descent Unit := do
  let l ← current
  modify (·.note (.unexpectedToken .content l.token l.span))
  let _ ← advance

/-- The element whose close tag is the next token. -/
def close (e : OpenElement) : Descent Node := do
  let l ← advance
  let closed := closeTagName l.token.literal
  if closed = e.name then return e.toNode closed
  else
    modify (·.warn (.mismatchedCloseTag e.name closed l.span))
    return e.toNode closed

/-- A part that is read one level further down. -/
def within {α : Type} (part : Descent α) : Descent α := fun r =>
  match part (r.atDepth (r.depth + 1)) with
  | .ok a r => .ok a (r.atDepth (r.depth - 1))
  | .error stop r => .error stop (r.atDepth (r.depth - 1))

/-- An element, for which it is said how to read what stands inside. -/
def body (steps : Nat) (inside : OpenElement → Descent OpenElement) : Descent Node := do
  let opening ← expect .beginTag .beginTag "element"
  let name := beginTagName opening.token.literal
  let read ← attributes name steps []
  let _ ← expect .endTag .endTag name
  let e ← inside ⟨name, read, []⟩
  close e

mutual

/-- An element, unless as many are open as may be. -/
def element : Nat → Descent Node
  | 0 => throw .outOfSteps
  | steps + 1 => do
    let r ← get
    if maxDepth ≤ r.depth then
      let l ← current
      throw (.failed (.tooDeep l.span))
    else within (body steps (contents steps))

/-- What stands inside an element, up to its close tag. -/
def contents : Nat → OpenElement → Descent OpenElement
  | 0, _ => throw .outOfSteps
  | steps + 1, e => do
    let l ← current
    match l.token with
    | .closeTag _ => return e
    | .eof => throw (.failed (.unexpectedEnd (.closeTag e.name) e.name))
    | .beginTag _ =>
      let child ← element steps
      contents steps (e.push child)
    | .text _ =>
      let text ← words steps ""
      contents steps (e.push (.ofText text))
    | _ =>
      passOver
      contents steps e

end

/-! ## Documents -/

/-- A part without which the descent goes on: the error that ends it is noted. -/
def noting {α : Type} (part : Descent α) : Descent (Option α) := fun r =>
  match part r with
  | .ok a r => .ok (some a) r
  | .error (.failed error) r => .ok none (r.note error)
  | .error stop r => .error stop r

/-- The element at the top, if there is one. -/
def root? (steps : Nat) : Descent (Option Node) := do
  let l ← current
  match l.token with
  | .eof => throw (.failed .emptyDocument)
  | .beginTag _ => noting (element steps)
  | token =>
    modify (·.note (.unexpectedToken .beginTag token l.span))
    return none

/-- Nothing may stand behind the element at the top. -/
def ending : Descent Unit := do
  let l ← current
  match l.token with
  | .eof => return ()
  | .beginTag literal => modify (·.note (.secondRoot (strayTagName literal) l.span))
  | token => modify (·.note (.unexpectedToken .endOfInput token l.span))

/-- A whole document. -/
def document (steps : Nat) : Descent (Except (List SyntaxError) Document) := do
  match ← root? steps with
  | none =>
    let r ← get
    return .error r.errors
  | some root =>
    ending
    let r ← get
    if r.errors.isEmpty then
      return .ok ⟨⟨.root, root.name, root.attributes, root.children⟩, r.warnings⟩
    else return .error r.errors

/-- What is read of a list of tokens in so many steps, or why there is no answer. -/
def read (steps : Nat) (lexemes : List Lexeme) :
    Except Stop (Except (List SyntaxError) Document) :=
  match document steps (.start lexemes) with
  | .ok result _ => .ok result
  | .error (.failed error) _ => .ok (.error [error])
  | .error stop _ => .error stop

end Descent

end StateMarkup
