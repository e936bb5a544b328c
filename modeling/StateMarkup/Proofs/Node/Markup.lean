import StateMarkup.Node.Parser

/-!
# Markup, token by token

`Markup` is what stands between two tags, with every token that it is written with: words, and
elements, each with its begin tag, what stands inside it and its close tag. `Markup.lexemes` writes
it out; what a reader makes of it is said by `Markup.fill`, which puts it into an open element, and
`Markup.warnings`.

`Parser.feed_lexemes`: reading markup that has been written out, and is not too high for where it
stands, is filling the innermost open element with it.
-/

namespace StateMarkup

/-- All that is reported of a begin tag is what was skipped in it. -/
theorem exists_skipped_of_mem_readAttributes {run : List Lexeme} {warning : SyntaxWarning}
    (h : warning ∈ (readAttributes run).2) :
    ∃ literal span, warning = .skippedToken literal span := by
  fun_induction readAttributes run with
  | case1 _ _ _ _ _ _ _ rest attributes warnings read ih =>
    rw [read] at ih
    exact ih h
  | case2 lexeme rest _ attributes warnings read ih =>
    rcases List.mem_cons.mp h with rfl | h
    · exact ⟨_, _, rfl⟩
    · rw [read] at ih
      exact ih h
  | case3 => cases h

/-- A begin tag with all tokens up to the bracket that ends it. -/
structure Opening where
  literal : String
  span : Span
  /-- what stands between the name and the bracket -/
  run : List Lexeme
  bracket : Span
  run_open : ∀ lexeme ∈ run, lexeme.token ≠ .endTag

/-- A close tag. -/
structure Closing where
  literal : String
  span : Span

/-- What stands between two tags, up to its last part. -/
inductive Markup where
  | empty
  | word (before : Markup) (text : String) (span : Span)
  | element (before : Markup) (opening : Opening) (inner : Markup) (closing : Closing)

namespace Opening

variable (o : Opening)

/-- The tokens of a begin tag. -/
def lexemes : List Lexeme :=
  ⟨.beginTag o.literal, o.span⟩ :: o.run ++ [⟨.endTag, o.bracket⟩]

/-- The element that a begin tag opens. -/
def element : OpenElement := ⟨beginTagName o.literal, (readAttributes o.run).1, []⟩

/-- What is reported of a begin tag. -/
def warnings : List SyntaxWarning := (readAttributes o.run).2

end Opening

namespace Closing

variable (c : Closing)

/-- The one token of a close tag. -/
def lexeme : Lexeme := ⟨.closeTag c.literal, c.span⟩

/-- The name that a close tag closes. -/
def name : String := closeTagName c.literal

/-- What is reported of a close tag behind an element of the given name. -/
def warnings (opened : String) : List SyntaxWarning :=
  if c.name = opened then [] else [.mismatchedCloseTag opened c.name c.span]

end Closing

namespace Markup

/-- The tokens of markup. -/
def lexemes : Markup → List Lexeme
  | empty => []
  | word before text span => before.lexemes ++ [⟨.text text, span⟩]
  | element before opening inner closing =>
    before.lexemes ++ (opening.lexemes ++ inner.lexemes ++ [closing.lexeme])

/-- The most elements that stand inside each other. -/
def height : Markup → Nat
  | empty => 0
  | word before _ _ => before.height
  | element before _ inner _ => max before.height (inner.height + 1)

/-- An open element with markup put into it. -/
def fill : Markup → OpenElement → OpenElement
  | empty, e => e
  | word before text _, e => (before.fill e).pushText text
  | element before opening inner closing, e =>
    (before.fill e).push ((inner.fill opening.element).toNode closing.name)

/-- What is reported of markup, in the order of the tokens. -/
def warnings : Markup → List SyntaxWarning
  | empty => []
  | word before _ _ => before.warnings
  | element before opening inner closing =>
    before.warnings ++ (opening.warnings ++ inner.warnings ++
      closing.warnings opening.element.name)

/-- Markup that is one element. -/
def single (opening : Opening) (inner : Markup) (closing : Closing) : Markup :=
  element empty opening inner closing

/-- The node of one element. -/
def node (opening : Opening) (inner : Markup) (closing : Closing) : Node :=
  (inner.fill opening.element).toNode closing.name

variable (opening : Opening) (inner : Markup) (closing : Closing)

@[simp] theorem lexemes_single : (single opening inner closing).lexemes =
    opening.lexemes ++ inner.lexemes ++ [closing.lexeme] := rfl

@[simp] theorem height_single : (single opening inner closing).height = inner.height + 1 := by
  simp [single, height]

@[simp] theorem warnings_single : (single opening inner closing).warnings =
    opening.warnings ++ inner.warnings ++ closing.warnings opening.element.name := rfl

end Markup

namespace OpenElement

variable (e : OpenElement)

@[simp] theorem pushText_name (word : String) : (e.pushText word).name = e.name := by
  unfold pushText
  split <;> rfl

end OpenElement

namespace Markup

@[simp] theorem fill_name (m : Markup) (e : OpenElement) : (m.fill e).name = e.name := by
  induction m generalizing e with
  | empty => rfl
  | word before text span ih => rw [fill, OpenElement.pushText_name, ih]
  | element before opening inner closing ih _ => exact ih e

end Markup

/-! ## Reading what has been written out -/

namespace Stage

/-- Where the parser stands once the innermost of some open elements has been closed. -/
def behind (node : Node) : List OpenElement → Stage
  | [] => .closed node
  | parent :: outer => .inContent (parent.push node) outer

/-- At this stage the elements are open, and one more may begin. -/
inductive Admits : Stage → List OpenElement → Prop where
  | start : Admits .start []
  | content (e : OpenElement) (outer : List OpenElement) : Admits (.inContent e outer) (e :: outer)

end Stage

namespace Parser

variable {p : Parser}

theorem feed_cons (p : Parser) (lexeme : Lexeme) (lexemes : List Lexeme) :
    p.feed (lexeme :: lexemes) = (p.step lexeme).feed lexemes := rfl

theorem feed_singleton (p : Parser) (lexeme : Lexeme) : p.feed [lexeme] = p.step lexeme := rfl

/-- Inside a begin tag every token but its end is kept. -/
theorem feed_run {name : String} {run : List Lexeme} {outer : List OpenElement}
    {strays : List SyntaxError} {warnings : List SyntaxWarning} (more : List Lexeme)
    (run_open : ∀ lexeme ∈ more, lexeme.token ≠ .endTag) :
    feed ⟨.inTag name run outer, strays, warnings⟩ more =
      ⟨.inTag name (more.reverse ++ run) outer, strays, warnings⟩ := by
  induction more generalizing run with
  | nil => rfl
  | cons lexeme more ih =>
    have kept : step ⟨.inTag name run outer, strays, warnings⟩ lexeme =
        ⟨.inTag name (lexeme :: run) outer, strays, warnings⟩ := by
      have : lexeme.token.isEndTag = false := by
        have := run_open lexeme List.mem_cons_self
        cases h : lexeme.token with
        | endTag => exact absurd h this
        | _ => rfl
      simp [step, this, goto]
    rw [feed_cons, kept, ih fun l hl => run_open l (List.mem_cons_of_mem _ hl)]
    simp

/-- A begin tag begins an element, if that is not too deep. -/
theorem step_beginTag {stage : Stage} {outer : List OpenElement} {strays : List SyntaxError}
    {warnings : List SyntaxWarning} (admits : stage.Admits outer) (fits : outer.length < maxDepth)
    (literal : String) (span : Span) :
    step ⟨stage, strays, warnings⟩ ⟨.beginTag literal, span⟩ =
      ⟨.inTag (beginTagName literal) [] outer, strays, warnings⟩ := by
  cases admits with
  | start => rfl
  | content e outer => simp_all [step, goto]

/-- A begin tag opens its element, if that is not too deep. -/
theorem feed_opening {stage : Stage} {outer : List OpenElement} {strays : List SyntaxError}
    {warnings : List SyntaxWarning} (admits : stage.Admits outer) (fits : outer.length < maxDepth)
    (o : Opening) :
    feed ⟨stage, strays, warnings⟩ o.lexemes =
      ⟨.inContent o.element outer, strays, o.warnings.reverse ++ warnings⟩ := by
  rw [Opening.lexemes, List.cons_append, feed_cons, step_beginTag admits fits, feed_append,
    feed_run _ o.run_open, feed_singleton]
  simp [step, Token.isEndTag, openElement, Opening.element, Opening.warnings]

/-- A close tag closes the innermost element. -/
theorem step_closing (e : OpenElement) (outer : List OpenElement) (strays : List SyntaxError)
    (warnings : List SyntaxWarning) (c : Closing) :
    step ⟨.inContent e outer, strays, warnings⟩ c.lexeme =
      ⟨.behind (e.toNode c.name) outer, strays, (c.warnings e.name).reverse ++ warnings⟩ := by
  have reported : (if closeTagName c.literal = e.name then warnings
      else .mismatchedCloseTag e.name (closeTagName c.literal) c.span :: warnings) =
      (c.warnings e.name).reverse ++ warnings := by
    rw [Closing.warnings, Closing.name]
    split <;> rfl
  cases outer <;> simp only [step, Closing.lexeme, closeElement, reported] <;> rfl

/-- **Reading markup fills the innermost open element with it**, and reports what there is to be
reported, as long as no element in it stands too deep. -/
theorem feed_lexemes (m : Markup) {e : OpenElement} {outer : List OpenElement}
    {strays : List SyntaxError} {warnings : List SyntaxWarning}
    (fits : outer.length + 1 + m.height ≤ maxDepth) :
    feed ⟨.inContent e outer, strays, warnings⟩ m.lexemes =
      ⟨.inContent (m.fill e) outer, strays, m.warnings.reverse ++ warnings⟩ := by
  induction m generalizing e outer warnings with
  | empty => rfl
  | word before text span ih =>
    rw [Markup.lexemes, feed_append, ih fits]
    rfl
  | element before opening inner closing ihBefore ihInner =>
    simp only [Markup.height] at fits
    have before_fits : outer.length + 1 + before.height ≤ maxDepth := by omega
    have opening_fits : (before.fill e :: outer).length < maxDepth := by
      simp only [List.length_cons]
      omega
    have inner_fits : (before.fill e :: outer).length + 1 + inner.height ≤ maxDepth := by
      simp only [List.length_cons]
      omega
    rw [Markup.lexemes, feed_append, ihBefore before_fits, feed_append, feed_append,
      feed_opening (.content _ _) opening_fits, ihInner inner_fits, feed_singleton, step_closing]
    simp [Markup.fill, Markup.warnings, Stage.behind]

/-- The same for an element at the top of a document. -/
theorem feed_single {opening : Opening} {inner : Markup} {closing : Closing}
    (fits : (Markup.single opening inner closing).height ≤ maxDepth) :
    feed init (Markup.single opening inner closing).lexemes =
      ⟨.closed (Markup.node opening inner closing), [],
        (Markup.single opening inner closing).warnings.reverse⟩ := by
  rw [Markup.height_single] at fits
  have inner_fits : ([] : List OpenElement).length + 1 + inner.height ≤ maxDepth := by
    simpa [Nat.add_comm] using fits
  rw [Markup.lexemes_single, feed_append, feed_append, init,
    feed_opening .start (by simp [maxDepth]), feed_lexemes inner inner_fits, feed_singleton,
    step_closing]
  simp [Stage.behind, Markup.node]

end Parser

end StateMarkup
