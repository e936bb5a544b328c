import Mathlib.Data.List.Induction
import StateMarkup.Proofs.Node.Markup

/-!
# What has been read

The other direction of `Parser.feed_lexemes`: whatever brings the parser to a stage without an error
is markup that has been written out (`Stage.Reads`). Of the elements that are still open it is known
how they begin and what stands inside them so far; these are `Unclosed`.

So a document is read exactly if its tokens are those of one element that is not too high, and then
its tree and its warnings are those of this element (`Document.ofLexemes_eq_ok_iff`). What holds of
all documents that are read can be shown by induction on their markup.
-/

namespace StateMarkup

/-- An element up to a place inside it: its begin tag, and what has been read of its contents. It is
what an `OpenElement` of the parser comes from, with the tokens and their spans still there. -/
structure Unclosed where
  opening : Opening
  inner : Markup

namespace Unclosed

variable (u : Unclosed) (outer : List Unclosed)

/-- The element as the parser knows it: with its name, its attributes and its children so far. -/
def element : OpenElement := u.inner.fill u.opening.element

/-- The tokens of several open elements, the innermost first, as the parser keeps them. In the
source the outermost comes first, so each element stands behind those that are around it. -/
def lexemes : List Unclosed → List Lexeme
  | [] => []
  | u :: outer => lexemes outer ++ (u.opening.lexemes ++ u.inner.lexemes)

/-- What is reported of several open elements, the innermost first. None of them is closed yet, so
this is about the elements inside them and about their begin tags. -/
def warnings : List Unclosed → List SyntaxWarning
  | [] => []
  | u :: outer => warnings outer ++ (u.opening.warnings ++ u.inner.warnings)

/-- None of several open elements, the innermost first, holds one that is too deep. The depth of
what is inside an element starts with the number of elements around it. -/
def Fit : List Unclosed → Prop
  | [] => True
  | u :: outer => outer.length + 1 + u.inner.height ≤ maxDepth ∧ Fit outer

/-- The open element with one more word at the end of its contents. -/
def word (text : String) (span : Span) : Unclosed := ⟨u.opening, .word u.inner text span⟩

/-- The open element with one more element in it: what becomes of the parent when its child is
closed. -/
def push (child : Unclosed) (closing : Closing) : Unclosed :=
  ⟨u.opening, .element u.inner child.opening child.inner closing⟩

end Unclosed

/-- The tokens and the warnings that bring the parser to a stage. This is the invariant of the
parser: each constructor says what must have been read for the parser to be where it is. A stopped
parser may have read anything, since its errors are dealt with elsewhere. -/
inductive Stage.Reads : Stage → List Lexeme → List SyntaxWarning → Prop where
  | start : Reads .start [] []
  | inTag {literal : String} {span : Span} {run : List Lexeme} {outer : List Unclosed} :
      Unclosed.Fit outer → outer.length < maxDepth → (∀ lexeme ∈ run, lexeme.token ≠ .endTag) →
      Reads (.inTag (beginTagName literal) run (outer.map Unclosed.element))
        (Unclosed.lexemes outer ++ ⟨.beginTag literal, span⟩ :: run.reverse)
        (Unclosed.warnings outer)
  | inContent {u : Unclosed} {outer : List Unclosed} :
      Unclosed.Fit (u :: outer) →
      Reads (.inContent u.element (outer.map Unclosed.element)) (Unclosed.lexemes (u :: outer))
        (Unclosed.warnings (u :: outer))
  | closed {opening : Opening} {inner : Markup} {closing : Closing} :
      (Markup.single opening inner closing).height ≤ maxDepth →
      Reads (.closed (Markup.node opening inner closing))
        (Markup.single opening inner closing).lexemes
        (Markup.single opening inner closing).warnings
  | stopped {error : SyntaxError} {lexemes : List Lexeme} {warnings : List SyntaxWarning} :
      Reads (.stopped error) lexemes warnings

namespace Stage.Reads

variable {u : Unclosed} {outer : List Unclosed}

/-- A word keeps the invariant: it goes at the end of what is inside the innermost open element. -/
theorem word (fits : Unclosed.Fit (u :: outer)) (text : String) (span : Span) :
    Reads (.inContent (u.element.pushText text) (outer.map Unclosed.element))
      (Unclosed.lexemes (u :: outer) ++ [⟨.text text, span⟩]) (Unclosed.warnings (u :: outer)) := by
  have fits' : Unclosed.Fit (u.word text span :: outer) := fits
  have read := inContent fits'
  simpa [Unclosed.word, Unclosed.element, Markup.fill, Unclosed.lexemes, Unclosed.warnings,
    Markup.lexemes, Markup.warnings] using read

/-- The end of a begin tag makes its element the innermost open one, with nothing in it so far. -/
theorem opened {o : Opening} (fits : Unclosed.Fit outer) (deep : outer.length < maxDepth) :
    Reads (.inContent o.element (outer.map Unclosed.element))
      (Unclosed.lexemes outer ++ o.lexemes) (Unclosed.warnings outer ++ o.warnings) := by
  have fits' : Unclosed.Fit (⟨o, .empty⟩ :: outer) :=
    ⟨by simpa [Markup.height] using Nat.succ_le_of_lt deep, fits⟩
  have read := inContent fits'
  simpa [Unclosed.element, Markup.fill, Unclosed.lexemes, Unclosed.warnings, Markup.lexemes,
    Markup.warnings] using read

/-- A close tag makes the innermost element a node. If an element is open around it, this gets one
more child, and the height of the child is added to the depth that is used; if not, the document is
complete. -/
theorem behind (fits : Unclosed.Fit (u :: outer)) (closing : Closing) :
    Reads (.behind (u.element.toNode closing.name) (outer.map Unclosed.element))
      (Unclosed.lexemes (u :: outer) ++ [closing.lexeme])
      (Unclosed.warnings (u :: outer) ++ closing.warnings u.element.name) := by
  obtain ⟨deep, outer_fits⟩ := fits
  cases outer with
  | nil =>
    have height : (Markup.single u.opening u.inner closing).height ≤ maxDepth := by
      simpa [Nat.add_comm] using deep
    have read := closed height
    simpa [Unclosed.lexemes, Unclosed.warnings, Unclosed.element, Markup.node, Stage.behind]
      using read
  | cons parent outer =>
    obtain ⟨parent_deep, outer_fits⟩ := outer_fits
    have fits' : Unclosed.Fit (parent.push u closing :: outer) := by
      refine ⟨?_, outer_fits⟩
      simp only [List.length_cons] at deep
      simp only [Unclosed.push, Markup.height]
      omega
    have read := inContent fits'
    simpa [Unclosed.lexemes, Unclosed.warnings, Unclosed.element, Unclosed.push, Markup.fill,
      Markup.lexemes, Markup.warnings, Stage.behind] using read

end Stage.Reads

namespace Parser

/-- A step only adds to the stray tokens. So if there are none in the end there were none on the
way, which lets the induction of `reads_feed` use its hypothesis for the tokens before. -/
theorem strays_of_step {p : Parser} {lexeme : Lexeme} (h : (p.step lexeme).strays = []) :
    p.strays = [] := by
  obtain ⟨stage, strays, warnings⟩ := p
  cases stage with
  | start => cases token : lexeme.token <;> simpa [step, token, goto] using h
  | inTag name run outer =>
    cases ends : lexeme.token.isEndTag <;> simpa [step, ends, goto, openElement] using h
  | inContent e outer =>
    cases token : lexeme.token with
    | closeTag literal => cases outer <;> simpa [step, token, closeElement] using h
    | beginTag literal =>
      by_cases deep : outer.length + 1 < maxDepth <;> simpa [step, token, deep, goto] using h
    | text word => simpa [step, token, goto] using h
    | _ => simp [step, token] at h
  | closed root => cases token : lexeme.token <;> simpa [step, token, goto] using h
  | stopped error => simpa [step] using h

/-- **What one more token does** to what has been read. The cases are the constructors of
`Stage.Reads` and, for each, the tokens that may come: those that go on with the element use one of
the three lemmas above, all others stop the parser or are stray. -/
theorem reads_step {p : Parser} {lexemes : List Lexeme} {lexeme : Lexeme}
    (reads : p.stage.Reads lexemes p.warnings.reverse) (clean : (p.step lexeme).strays = []) :
    (p.step lexeme).stage.Reads (lexemes ++ [lexeme]) (p.step lexeme).warnings.reverse := by
  obtain ⟨stage, strays, warnings⟩ := p
  obtain ⟨token, span⟩ := lexeme
  dsimp only at reads
  generalize reported : warnings.reverse = reports at reads
  cases reads with
  | start =>
    obtain rfl : warnings = [] := by simpa using reported
    cases token with
    | beginTag literal =>
      exact @Stage.Reads.inTag literal span [] [] trivial (by simp [maxDepth]) (by simp)
    | _ => exact .stopped
  | @inTag literal begun run outer fits deep run_open =>
    -- only the bracket ends a begin tag; everything else is kept in its run
    by_cases ends : token = .endTag
    · subst ends
      have read := Stage.Reads.opened
        (o := ⟨literal, begun, run.reverse, span, by simpa using run_open⟩) fits deep
      simpa [step, Token.isEndTag, openElement, Opening.element, Opening.warnings, Opening.lexemes,
        reported] using read
    · have kept : token.isEndTag = false := by
        cases token with
        | endTag => exact absurd rfl ends
        | _ => rfl
      have read := @Stage.Reads.inTag literal begun (⟨token, span⟩ :: run) outer fits deep
        (by simpa [ends] using run_open)
      simpa [step, kept, goto, reported] using read
  | @inContent u outer fits =>
    cases token with
    | closeTag literal =>
      have read := Stage.Reads.behind fits ⟨literal, span⟩
      have closed := step_closing u.element (outer.map Unclosed.element) strays warnings
        ⟨literal, span⟩
      simp only [Closing.lexeme] at closed read
      simpa [closed, reported] using read
    | beginTag literal =>
      by_cases deep : outer.length + 1 < maxDepth
      · have read := @Stage.Reads.inTag literal span [] (u :: outer) fits deep (by simp)
        simpa [step, deep, goto, reported] using read
      · simpa [step, deep, goto] using Stage.Reads.stopped
    | text word =>
      have read := Stage.Reads.word fits word span
      simpa [step, goto, reported] using read
    | _ => simp [step] at clean
  | closed _ =>
    cases token with
    | _ => exact .stopped
  | stopped => exact .stopped

/-- **What has been read**, as long as no stray token has been met. Since `Stage.Reads` is stated
for the tokens from the start on, the induction takes them from the end, one step at a time. -/
theorem reads_feed {lexemes : List Lexeme} (clean : (init.feed lexemes).strays = []) :
    (init.feed lexemes).stage.Reads lexemes (init.feed lexemes).warnings.reverse := by
  induction lexemes using List.reverseRecOn with
  | nil => exact .start
  | append_singleton before lexeme ih =>
    rw [feed_append, feed_singleton] at clean ⊢
    exact reads_step (ih (strays_of_step clean)) clean

end Parser

namespace Document

/-- The document of one element. The kind of its root is `Root` whatever the name says, as in
`Document.ofLexemes`. -/
def ofElement (opening : Opening) (inner : Markup) (closing : Closing) : Document :=
  let node := Markup.node opening inner closing
  ⟨⟨.root, node.name, node.attributes, node.children⟩,
    (Markup.single opening inner closing).warnings⟩

/-- **A document is read exactly if its tokens are those of one element** that is not too high. Then
its tree and its warnings are those of the element.

The way to the element is `Parser.reads_feed`, at the stage `closed`; the way back is
`Parser.feed_single`, where the markup is fed to the parser. -/
theorem ofLexemes_eq_ok_iff {lexemes : List Lexeme} {document : Document} :
    ofLexemes lexemes = .ok document ↔
      ∃ opening inner closing,
        (Markup.single opening inner closing).lexemes = lexemes.takeWhile (!·.token.isEof) ∧
        (Markup.single opening inner closing).height ≤ maxDepth ∧
        ofElement opening inner closing = document := by
  rw [ofLexemes]
  generalize lexemes.takeWhile (!·.token.isEof) = read
  constructor
  · intro finished
    have reads := @Parser.reads_feed read
    generalize Parser.init.feed read = p at finished reads
    obtain ⟨stage, strays, warnings⟩ := p
    cases stage with
    | closed root =>
      rw [Parser.finish] at finished
      dsimp only at finished reads
      split at finished
      · rename_i clean
        have reads := reads (List.isEmpty_iff.mp clean)
        generalize warnings.reverse = reported at reads finished
        cases reads with
        | @closed opening inner closing fits =>
          exact ⟨opening, inner, closing, rfl, fits, Except.ok.inj finished⟩
      · cases finished
    | _ => cases finished
  · rintro ⟨opening, inner, closing, rfl, fits, rfl⟩
    rw [Parser.feed_single fits]
    simp [Parser.finish, ofElement]

end Document

end StateMarkup
