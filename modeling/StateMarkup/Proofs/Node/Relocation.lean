import Mathlib.Data.List.Forall2
import StateMarkup.Proofs.Node.Markup

/-!
# Tokens at other places

The tokens of a document can be moved: `relocate` gives each span another one, in tokens, errors and
warnings alike, and in all that a parser holds. Reading commutes with it, step by step and so for
whole documents (`Document.ofLexemes_relocate`): a parser hands spans on and never looks at them.

Two documents with the same tokens are moved to one place by the same relocation. So what is read of
them differs in places only (`Document.sameReading_of_tokens`), and so do the messages, which name a
place at their end if at all.
-/

namespace StateMarkup

/-! ## Moving spans -/

/-- The token somewhere else. -/
def Lexeme.relocate (place : Span → Span) (l : Lexeme) : Lexeme := ⟨l.token, place l.span⟩

/-- The error somewhere else. -/
def SyntaxError.relocate (place : Span → Span) : SyntaxError → SyntaxError
  | .emptyDocument => .emptyDocument
  | .unexpectedToken expected found span => .unexpectedToken expected found (place span)
  | .unexpectedEnd expected element => .unexpectedEnd expected element
  | .secondRoot name span => .secondRoot name (place span)
  | .tooDeep span => .tooDeep (place span)

/-- The warning somewhere else. -/
def SyntaxWarning.relocate (place : Span → Span) : SyntaxWarning → SyntaxWarning
  | .skippedToken literal span => .skippedToken literal (place span)
  | .mismatchedCloseTag opened closed span => .mismatchedCloseTag opened closed (place span)

/-- The stage with its tokens and errors somewhere else. Open elements and nodes have no spans, so a
stage that holds only these is the same. -/
def Stage.relocate (place : Span → Span) : Stage → Stage
  | .inTag name run outer => .inTag name (run.map (·.relocate place)) outer
  | .stopped error => .stopped (error.relocate place)
  | stage => stage

/-- The parser after the same tokens somewhere else. -/
def Parser.relocate (place : Span → Span) (p : Parser) : Parser :=
  ⟨p.stage.relocate place, p.strays.map (·.relocate place), p.warnings.map (·.relocate place)⟩

/-- What is read of the same tokens somewhere else. -/
def Document.relocate (place : Span → Span) :
    Except (List SyntaxError) Document → Except (List SyntaxError) Document
  | .ok document => .ok ⟨document.root, document.warnings.map (·.relocate place)⟩
  | .error errors => .error (errors.map (·.relocate place))

variable {place : Span → Span}

/-! ## Reading elsewhere -/

theorem Lexeme.relocate_mk (token : Token) (span : Span) :
    Lexeme.relocate place ⟨token, span⟩ = ⟨token, place span⟩ := rfl

/-- A token that has moved was there before, with another span. -/
theorem Lexeme.relocate_eq_iff {l : Lexeme} {token : Token} {span : Span} :
    l.relocate place = ⟨token, span⟩ ↔ ∃ old, l = ⟨token, old⟩ ∧ place old = span := by
  obtain ⟨token', old⟩ := l
  simp [relocate, and_comm]

/-- The attributes in a begin tag are the same, and what is skipped has moved with its tokens. -/
theorem readAttributes_relocate (run : List Lexeme) :
    readAttributes (run.map (·.relocate place)) =
      ((readAttributes run).1, (readAttributes run).2.map (·.relocate place)) := by
  fun_induction readAttributes run with
  | case1 name _ _ _ value _ _ rest attributes warnings read ih =>
    rw [read] at ih
    simp only [List.map_cons, Lexeme.relocate_mk, readAttributes, ih]
  | case2 lexeme rest whole attributes warnings read ih =>
    rw [read] at ih
    rw [List.map_cons, readAttributes, ih]
    · rfl
    · -- a moved attribute has been one before
      intro name _ _ _ value _ _ _ first others
      simp only [List.map_eq_cons_iff, Lexeme.relocate_eq_iff] at first others
      obtain ⟨_, rfl, -⟩ := first
      obtain ⟨_, _, rfl, ⟨_, rfl, -⟩, _, _, rfl, ⟨_, rfl, -⟩, _, _, rfl, ⟨_, rfl, -⟩, _, _, rfl,
        ⟨_, rfl, -⟩, -⟩ := others
      exact whole _ _ _ _ _ _ _ _ rfl rfl
  | case3 => rfl

namespace Parser

variable (p : Parser)

/-- The end of a begin tag does the same wherever the tokens of the tag stand. -/
theorem openElement_relocate (name : String) (run : List Lexeme) (outer : List OpenElement) :
    (p.relocate place).openElement name (run.map (·.relocate place)) outer =
      (p.openElement name run outer).relocate place := by
  rw [openElement, ← List.map_reverse, readAttributes_relocate]
  simp [openElement, relocate, Stage.relocate]

/-- So does a close tag. The one warning about it is at its own place. -/
theorem closeElement_relocate (e : OpenElement) (outer : List OpenElement) (literal : String)
    (span : Span) :
    (p.relocate place).closeElement e outer literal (place span) =
      (p.closeElement e outer literal span).relocate place := by
  have reported : (if closeTagName literal = e.name then p.warnings.map (·.relocate place)
      else .mismatchedCloseTag e.name (closeTagName literal) (place span) ::
        p.warnings.map (·.relocate place)) =
      (if closeTagName literal = e.name then p.warnings
        else .mismatchedCloseTag e.name (closeTagName literal) span :: p.warnings).map
          (·.relocate place) := by
    split <;> rfl
  cases outer with
  | nil => simp only [closeElement, relocate, Stage.relocate, reported]
  | cons parent outer => simp only [closeElement, relocate, Stage.relocate, reported]

/-- **A step hands spans on** and does not look at them. The cases are the stages and, for each, the
tokens: in every one of them the parser decides by tokens alone. -/
theorem step_relocate (l : Lexeme) :
    (p.relocate place).step (l.relocate place) = (p.step l).relocate place := by
  obtain ⟨stage, strays, warnings⟩ := p
  obtain ⟨token, span⟩ := l
  cases stage with
  | start => cases token <;> rfl
  | inTag name run outer =>
    cases ends : token.isEndTag with
    | true =>
      have opened := @openElement_relocate place ⟨.inTag name run outer, strays, warnings⟩ name run
        outer
      simpa [step, ends, Lexeme.relocate_mk, relocate, Stage.relocate] using opened
    | false => simp [step, ends, Lexeme.relocate_mk, relocate, Stage.relocate, goto]
  | inContent e outer =>
    cases token with
    | closeTag literal => exact closeElement_relocate _ e outer literal span
    | beginTag literal =>
      by_cases deep : outer.length + 1 < maxDepth
      · simp [step, deep, Lexeme.relocate_mk, relocate, Stage.relocate, goto]
      · simp [step, deep, Lexeme.relocate_mk, relocate, Stage.relocate, goto, SyntaxError.relocate]
    | _ => rfl
  | closed root => cases token <;> rfl
  | stopped error => rfl

/-- So it is with any number of steps. -/
theorem feed_relocate (lexemes : List Lexeme) :
    (p.relocate place).feed (lexemes.map (·.relocate place)) =
      (p.feed lexemes).relocate place := by
  induction lexemes generalizing p with
  | nil => rfl
  | cons l lexemes ih =>
    have onward := ih (p.step l)
    rw [← step_relocate] at onward
    exact onward

/-- And so it is at the end, where the stray tokens are put before the error. -/
theorem finish_relocate : (p.relocate place).finish = Document.relocate place p.finish := by
  obtain ⟨stage, strays, warnings⟩ := p
  cases stage with
  | closed root =>
    cases strays <;> simp [finish, relocate, Stage.relocate, Document.relocate]
  | _ => simp [finish, relocate, Stage.relocate, Document.relocate, SyntaxError.relocate]

end Parser

/-- **Reading commutes with moving the tokens.** The end of the tokens is at the same token, as this
is not a matter of places either. -/
theorem Document.ofLexemes_relocate (lexemes : List Lexeme) :
    ofLexemes (lexemes.map (·.relocate place)) = relocate place (ofLexemes lexemes) := by
  have before_end : (lexemes.map (·.relocate place)).takeWhile (!·.token.isEof) =
      (lexemes.takeWhile (!·.token.isEof)).map (·.relocate place) := List.takeWhile_map
  rw [ofLexemes, before_end, ofLexemes, ← Parser.finish_relocate, ← Parser.feed_relocate]
  rfl

/-! ## The same but for the place -/

/-- How a message says where: at its end, if at all. -/
def Span.ending (span? : Option Span) : String := (span?.map describe).getD ""

/-- The same error, maybe somewhere else: all of it but its span agrees, and so do the messages up
to the place at their end. -/
def SyntaxError.SameButPlace (e f : SyntaxError) : Prop :=
  (∃ span, f = e.relocate fun _ => span) ∧
    ∃ text, e.message = text ++ Span.ending e.span? ∧ f.message = text ++ Span.ending f.span?

/-- The same warning, maybe somewhere else: all of it but its span agrees, and so does the message
up to the place at its end. -/
def SyntaxWarning.SameButPlace (w v : SyntaxWarning) : Prop :=
  (∃ span, v = w.relocate fun _ => span) ∧
    ∃ text, w.message = text ++ w.span.describe ∧ v.message = text ++ v.span.describe

/-- Both are read with the same tree and the same warnings but for their places, or both fail with
the same errors but for theirs. -/
def Document.SameReading :
    Except (List SyntaxError) Document → Except (List SyntaxError) Document → Prop
  | .ok document, .ok other => document.root = other.root ∧
      List.Forall₂ SyntaxWarning.SameButPlace document.warnings other.warnings
  | .error errors, .error others => List.Forall₂ SyntaxError.SameButPlace errors others
  | _, _ => False

/-- Errors that are moved to one place and are equal there are the same but for their places. -/
theorem SyntaxError.sameButPlace_of_relocate {e f : SyntaxError} {span : Span}
    (same : (e.relocate fun _ => span) = f.relocate fun _ => span) : e.SameButPlace f := by
  -- the two are of one kind, with the same data but the span, if they have one
  cases e <;> cases f <;> cases same
  case emptyDocument.emptyDocument.refl =>
    exact ⟨⟨span, rfl⟩, _, String.append_empty.symm, String.append_empty.symm⟩
  case unexpectedEnd.unexpectedEnd.refl =>
    exact ⟨⟨span, rfl⟩, _, String.append_empty.symm, String.append_empty.symm⟩
  all_goals exact ⟨⟨_, rfl⟩, _, rfl, rfl⟩

theorem SyntaxWarning.sameButPlace_of_relocate {w v : SyntaxWarning} {span : Span}
    (same : (w.relocate fun _ => span) = v.relocate fun _ => span) : w.SameButPlace v := by
  cases w <;> cases v <;> cases same
  all_goals exact ⟨⟨_, rfl⟩, _, rfl, rfl⟩

/-- What is the same at one place is the same one by one. -/
theorem forall₂_of_map_eq {α β : Type} {f : α → β} {R : α → α → Prop} {as bs : List α}
    (each : ∀ a b, f a = f b → R a b) (same : as.map f = bs.map f) : List.Forall₂ R as bs := by
  rw [← List.forall₂_eq_eq_eq, List.forall₂_map_left_iff, List.forall₂_map_right_iff] at same
  exact same.imp each

/-- Two readings that are moved to one place and are equal there have the same outcome, with the
same tree or with the same errors, but for places. -/
theorem Document.sameReading_of_relocate {reading other : Except (List SyntaxError) Document}
    {span : Span} (same : relocate (fun _ => span) reading = relocate (fun _ => span) other) :
    SameReading reading other := by
  cases reading with
  | ok document =>
    cases other with
    | ok other =>
      obtain ⟨root, warnings⟩ := Document.mk.inj (Except.ok.inj same)
      exact ⟨root, forall₂_of_map_eq (fun _ _ => SyntaxWarning.sameButPlace_of_relocate) warnings⟩
    | error others => cases same
  | error errors =>
    cases other with
    | ok other => cases same
    | error others =>
      have errors := Except.error.inj same
      exact forall₂_of_map_eq (fun _ _ => SyntaxError.sameButPlace_of_relocate) errors

/-- **What is read of the same tokens differs in places only.** Move both to one place: there the
tokens cannot be told apart, and reading commutes with moving. -/
theorem Document.sameReading_of_tokens {lexemes others : List Lexeme}
    (same : lexemes.map (·.token) = others.map (·.token)) :
    SameReading (ofLexemes lexemes) (ofLexemes others) := by
  -- moved to one place, the tokens cannot be told apart
  let here : Span := ⟨0, 0, 0, 0⟩
  have made (ls : List Lexeme) : ls.map (·.relocate fun _ => here) =
      (ls.map (·.token)).map fun token => ⟨token, here⟩ := by
    rw [List.map_map]
    rfl
  refine @sameReading_of_relocate _ _ here ?_
  rw [← ofLexemes_relocate, ← ofLexemes_relocate, made, made, same]

end StateMarkup
