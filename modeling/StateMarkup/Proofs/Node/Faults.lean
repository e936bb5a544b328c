import StateMarkup.Proofs.Node.Shape
import StateMarkup.Proofs.Token.Places

/-!
# Faults in the order of the document

A document that cannot be read has errors for two reasons: tokens among the contents of an element
that may not stand there, which do not stop the reading, and at most one fault that does. `Standing`
says of any list of tokens where the next one would stand, without a parser and its trees, and
`strays` picks the tokens of the first kind. `Document.told_of_error` says what is reported in all:
the strays up to the place where the reading stops, in order, and last the fault that stops it.

So errors come in the order of their places, and only the last of them can be one that stops the
reading; and the warnings about a document that is read come in the order of theirs
(`Document.faults_in_order`).
-/

namespace StateMarkup

/-! ## Where tokens stand -/

/-- True of the tokens that are nothing but an error among contents. -/
def Token.isStray : Token → Bool
  | .endTag => true
  | .assign => true
  | .quote => true
  | .illegal _ => true
  | _ => false

/-- Whether the next token stands inside a begin tag, and how many elements are open. That is all
that has to be known of the tokens before it to say whether it is a stray. -/
structure Standing where
  inTag : Bool
  depth : Nat
deriving DecidableEq, Repr

namespace Standing

/-- Before the first token. -/
def outside : Standing := ⟨false, 0⟩

/-- Behind one more token. Inside a begin tag only the bracket that ends it counts. -/
def step (s : Standing) : Token → Standing
  | .beginTag _ => if s.inTag then s else ⟨true, s.depth + 1⟩
  | .endTag => ⟨false, s.depth⟩
  | .closeTag _ => if s.inTag then s else ⟨false, s.depth - 1⟩
  | _ => s

/-- Behind several tokens. -/
def behind (s : Standing) (lexemes : List Lexeme) : Standing :=
  lexemes.foldl (fun s l => s.step l.token) s

/-- Among the contents of an element. -/
def inContent (s : Standing) : Bool := !s.inTag && s.depth != 0

/-- The tokens that may not stand among the contents where they do. -/
def strays : Standing → List Lexeme → List Lexeme
  | _, [] => []
  | s, l :: rest =>
    if s.inContent && l.token.isStray then l :: (s.step l.token).strays rest
    else (s.step l.token).strays rest

variable {s : Standing} {l : Lexeme} {lexemes : List Lexeme}

theorem strays_cons (s : Standing) (l : Lexeme) (rest : List Lexeme) :
    s.strays (l :: rest) = s.strays [l] ++ (s.step l.token).strays rest := by
  simp only [strays]
  split <;> rfl

/-- Strays are tokens of the document, in their order. -/
theorem strays_sublist (s : Standing) (lexemes : List Lexeme) :
    (s.strays lexemes).Sublist lexemes := by
  fun_induction strays s lexemes with
  | case1 => exact .slnil
  | case2 s l rest _ ih => exact ih.cons_cons l
  | case3 s l rest _ ih => exact ih.cons l

/-- A stray token stands among contents. -/
theorem exists_of_mem_strays (h : l ∈ s.strays lexemes) :
    ∃ before after, lexemes = before ++ l :: after ∧ (s.behind before).inContent = true ∧
      l.token.isStray = true := by
  fun_induction strays s lexemes with
  | case1 => cases h
  | case2 s first rest stray ih =>
    rcases List.mem_cons.mp h with rfl | h
    · exact ⟨[], rest, rfl, Bool.and_eq_true_iff.mp stray⟩
    · obtain ⟨before, after, rfl, there⟩ := ih h
      exact ⟨first :: before, after, rfl, there⟩
  | case3 s first rest _ ih =>
    obtain ⟨before, after, rfl, there⟩ := ih h
    exact ⟨first :: before, after, rfl, there⟩

end Standing

/-! ## Where the parser stands -/

/-- What is reported of a stray token. -/
def SyntaxError.ofStray (l : Lexeme) : SyntaxError := .unexpectedToken .content l.token l.span

/-- Where the next token stands, as far as the parser goes on. -/
def Stage.standing? : Stage → Option Standing
  | .start => some .outside
  | .inTag _ _ outer => some ⟨true, outer.length + 1⟩
  | .inContent _ outer => some ⟨false, outer.length + 1⟩
  | .closed _ => some .outside
  | .stopped _ => none

namespace Parser

variable {p : Parser} {s : Standing} {l : Lexeme} {lexemes : List Lexeme}

/-- The parser stops at a token, with an error about it. -/
def StopsAt (p : Parser) (l : Lexeme) (strays : List SyntaxError) : Prop :=
  ∃ error, p.stage = .stopped error ∧ error.span? = some l.span ∧ p.strays = strays

/-- The parser goes on, and has reported these strays. It stands where `Standing` says, so what it
does with the next token can be foretold. -/
structure GoesOn (p : Parser) (s : Standing) (strays : List SyntaxError) : Prop where
  standing : p.stage.standing? = some s
  strays : p.strays = strays

/-- **One token**: the parser stops at it, or goes on and reports it if it is a stray. There is one
case for each stage and kind of token; in none of them does it matter which elements are open, only
how many. -/
theorem step_goesOn (standing : p.stage.standing? = some s) (inside : l.token ≠ .eof) :
    (p.step l).StopsAt l p.strays ∨
      (p.step l).GoesOn (s.step l.token)
        (((s.strays [l]).map SyntaxError.ofStray).reverse ++ p.strays) := by
  obtain ⟨stage, strays, warnings⟩ := p
  obtain ⟨token, span⟩ := l
  cases stage with
  | start =>
    cases standing
    cases token with
    | beginTag literal => exact .inr ⟨rfl, rfl⟩
    | _ => exact .inl ⟨_, rfl, rfl, rfl⟩
  | inTag name run outer =>
    cases standing
    cases token with
    | _ => exact .inr ⟨rfl, rfl⟩
  | inContent e outer =>
    cases standing
    cases token with
    | closeTag literal =>
      cases outer with
      | nil => exact .inr ⟨rfl, rfl⟩
      | cons parent outer => exact .inr ⟨rfl, rfl⟩
    | beginTag literal =>
      by_cases deep : outer.length + 1 < maxDepth
      · refine .inr ⟨?_, ?_⟩ <;> simp [step, deep, goto, Stage.standing?, Standing.step,
          Standing.strays, Token.isStray]
      · refine .inl ⟨.tooDeep span, ?_, rfl, ?_⟩ <;> simp [step, deep, goto]
    | eof => exact absurd rfl inside
    | _ => exact .inr ⟨rfl, rfl⟩
  | closed root =>
    cases standing
    cases token with
    | _ => exact .inl ⟨_, rfl, rfl, rfl⟩
  | stopped error => cases standing

/-- **Several tokens**: the parser stops at one of them, or goes on, and has reported the strays
among the tokens that it has passed. The induction is on the tokens. A parser that has stopped stays
so, and the tokens behind that are not looked at. -/
theorem feed_goesOn (standing : p.stage.standing? = some s)
    (inside : ∀ l ∈ lexemes, l.token ≠ .eof) :
    (∃ read l rest, lexemes = read ++ l :: rest ∧ (p.feed lexemes).StopsAt l
        (((s.strays read).map SyntaxError.ofStray).reverse ++ p.strays)) ∨
      (p.feed lexemes).GoesOn (s.behind lexemes)
        (((s.strays lexemes).map SyntaxError.ofStray).reverse ++ p.strays) := by
  induction lexemes generalizing p s with
  | nil => exact .inr ⟨standing, rfl⟩
  | cons first rest ih =>
    obtain ⟨here, others⟩ := List.forall_mem_cons.mp inside
    rw [feed_cons]
    rcases step_goesOn standing here with stops | ⟨onward, reported⟩
    · -- nothing is read behind the token at which the parser stops
      refine .inl ⟨[], first, rest, rfl, ?_⟩
      obtain ⟨error, stage, place, strays⟩ := stops
      generalize p.step first = q at stage strays
      obtain ⟨_, _, warnings⟩ := q
      subst stage
      rw [feed_stopped]
      exact ⟨error, rfl, place, strays⟩
    · have told := ih onward others
      simp only [reported] at told
      rcases told with ⟨read, l, rest, rfl, stops⟩ | goes_on
      · refine .inl ⟨first :: read, l, rest, rfl, ?_⟩
        rw [Standing.strays_cons]
        simpa using stops
      · refine .inr ?_
        rw [Standing.strays_cons]
        simpa [Standing.behind] using goes_on

/-- Behind a token the parser is never before the root. -/
theorem stage_step_ne_start (p : Parser) (l : Lexeme) : (p.step l).stage ≠ .start := by
  obtain ⟨stage, strays, warnings⟩ := p
  obtain ⟨token, span⟩ := l
  cases stage with
  | start => cases token <;> rintro ⟨⟩
  | inTag name run outer => cases token <;> rintro ⟨⟩
  | inContent e outer =>
    cases token with
    | closeTag literal => cases outer <;> rintro ⟨⟩
    | beginTag literal =>
      simp only [step]
      split <;> rintro ⟨⟩
    | _ => rintro ⟨⟩
  | closed root => cases token <;> rintro ⟨⟩
  | stopped error => rintro ⟨⟩

/-- So if the parser is still before the root there was no token. -/
theorem eq_nil_of_stage_eq_start (start : (init.feed lexemes).stage = .start) : lexemes = [] := by
  rcases List.eq_nil_or_concat lexemes with rfl | ⟨before, l, rfl⟩
  · rfl
  · rw [List.concat_eq_append, feed_append, feed_singleton] at start
    exact absurd start (stage_step_ne_start _ l)

end Parser

/-! ## What is reported -/

namespace SyntaxError

/-- The stray tokens of a document. -/
def ofStrays (tokens : List Lexeme) : List SyntaxError :=
  (Standing.outside.strays tokens).map ofStray

/-- **What is reported of tokens that cannot be read**: strays, and behind them what stops the
reading. There is a constructor for each way in which reading can fail, and everything below about
errors is proved by cases on it. -/
inductive Told (tokens : List Lexeme) : List SyntaxError → Prop where
  /-- there is nothing to read -/
  | nothing : tokens = [] → Told tokens [.emptyDocument]
  /-- all is read but for strays -/
  | astray : ofStrays tokens ≠ [] → Told tokens (ofStrays tokens)
  /-- the tokens end inside an element -/
  | ended {expected : Expectation} {element : String} :
      tokens ≠ [] → Told tokens (ofStrays tokens ++ [.unexpectedEnd expected element])
  /-- the reading stops at a token -/
  | stopped {read rest : List Lexeme} {l : Lexeme} {error : SyntaxError} :
      tokens = read ++ l :: rest → error.span? = some l.span →
      Told tokens (ofStrays read ++ [error])

variable {tokens : List Lexeme} {errors : List SyntaxError} {e : SyntaxError}

/-- What is reported of strays has their spans, in order. -/
theorem sublist_ofStrays (tokens : List Lexeme) :
    ((ofStrays tokens).filterMap span?).Sublist (tokens.map Lexeme.span) := by
  have spans : (ofStrays tokens).filterMap span? =
      (Standing.outside.strays tokens).map Lexeme.span := by
    rw [ofStrays, List.filterMap_map, ← List.filterMap_eq_map]
    rfl
  rw [spans]
  exact (Standing.outside.strays_sublist tokens).map _

/-- A token that is reported among the contents where it stands. -/
def IsStrayOf (tokens : List Lexeme) (e : SyntaxError) : Prop :=
  ∃ before l after, tokens = before ++ l :: after ∧
    (Standing.outside.behind before).inContent = true ∧ l.token.isStray = true ∧
    e = .unexpectedToken .content l.token l.span

/-- What is reported of a stray is the error of a token among contents, also if more tokens come
behind those that are looked at. -/
theorem isStrayOf_of_mem (h : e ∈ ofStrays tokens) (rest : List Lexeme) :
    IsStrayOf (tokens ++ rest) e := by
  obtain ⟨l, hl, rfl⟩ := List.mem_map.mp h
  obtain ⟨before, after, rfl, there⟩ := Standing.exists_of_mem_strays hl
  exact ⟨before, l, after ++ rest, by simp, there.1, there.2, rfl⟩

namespace Told

/-- A failure has some error to show. -/
theorem ne_nil (told : Told tokens errors) : errors ≠ [] := by
  cases told with
  | nothing _ => exact List.cons_ne_nil _ _
  | astray some_stray => exact some_stray
  | ended _ => simp
  | stopped _ _ => simp

/-- The errors with a span stand in the order of their tokens. The last error is about the token at
which the parser stopped, and the strays are from before. -/
theorem sublist (told : Told tokens errors) :
    (errors.filterMap span?).Sublist (tokens.map Lexeme.span) := by
  cases told with
  | nothing _ => exact List.nil_sublist _
  | astray _ => exact sublist_ofStrays tokens
  | ended _ =>
    rw [List.filterMap_append]
    exact (List.append_nil _).symm ▸ sublist_ofStrays tokens
  | @stopped read rest l error split place =>
    have last : [error].filterMap span? = [l.span] := by simp [place]
    rw [List.filterMap_append, last, split, List.map_append, List.map_cons]
    exact (sublist_ofStrays read).append ((List.nil_sublist _).cons_cons _)

/-- All errors but the last are strays. -/
theorem isStrayOf (told : Told tokens errors) (h : e ∈ errors.dropLast) :
    IsStrayOf tokens e := by
  cases told with
  | nothing _ => cases h
  | astray _ => simpa using isStrayOf_of_mem (List.dropLast_subset _ h) []
  | ended _ =>
    rw [List.dropLast_concat] at h
    simpa using isStrayOf_of_mem h []
  | @stopped read rest l error split _ =>
    rw [List.dropLast_concat] at h
    exact split ▸ isStrayOf_of_mem h (l :: rest)

/-- A document is reported as empty if it is, and only then. -/
theorem eq_emptyDocument_iff (told : Told tokens errors) :
    errors = [.emptyDocument] ↔ tokens = [] := by
  cases told with
  | nothing empty => exact iff_of_true rfl empty
  | astray some_stray =>
    refine iff_of_false (fun same => ?_) (by rintro rfl; exact some_stray rfl)
    have stray : emptyDocument ∈ ofStrays tokens := by simp [same]
    obtain ⟨_, _, _, _, _, _, other⟩ := isStrayOf_of_mem stray []
    cases other
  | ended some_token => exact iff_of_false (by simp [List.append_eq_singleton_iff]) some_token
  | @stopped read rest l error split place =>
    refine iff_of_false (fun same => ?_) (by simp [split])
    have other : error = .emptyDocument := by
      have last := congrArg List.getLast? same
      simpa using last
    rw [other] at place
    cases place

end Told

end SyntaxError

namespace Document

variable {lexemes : List Lexeme} {errors : List SyntaxError}

/-- Whatever the tokens of a document that cannot be read, this is what is reported of them. The
parser has stopped at a token or come to the end (`Parser.feed_goesOn`); at the end the stage says
what is missing, and if nothing is then there were strays. -/
theorem told_of_error (failed : ofLexemes lexemes = .error errors) :
    SyntaxError.Told (lexemes.takeWhile (!·.token.isEof)) errors := by
  have inside : ∀ l ∈ lexemes.takeWhile (!·.token.isEof), l.token ≠ .eof := by
    intro l hl ends
    have := List.mem_takeWhile_imp hl
    simp [ends, Token.isEof] at this
  rw [ofLexemes] at failed
  generalize lexemes.takeWhile (!·.token.isEof) = tokens at failed inside
  have told := @Parser.feed_goesOn Parser.init .outside tokens rfl inside
  have began := @Parser.eq_nil_of_stage_eq_start tokens
  generalize Parser.init.feed tokens = p at failed told began
  -- the parser has its strays the latest first
  have in_order {read : List Lexeme} (reported : p.strays =
      ((Standing.outside.strays read).map SyntaxError.ofStray).reverse ++ Parser.init.strays) :
      p.strays.reverse = SyntaxError.ofStrays read := by
    simp [reported, Parser.init, SyntaxError.ofStrays]
  obtain ⟨stage, strays, warnings⟩ := p
  rcases told with ⟨read, l, rest, split, error, rfl, place, reported⟩ | ⟨standing, reported⟩
  · cases failed
    exact in_order reported ▸ .stopped split place
  · have all := in_order reported
    cases stage with
    | start =>
      cases failed
      exact .nothing (began rfl)
    | inTag name run outer =>
      cases failed
      refine all ▸ .ended ?_
      rintro rfl
      cases standing
    | inContent e outer =>
      cases failed
      refine all ▸ .ended ?_
      rintro rfl
      cases standing
    | closed root =>
      simp only [Parser.finish] at failed
      split at failed
      · cases failed
      · rename_i some_stray
        cases failed
        refine all ▸ .astray (all ▸ ?_)
        simpa using some_stray
    | stopped error => cases standing

end Document

/-! ## Where warnings stand -/

/-- A warning about a token has its span, and they come in the order of the tokens. -/
theorem sublist_readAttributes (run : List Lexeme) :
    ((readAttributes run).2.map SyntaxWarning.span).Sublist (run.map Lexeme.span) := by
  fun_induction readAttributes run with
  | case1 name _ _ _ value _ _ rest attributes warnings read ih =>
    rw [read] at ih
    exact ((((ih.cons _).cons _).cons _).cons _).cons _
  | case2 lexeme rest _ attributes warnings read ih =>
    rw [read] at ih
    exact ih.cons_cons _
  | case3 => exact .slnil

namespace Markup

/-- What is reported of an element stands in the order of its tokens, if what is reported of the
inside does: a begin tag tells of its own tokens, and a close tag of itself. -/
theorem sublist_warnings_single {inner : Markup}
    (inside : (inner.warnings.map SyntaxWarning.span).Sublist (inner.lexemes.map Lexeme.span))
    (opening : Opening) (closing : Closing) :
    ((single opening inner closing).warnings.map SyntaxWarning.span).Sublist
      ((single opening inner closing).lexemes.map Lexeme.span) := by
  have begun : (opening.warnings.map SyntaxWarning.span).Sublist
      (opening.lexemes.map Lexeme.span) := by
    have skipped := (sublist_readAttributes opening.run).cons opening.span
    simpa [Opening.lexemes, Opening.warnings] using
      skipped.trans (List.sublist_append_left _ [opening.bracket])
  have ended : ((closing.warnings opening.element.name).map SyntaxWarning.span).Sublist
      [closing.lexeme.span] := by
    rw [Closing.warnings]
    split
    · exact List.nil_sublist _
    · exact .refl _
  simpa using (begun.append inside).append ended

/-- What is reported of markup stands in the order of its tokens. -/
theorem sublist_warnings (m : Markup) :
    (m.warnings.map SyntaxWarning.span).Sublist (m.lexemes.map Lexeme.span) := by
  induction m with
  | empty => exact .slnil
  | word before text span ih =>
    rw [lexemes, List.map_append]
    exact ih.trans (List.sublist_append_left _ _)
  | element before opening inner closing ihBefore ihInner =>
    have element := sublist_warnings_single ihInner opening closing
    simpa [warnings, lexemes] using ihBefore.append element

end Markup

/-! ## Where tokens start -/

namespace LaidOut

variable {before text : String} {lexemes : List Lexeme} {l : Lexeme}

/-- A token is as long as its literal. -/
theorem stop_eq (laid : LaidOut before lexemes text) (hl : l ∈ lexemes) :
    l.span.stop = l.span.start + l.token.literal.utf8ByteSize := by
  induction laid with
  | nil => cases hl
  | cons _ place _ ih =>
    rcases List.mem_cons.mp hl with rfl | hl
    · simp [place, Span.behind]
    · exact ih hl

end LaidOut

/-- The tokens of a text lie in it one behind the other. -/
theorem laidOut_tokenize (source : String) : LaidOut "" (tokenize source) source := by
  obtain ⟨lexemes, last, collected, gives, ended⟩ := (Lexer.ofString source).collect_gives []
  have laid := @Lexer.Gives.laidOut _ _ _ "" gives ended rfl
  rw [tokenize, collected]
  rwa [Lexer.ofString, String.ofList_toList] at laid

/-- Every token of a text starts behind those in front of it. Tokens lie one behind the other, and
each but the end of the text has at least one character. -/
theorem pairwise_start_lt (source : String) :
    ((tokenize source).takeWhile (!·.token.isEof)).Pairwise fun l m =>
      l.span.start < m.span.start := by
  have laid := laidOut_tokenize source
  have apart := laid.pairwise_stop_le_start.sublist
    (List.takeWhile_sublist (!·.token.isEof))
  refine apart.imp_of_mem fun {l m} hl _ behind => ?_
  obtain ⟨c, cs, literal, -⟩ := (isSpelt_of_mem_tokenize hl).exists_literal_eq_cons
  have long : 0 < l.token.literal.utf8ByteSize := by
    refine Nat.pos_of_ne_zero fun empty => ?_
    simp [String.utf8ByteSize_eq_zero_iff.mp empty] at literal
  have whole := laid.stop_eq ((List.takeWhile_subset _) hl)
  omega

/-! ## Order -/

/-- The first of some spans that start one behind the other is the one that starts before all. -/
theorem head?_eq_some_iff_of_pairwise {spans : List Span} {first : Span}
    (apart : spans.Pairwise fun a b => a.start < b.start) :
    spans.head? = some first ↔ first ∈ spans ∧ ∀ span ∈ spans, first.start ≤ span.start := by
  cases apart with
  | nil => simp
  | @cons head rest behind _ =>
    refine ⟨?_, ?_⟩
    · rintro ⟨⟩
      refine ⟨List.mem_cons_self, fun span h => ?_⟩
      rcases List.mem_cons.mp h with rfl | h
      · exact Nat.le_refl _
      · exact Nat.le_of_lt (behind span h)
    · rintro ⟨h, least⟩
      rcases List.mem_cons.mp h with rfl | h
      · rfl
      · have := least head List.mem_cons_self
        have := behind first h
        omega

namespace SyntaxError

/-- **Errors in the order of the document**, whose tokens are given. These are all the properties of
errors that a reader of them may count on, each as a field. -/
structure InOrder (tokens : List Lexeme) (errors : List SyntaxError) : Prop where
  /-- no stray is left out, up to the fault that stops the reading -/
  told : Told tokens errors
  ne_nil : errors ≠ []
  /-- a document is reported as empty if it is, and only then -/
  empty_iff : errors = [.emptyDocument] ↔ tokens = []
  /-- every span is the span of a token, one behind the other -/
  placed : (errors.filterMap span?).Sublist (tokens.map Lexeme.span)
  increasing : (errors.filterMap span?).Pairwise fun a b => a.start < b.start
  /-- what comes before the last error does not stop the reading -/
  astray : ∀ e ∈ errors.dropLast, IsStrayOf tokens e
  /-- what stops the reading comes last -/
  stops_last : ∀ e ∈ errors.dropLast, (∀ expected element, e ≠ .unexpectedEnd expected element) ∧
    (∀ span, e ≠ .tooDeep span) ∧ ∀ name span, e ≠ .secondRoot name span
  /-- the first position is the earliest -/
  first_iff : ∀ first, firstSpan errors = some first ↔
    (∃ e ∈ errors, e.span? = some first) ∧
      ∀ e ∈ errors, ∀ span, e.span? = some span → first.start ≤ span.start

/-- Errors as they are told are in order if the tokens are: all that is said of spans follows from
their being a part of those of the tokens. -/
theorem Told.inOrder {tokens : List Lexeme} {errors : List SyntaxError}
    (told : Told tokens errors)
    (apart : (tokens.map Lexeme.span).Pairwise fun a b => a.start < b.start) :
    InOrder tokens errors := by
  have increasing := apart.sublist told.sublist
  refine ⟨told, told.ne_nil, told.eq_emptyDocument_iff, told.sublist, increasing,
    fun e h => told.isStrayOf h, fun e h => ?_, fun first => ?_⟩
  · obtain ⟨_, _, _, _, _, _, rfl⟩ := told.isStrayOf h
    exact ⟨nofun, nofun, nofun⟩
  · rw [firstSpan, ← List.head?_filterMap, head?_eq_some_iff_of_pairwise increasing]
    simp only [List.mem_filterMap, forall_exists_index, and_imp]
    exact and_congr_right fun _ => ⟨fun h e he span => h span e he, fun h span e he => h e he span⟩

end SyntaxError

namespace Document

/-- **Faults come in the order of the document.** If it cannot be read, the errors that have a
position have those of tokens, each of them behind the one before; all errors but the last are
tokens that may not stand among contents, and only an empty document has no token to speak of. If it
is read, the warnings have the positions of tokens, each behind the one before. -/
theorem faults_in_order (source : String) :
    let tokens := (tokenize source).takeWhile (!·.token.isEof)
    (∀ errors, parse source = .error errors → SyntaxError.InOrder tokens errors) ∧
      ∀ document, parse source = .ok document →
        (document.warnings.map SyntaxWarning.span).Sublist (tokens.map Lexeme.span) ∧
          (document.warnings.map SyntaxWarning.span).Pairwise fun a b => a.start < b.start := by
  intro tokens
  have apart : (tokens.map Lexeme.span).Pairwise fun a b => a.start < b.start :=
    List.pairwise_map.mpr (pairwise_start_lt source)
  refine ⟨fun errors failed => (told_of_error failed).inOrder apart, fun document read => ?_⟩
  obtain ⟨opening, inner, closing, written, -, rfl⟩ := ofLexemes_eq_ok_iff.mp read
  have placed := (Markup.single opening inner closing).sublist_warnings
  rw [written] at placed
  exact ⟨placed, apart.sublist placed⟩

/-- Two strays and an end too early are reported in this order, the first of them at the second
token; and a document with a token to skip and a wrong close tag is read with two warnings. -/
theorem faults_in_order_of_three :
    (∃ errors, parse "<a> = > <b" = .error errors ∧
      errors.map SyntaxError.span? = [some ⟨1, 5, 4, 5⟩, some ⟨1, 7, 6, 7⟩, none] ∧
      SyntaxError.InOrder ((tokenize "<a> = > <b").takeWhile (!·.token.isEof)) errors) ∧
    ∃ document, parse "<a x></b>" = .ok document ∧
      document.warnings.map SyntaxWarning.span = [⟨1, 4, 3, 4⟩, ⟨1, 6, 5, 9⟩] ∧
      (document.warnings.map SyntaxWarning.span).Pairwise fun a b => a.start < b.start := by
  have failed : parse "<a> = > <b" = .error [.unexpectedToken .content .assign ⟨1, 5, 4, 5⟩,
      .unexpectedToken .content .endTag ⟨1, 7, 6, 7⟩, .unexpectedEnd .endTag "b"] := by
    decide +kernel
  have read : parse "<a x></b>" = .ok ⟨⟨.root, "a", [], []⟩,
      [.skippedToken "x" ⟨1, 4, 3, 4⟩, .mismatchedCloseTag "a" "b" ⟨1, 6, 5, 9⟩]⟩ := by
    decide +kernel
  exact ⟨⟨_, failed, rfl, (faults_in_order _).1 _ failed⟩,
    ⟨_, read, rfl, ((faults_in_order _).2 _ read).2⟩⟩

end Document

end StateMarkup
