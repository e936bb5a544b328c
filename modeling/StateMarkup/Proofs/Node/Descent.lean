import StateMarkup.Proofs.Node.Descent.Parts
import StateMarkup.Proofs.Node.RoundTrip

/-!
# Recursive descent reads what the parser reads

An element and its contents are read by functions that call each other. With steps enough for the
tokens ahead, each of them does what the parser does with the same tokens, or fails where it fails
(`Descent.ElementEnds`, `Descent.ContentsEnds`, by induction on the steps).

The parser joins a word to the text that it follows even if a stray token stands between them, and
the descent does not. Nothing comes of this, since there is no tree of a document with stray tokens;
`OpenElement.Beside` says how far the elements agree.

So a descent reads every list of tokens to its end, without a look at a place where no token is, and
what it gives depends on nothing but the tokens before the first end of the document
(`Descent.read_up_to_eof`).
-/

namespace StateMarkup

/-! ## Runs of words -/

/-- Words among contents. They join the text that they follow. What they make of an element that
ends otherwise is not said here; that is the lemma below. -/
theorem Parser.exists_feed_words {run : List Lexeme} (all_words : ∀ l ∈ run, l.token.kind = .text)
    (e : OpenElement) (outer : List OpenElement) (strays : List SyntaxError)
    (warnings : List SyntaxWarning) :
    ∃ e', feed ⟨.inContent e outer, strays, warnings⟩ run =
        ⟨.inContent e' outer, strays, warnings⟩ ∧ e'.name = e.name ∧
      ∀ (before : OpenElement) (text : String), e = before.push (.ofText text) →
        e' = before.push (.ofText (text ++ String.join (run.map (·.token.literal)))) := by
  induction run generalizing e with
  | nil => exact ⟨e, rfl, rfl, by rintro before text rfl; simp⟩
  | cons l run ih =>
    obtain ⟨is_word, others⟩ := List.forall_mem_cons.mp all_words
    obtain ⟨token, span⟩ := l
    cases token with
    | text word =>
      obtain ⟨e', fed, name, joined⟩ := ih others (e.pushText word)
      refine ⟨e', fed, name.trans (OpenElement.pushText_name e word), ?_⟩
      rintro before text rfl
      rw [joined before (text ++ word) rfl]
      simp [Token.literal, String.append_assoc]
    | _ => cases is_word

/-- A run of words becomes one text, unless it joins one. -/
theorem Parser.exists_feed_text {run : List Lexeme} (all_words : ∀ l ∈ run, l.token.kind = .text)
    (some_word : run ≠ []) (e : OpenElement) (outer : List OpenElement) (strays : List SyntaxError)
    (warnings : List SyntaxWarning) :
    ∃ e', feed ⟨.inContent e outer, strays, warnings⟩ run =
        ⟨.inContent e' outer, strays, warnings⟩ ∧ e'.name = e.name ∧
      ((∀ newest ∈ e.children.head?, newest.kind ≠ .text) →
        e' = e.push (.ofText (String.join (run.map (·.token.literal))))) := by
  obtain ⟨⟨token, span⟩, more, rfl⟩ := List.exists_cons_of_ne_nil some_word
  obtain ⟨is_word, others⟩ := List.forall_mem_cons.mp all_words
  cases token with
  | text word =>
    obtain ⟨e', fed, name, joined⟩ :=
      exists_feed_words others (e.pushText word) outer strays warnings
    refine ⟨e', fed, name.trans (OpenElement.pushText_name e word), fun apart => ?_⟩
    rw [joined e word (OpenElement.pushText_eq_push apart word)]
    simp [Token.literal]
  | _ => cases is_word

/-! ## A descent beside a parser -/

/-- A reader stands where a parser stands at the given stage, and the parser comes to the result
with the tokens ahead. The result is fixed once, and each part of the descent hands it on until it
is the result of what is left. -/
structure Reader.Meets (r : Reader) (stage : Stage) (result : Except (List SyntaxError) Document)
    (ahead : List Lexeme) : Prop where
  here : r.At ahead
  agreed : (Parser.feed ⟨stage, r.errors.reverse, r.warnings.reverse⟩ ahead).finish = result

/-- **Two elements side by side**: the one that a descent has open, and the parser's. As long as no
stray token has been met they are one, and no word comes next that would join a text. -/
structure OpenElement.Beside (e e' : OpenElement) (errors : List SyntaxError)
    (ahead : List Lexeme) : Prop where
  name : e'.name = e.name
  same : errors = [] → e' = e
  apart : errors = [] → (∃ l ∈ ahead.head?, l.token.kind = .text) →
    ∀ newest ∈ e.children.head?, newest.kind ≠ .text

namespace Descent

variable {α β : Type} {r r' : Reader} {l : Lexeme} {ahead rest : List Lexeme} {steps count : Nat}
  {result : Except (List SyntaxError) Document} {stage : Stage} {outer : List OpenElement}
  {e e' : OpenElement} {failed : SyntaxError → Reader → Prop} {starved : Prop}
  {good good' : α → Reader → Prop}

/-- On the same level, and without errors only if there were none before. Every part of a descent
that ends well leaves the reader like this. -/
structure Onward (r r' : Reader) : Prop where
  depth : r'.depth = r.depth
  errors : r'.errors = [] → r.errors = []

theorem Onward.trans {r'' : Reader} (first : Onward r r') (second : Onward r' r'') :
    Onward r r'' :=
  ⟨second.depth.trans first.depth, fun none => first.errors (second.errors none)⟩

/-- An element that has been read, with fewer than so many tokens behind it. The parser has an
element at the same place, and it is the same one unless a stray token has been met. -/
def IsElement (result : Except (List SyntaxError) Document) (outer : List OpenElement) (r : Reader)
    (count : Nat) (node : Node) (r' : Reader) : Prop :=
  ∃ node' rest, r'.Meets (.behind node' outer) result rest ∧ (r'.errors = [] → node' = node) ∧
    node.kind ≠ .text ∧ Onward r r' ∧ rest.length < count

/-- An element up to its close tag, with fewer than so many tokens behind that. The close tag is
still ahead. -/
def IsContents (result : Except (List SyntaxError) Document) (outer : List OpenElement) (r : Reader)
    (count : Nat) (e : OpenElement) (r' : Reader) : Prop :=
  ∃ e' literal span rest,
    r'.Meets (.inContent e' outer) result (⟨.closeTag literal, span⟩ :: rest) ∧
      e'.name = e.name ∧ (r'.errors = [] → e' = e) ∧ Onward r r' ∧ rest.length < count

/-- In so many steps an element is read beside the parser, unless they are too few. How many are
enough is said by the number of tokens ahead: each token costs at most a call for an element and one
for contents. -/
def ElementEnds (steps : Nat) : Prop :=
  ∀ {r : Reader} {stage : Stage} {outer : List OpenElement} {literal : String} {span : Span}
    {ahead : List Lexeme} {result : Except (List SyntaxError) Document},
    stage.Admits outer → r.depth = outer.length →
    r.Meets stage result (⟨.beginTag literal, span⟩ :: ahead) →
    Ends (Fails result) (steps < 2 * ahead.length + 3) (IsElement result outer r ahead.length)
      (element steps r)

/-- In so many steps the contents of an element are read beside the parser, unless they are too few.
This and `Descent.ElementEnds` are the two halves of one induction, since each of the functions
calls the other. -/
def ContentsEnds (steps : Nat) : Prop :=
  ∀ {r : Reader} {e e' : OpenElement} {outer : List OpenElement} {ahead : List Lexeme}
    {result : Except (List SyntaxError) Document},
    e.Beside e' r.errors ahead → r.depth = outer.length + 1 →
    r.Meets (.inContent e' outer) result ahead →
    Ends (Fails result) (steps < 2 * ahead.length + 2) (IsContents result outer r ahead.length)
      (contents steps e r)

/-! ## Elements -/

/-- Behind whatever has been read of them, the contents go on. There are fewer tokens ahead, so with
one step less they are still enough; this is where every branch of the loop ends up. -/
theorem contents_behind (ih : ContentsEnds steps) (depth : r.depth = outer.length + 1)
    (onward : Onward r r') (beside : e.Beside e' r'.errors rest)
    (meets : r'.Meets (.inContent e' outer) result rest) (fewer : rest.length < count) :
    Ends (Fails result) (steps + 1 < 2 * count + 2) (IsContents result outer r count)
      (contents steps e r') := by
  refine (ih beside (onward.depth.trans depth) meets).mono (fun few => by omega) ?_
  rintro e r'' ⟨e', literal, span, rest', meets', name, same, more, fewer'⟩
  exact ⟨e', literal, span, rest', meets', name, same, onward.trans more, fewer'.trans fewer⟩

/-- What is read one level further down. The depth is raised before and lowered behind it, also if
it fails. -/
theorem within_ends {part : Descent α} {good' : α → Reader → Prop}
    (ends : Ends failed starved good' (part (r.atDepth (r.depth + 1))))
    (failing : ∀ error r', failed error r' → failed error (r'.atDepth (r'.depth - 1)))
    (back : ∀ a r', good' a r' → good a (r'.atDepth (r'.depth - 1))) :
    Ends failed starved good (within part r) := by
  rw [within]
  generalize part (r.atDepth (r.depth + 1)) = ended at ends
  rcases ended with ⟨a, r'⟩ | ⟨_ | _ | _, r'⟩
  · exact back a r' ends
  · exact failing _ r' ends
  · exact ends
  · exact ends

/-- A token of the kind that is expected is taken. -/
theorem expect_cons (here : r.At (l :: ahead)) {kind : TokenKind} (found : l.token.kind = kind)
    (expected : Expectation) (name : String) : expect kind expected name r = .ok l r.next := by
  rw [expect, bind_of_ok (current_cons here), if_pos found, advance_cons here]

/-- A close tag makes the open element a node and is reported if it has another name. -/
theorem close_eq (e : OpenElement) (c : Closing) (here : r.At (c.lexeme :: ahead)) :
    close e r = .ok (e.toNode c.name)
      ⟨r.tokens, r.place + 1, r.errors, r.warnings ++ c.warnings e.name, r.depth⟩ := by
  rw [close, bind_of_ok (advance_cons here)]
  by_cases same : c.name = e.name
  · have plain : c.warnings e.name = [] := by rw [Closing.warnings, if_pos same]
    rw [plain, List.append_nil]
    exact (congrFun (if_pos same) _).trans rfl
  · have reported : c.warnings e.name = [.mismatchedCloseTag e.name c.name c.span] := by
      rw [Closing.warnings, if_neg same]
    rw [reported]
    exact (congrFun (if_neg same) _).trans rfl

/-- Contents up to a close tag are an element with it. -/
theorem close_ends (read : IsContents result outer r count e r') :
    Ends failed starved (IsElement result outer r count) (close e r') := by
  obtain ⟨e', literal, span, rest, meets, name, same, onward, fewer⟩ := read
  let c : Closing := ⟨literal, span⟩
  have agreed := meets.agreed
  have closed := Parser.step_closing e' outer r'.errors.reverse r'.warnings.reverse c
  rw [Parser.feed_cons, ← Closing.lexeme.eq_1 c, closed, name, ← List.reverse_append] at agreed
  rw [close_eq e c meets.here]
  exact ⟨e'.toNode c.name, rest, ⟨meets.here.next, agreed⟩, fun none => by rw [same none],
    OpenElement.toNode_ne_text e c.name, ⟨onward.depth, onward.errors⟩, fewer⟩

/-- Behind its begin tag an element is open for both. -/
theorem Moved.meets_inContent {literal : String} {span bracket : Span} {run : List Lexeme}
    (moved : Moved r.next r' (readAttributes run).2 (⟨.endTag, bracket⟩ :: rest))
    (run_open : ∀ l ∈ run, l.token ≠ .endTag) (admits : stage.Admits outer)
    (fits : outer.length < maxDepth)
    (meets : r.Meets stage result
      (⟨.beginTag literal, span⟩ :: (run ++ ⟨.endTag, bracket⟩ :: rest))) :
    r'.next.Meets (.inContent ⟨beginTagName literal, (readAttributes run).1, []⟩ outer) result
      rest := by
  let o : Opening := ⟨literal, span, run, bracket, run_open⟩
  have split : ⟨.beginTag literal, span⟩ :: (run ++ ⟨.endTag, bracket⟩ :: rest) =
      o.lexemes ++ rest := by simp [o, Opening.lexemes]
  have agreed := meets.agreed
  rw [split, Parser.feed_append, Parser.feed_opening admits fits] at agreed
  refine ⟨moved.here.next, ?_⟩
  rw [← agreed, Reader.next, moved.errors, moved.warnings, List.reverse_append]
  rfl

/-- **An element** without a look at its depth: its begin tag, its contents and its close tag, one
after the other. -/
theorem body_ends (ih : ContentsEnds steps) (admits : stage.Admits outer)
    (fits : outer.length < maxDepth) (depth : r.depth = outer.length + 1) {literal : String}
    {span : Span} (meets : r.Meets stage result (⟨.beginTag literal, span⟩ :: ahead)) :
    Ends (Fails result) (steps < 2 * ahead.length + 2) (IsElement result outer r ahead.length)
      (body steps (contents steps) r) := by
  have begun : expect .beginTag .beginTag "element" r = .ok ⟨.beginTag literal, span⟩ r.next :=
    expect_cons meets.here rfl _ _
  have unended (none : ∀ l ∈ ahead, l.token ≠ .endTag) :
      result = .error (r.errors ++ [.unexpectedEnd .endTag (beginTagName literal)]) := by
    have agreed := meets.agreed
    rw [Parser.feed_cons, Parser.step_beginTag admits fits, Parser.feed_run ahead none] at agreed
    simpa [Parser.finish] using agreed.symm
  rw [body, bind_of_ok begun]
  dsimp only [Token.literal]
  refine ((attributes_ends meets.here.next [] unended).imp_starved (by omega)).bind ?_
  rintro read r₁ ⟨run, bracket, rest, rfl, run_open, rfl, moved⟩
  have ended : expect .endTag .endTag (beginTagName literal) r₁ = .ok ⟨.endTag, bracket⟩ r₁.next :=
    expect_cons moved.here rfl _ _
  have meets₁ := moved.meets_inContent run_open admits fits meets
  have onward : Onward r r₁.next := ⟨moved.depth, fun none => moved.errors ▸ none⟩
  have fewer : rest.length < (run ++ ⟨.endTag, bracket⟩ :: rest).length := by
    rw [List.length_append, List.length_cons]
    omega
  rw [bind_of_ok ended]
  refine ((contents_behind ih depth onward ⟨rfl, fun _ => rfl, ?_⟩ meets₁ fewer).imp_starved
    (by omega)).bind fun e r₂ read => close_ends read
  rintro - - newest ⟨⟩

/-- **An element**, from its begin tag on. It is too deep for both or for neither. -/
theorem elementEnds_succ (ih : ContentsEnds steps) : ElementEnds (steps + 1) := by
  intro r stage outer literal span ahead result admits depth meets
  rw [element, get_bind]
  by_cases deep : maxDepth ≤ r.depth
  · rw [if_pos deep, bind_of_ok (current_cons meets.here)]
    show result = _
    have agreed := meets.agreed
    cases admits with
    | start => simp [depth, maxDepth] at deep
    | content e outer =>
      rw [depth, List.length_cons] at deep
      have stopped : Parser.step ⟨.inContent e outer, r.errors.reverse, r.warnings.reverse⟩
          ⟨.beginTag literal, span⟩ =
          ⟨.stopped (.tooDeep span), r.errors.reverse, r.warnings.reverse⟩ := by
        simp [Parser.step, Parser.goto, Nat.not_lt.mpr deep]
      rw [Parser.feed_cons, stopped, Parser.feed_stopped] at agreed
      simpa [Parser.finish] using agreed.symm
  · rw [if_neg deep]
    have fits : outer.length < maxDepth := depth ▸ Nat.lt_of_not_le deep
    have inner := body_ends (r := r.atDepth (r.depth + 1)) ih admits fits
      (congrArg (· + 1) depth) ⟨meets.here, meets.agreed⟩
    refine (within_ends inner (fun _ _ => id) ?_).imp_starved Nat.succ_lt_succ
    rintro node r' ⟨node', rest, meets', same, kind, onward, fewer⟩
    exact ⟨node', rest, ⟨meets'.here, meets'.agreed⟩, same, kind,
      ⟨congrArg (· - 1) onward.depth, onward.errors⟩, fewer⟩

/-! ## Contents -/

/-- A child is one for both, and it is no text, so a word behind it joins nothing. -/
theorem IsElement.beside {child : Node} {e' : OpenElement} (beside : e.Beside e' r.errors ahead)
    (read : IsElement result (e' :: outer) r count child r') :
    ∃ e₁' rest, (e.push child).Beside e₁' r'.errors rest ∧
      r'.Meets (.inContent e₁' outer) result rest ∧ Onward r r' ∧ rest.length < count := by
  obtain ⟨child', rest, meets, same, kind, onward, fewer⟩ := read
  refine ⟨e'.push child', rest, ⟨beside.name, fun none => ?_, fun _ _ newest h => ?_⟩, meets,
    onward, fewer⟩
  · rw [beside.same (onward.errors none), same none]
  · obtain rfl := Option.mem_some.mp h
    exact kind

/-- A run of words is one text for both, unless the parser joins it to another behind a stray
token. -/
theorem InWords.beside {word text : String} {span : Span}
    (beside : e.Beside e' r.errors (⟨.text word, span⟩ :: ahead))
    (meets : r.Meets (.inContent e' outer) result (⟨.text word, span⟩ :: ahead))
    (read : InWords (⟨.text word, span⟩ :: ahead) "" r text r') :
    ∃ e₁' rest, (e.push (.ofText text)).Beside e₁' r'.errors rest ∧
      r'.Meets (.inContent e₁' outer) result rest ∧ Onward r r' ∧
      rest.length < ahead.length + 1 := by
  obtain ⟨run, rest, split, all_words, apart, joined, moved⟩ := read
  have some_word : run ≠ [] := by
    rintro rfl
    rw [List.nil_append] at split
    subst split
    exact apart _ rfl rfl
  obtain ⟨e₁', fed, name, same⟩ := Parser.exists_feed_text all_words some_word e' outer
    r.errors.reverse r.warnings.reverse
  have onward : Onward r r' := ⟨moved.depth, fun none => moved.errors ▸ none⟩
  refine ⟨e₁', rest, ⟨name.trans beside.name, fun none => ?_, fun _ next => ?_⟩,
    ⟨moved.here, ?_⟩, onward, ?_⟩
  · have e_apart := beside.apart (onward.errors none) ⟨_, rfl, rfl⟩
    rw [← beside.same (onward.errors none)] at e_apart ⊢
    rw [same e_apart, joined, String.empty_append]
  · obtain ⟨l, hl, is_word⟩ := next
    exact absurd is_word (apart l hl)
  · rw [moved.errors, moved.warnings, List.append_nil, ← fed, ← Parser.feed_append, ← split]
    exact meets.agreed
  · have lengths := congrArg List.length split
    have some_words := List.length_pos_of_ne_nil some_word
    simp only [List.length_cons, List.length_append] at lengths
    omega

/-- A token that may not stand among contents is noted and left behind. -/
theorem passOver_eq (here : r.At (l :: ahead)) :
    passOver r = .ok ⟨⟩ (r.note (.unexpectedToken .content l.token l.span)).next := by
  have next : advance (r.note (.unexpectedToken .content l.token l.span)) =
      .ok l (r.note (.unexpectedToken .content l.token l.span)).next := advance_cons here
  rw [passOver, bind_of_ok (current_cons here), modify_bind, bind_of_ok next]
  rfl

/-- A token that may not stand among contents is passed over by both. From then on there is an
error, and nothing more has to be said of the elements than their names. -/
theorem contents_behind_stray (ih : ContentsEnds steps) (depth : r.depth = outer.length + 1)
    (name : e'.name = e.name) (meets : r.Meets (.inContent e' outer) result (l :: ahead))
    (reported : Parser.step ⟨.inContent e' outer, r.errors.reverse, r.warnings.reverse⟩ l =
      ⟨.inContent e' outer, .unexpectedToken .content l.token l.span :: r.errors.reverse,
        r.warnings.reverse⟩) :
    Ends (Fails result) (steps + 1 < 2 * (ahead.length + 1) + 2)
      (IsContents result outer r (ahead.length + 1))
      ((passOver >>= fun _ => contents steps e : Descent OpenElement) r) := by
  rw [bind_of_ok (passOver_eq meets.here)]
  generalize SyntaxError.unexpectedToken .content l.token l.span = error at reported ⊢
  have stray : (r.note error).next.errors ≠ [] := by simp [Reader.note, Reader.next]
  have meets' : (r.note error).next.Meets (.inContent e' outer) result ahead := by
    refine ⟨meets.here.next, ?_⟩
    rw [← meets.agreed, Parser.feed_cons, reported]
    simp [Reader.note, Reader.next]
  exact contents_behind ih depth ⟨rfl, fun none => absurd none stray⟩
    ⟨name, fun none => absurd none stray, fun none => absurd none stray⟩ meets'
    (Nat.lt_succ_self _)

/-- **Contents**, with one step more. The cases are the kinds of the next token, as in the loop
itself: a close tag ends them, a begin tag is that of a child, words are one text, the end is a
failure, and all others are strays. -/
theorem contentsEnds_succ (elements : ElementEnds steps) (ih : ContentsEnds steps) :
    ContentsEnds (steps + 1) := by
  intro r e e' outer ahead result beside depth meets
  cases ahead with
  | nil =>
    obtain ⟨ending, next⟩ := current_nil meets.here
    rw [contents, bind_of_ok next]
    show result = _
    rw [← meets.agreed, ← beside.name]
    simp [Parser.feed, Parser.finish]
  | cons l ahead =>
    obtain ⟨token, span⟩ := l
    rw [contents, bind_of_ok (current_cons meets.here)]
    cases token with
    | closeTag literal =>
      exact ⟨e', literal, span, ahead, meets, beside.name, beside.same, ⟨rfl, id⟩,
        Nat.lt_succ_self _⟩
    | eof => cases meets.here.2 _ List.mem_cons_self
    | beginTag literal =>
      -- both the child and the contents behind it have one step less
      have child := elements (.content e' outer) depth meets
      refine (child.imp_starved fun few => by rw [List.length_cons]; omega).bind
        fun child r₁ read => ?_
      obtain ⟨e₁', rest, beside₁, meets₁, onward, fewer⟩ := read.beside beside
      exact contents_behind ih depth onward beside₁ meets₁ (Nat.lt_succ_of_lt fewer)
    | text word =>
      have text : Ends (Fails result) _ _ (words steps "" r) := words_ends meets.here ""
      refine (text.imp_starved fun few => by rw [List.length_cons] at few ⊢; omega).bind
        fun text r₁ read => ?_
      obtain ⟨e₁', rest, beside₁, meets₁, onward, fewer⟩ := InWords.beside beside meets read
      exact contents_behind ih depth onward beside₁ meets₁ fewer
    | _ => exact contents_behind_stray ih depth beside.name meets rfl

/-- Both, for every number of steps. With no steps left they are too few, whatever is ahead. -/
theorem ends (steps : Nat) : ElementEnds steps ∧ ContentsEnds steps := by
  induction steps with
  | zero => exact ⟨fun _ _ _ => Nat.succ_pos _, fun _ _ _ => Nat.succ_pos _⟩
  | succ steps ih => exact ⟨elementEnds_succ ih.2, contentsEnds_succ ih.1 ih.2⟩

/-! ## Whole documents -/

/-- What is at the top of a document: a root that the parser has closed, too, or nothing, and then
the errors are all there is. -/
def IsTop (result : Except (List SyntaxError) Document) : Option Node → Reader → Prop
  | none, r => result = .error r.errors
  | some root, r =>
    ∃ root' rest, r.Meets (.closed root') result rest ∧ (r.errors = [] → root' = root)

/-- A failure at the top is noted among the errors, and there is no root then. -/
theorem noting_ends {part : Descent Node} {good : Node → Reader → Prop}
    (ends : Ends (Fails result) starved good (part r))
    (found : ∀ root r', good root r' → IsTop result (some root) r') :
    Ends failed starved (IsTop result) (noting part r) := by
  rw [noting]
  generalize part r = ended at ends
  rcases ended with ⟨a, r'⟩ | ⟨_ | _ | _, r'⟩
  · exact found a r' ends
  · exact ends
  · exact ends
  · exact ends

/-- The first token of a document begins its root, or there is none. -/
theorem root?_ends (meets : r.Meets .start result ahead) (top : r.depth = 0) :
    Ends (fun error _ => result = .error [error]) (steps < 2 * ahead.length + 1) (IsTop result)
      (root? steps r) := by
  have agreed := meets.agreed
  cases ahead with
  | nil =>
    obtain ⟨ending, next⟩ := current_nil meets.here
    rw [root?, bind_of_ok next]
    exact agreed.symm
  | cons l ahead =>
    obtain ⟨token, span⟩ := l
    have stopped {error : SyntaxError} (reported : Parser.step
          ⟨.start, r.errors.reverse, r.warnings.reverse⟩ ⟨token, span⟩ =
          ⟨.stopped error, r.errors.reverse, r.warnings.reverse⟩) :
        IsTop result none (r.note error) := by
      rw [Parser.feed_cons, reported, Parser.feed_stopped] at agreed
      rw [← agreed]
      simp [IsTop, Parser.finish, Reader.note]
    rw [root?, bind_of_ok (current_cons meets.here)]
    cases token with
    | eof => cases meets.here.2 _ List.mem_cons_self
    | beginTag literal =>
      refine noting_ends (((ends steps).1 .start top meets).imp_starved
        fun few => by rw [List.length_cons]; omega) ?_
      rintro root r' ⟨root', rest, meets', same, -, -, -⟩
      exact ⟨root', rest, meets', same⟩
    | _ => exact stopped rfl

/-- Nothing but the end may stand behind the root. Whatever else does stops the parser, and the
descent notes it as an error. -/
theorem ending_eq {root : Node} (meets : r.Meets (.closed root) result ahead) :
    ∃ r', Descent.ending r = .ok ⟨⟩ r' ∧ (r'.errors = [] → r.errors = []) ∧
      result = if r'.errors.isEmpty then
          .ok ⟨⟨.root, root.name, root.attributes, root.children⟩, r'.warnings⟩
        else .error r'.errors := by
  have agreed := meets.agreed
  cases ahead with
  | nil =>
    obtain ⟨ending, next⟩ := current_nil meets.here
    refine ⟨r, ?_, id, ?_⟩
    · rw [Descent.ending, bind_of_ok next]
      rfl
    · rw [← agreed]
      simp [Parser.feed, Parser.finish]
  | cons l ahead =>
    obtain ⟨token, span⟩ := l
    have noted {error : SyntaxError} (reported : Parser.step
          ⟨.closed root, r.errors.reverse, r.warnings.reverse⟩ ⟨token, span⟩ =
          ⟨.stopped error, r.errors.reverse, r.warnings.reverse⟩) :
        ((r.note error).errors = [] → r.errors = []) ∧
          result = if (r.note error).errors.isEmpty then
            .ok ⟨⟨.root, root.name, root.attributes, root.children⟩, (r.note error).warnings⟩
          else .error (r.note error).errors := by
      rw [Parser.feed_cons, reported, Parser.feed_stopped] at agreed
      rw [← agreed]
      simp [Parser.finish, Reader.note]
    rw [Descent.ending, bind_of_ok (current_cons meets.here)]
    cases token with
    | eof => cases meets.here.2 _ List.mem_cons_self
    | _ => exact ⟨r.note _, rfl, noted rfl⟩

/-- A whole document: its root, then its end, and the errors if there are any. -/
theorem document_ends (steps : Nat) (meets : r.Meets .start result ahead) (top : r.depth = 0) :
    Ends (fun error _ => result = .error [error]) (steps < 2 * ahead.length + 1)
      (fun answer _ => answer = result) (document steps r) := by
  rw [document]
  refine (root?_ends meets top).bind ?_
  rintro (_ | root) r' found
  · exact found.symm
  · obtain ⟨root', rest, meets', same⟩ := found
    obtain ⟨r'', ended, more, answered⟩ := ending_eq meets'
    dsimp only
    rw [bind_of_ok ended, get_bind, answered]
    by_cases clean : r''.errors.isEmpty = true
    · obtain rfl := same (more (List.isEmpty_iff.mp clean))
      rw [if_pos clean, if_pos clean]
      rfl
    · rw [if_neg clean, if_neg clean]
      rfl

/-- **What a descent reads** is what the parser reads, if it has steps enough. -/
theorem read_eq_or (steps : Nat) (lexemes : List Lexeme) :
    read steps lexemes = .ok (Document.ofLexemes lexemes) ∨
      read steps lexemes = .error .outOfSteps ∧
        steps < 2 * (lexemes.takeWhile (!·.token.isEof)).length + 1 := by
  have meets : (Reader.start lexemes).Meets .start (Document.ofLexemes lexemes)
      (lexemes.takeWhile (!·.token.isEof)) := ⟨Reader.at_start lexemes, rfl⟩
  have ends := document_ends steps meets rfl
  rw [read]
  generalize document steps (Reader.start lexemes) = ended at ends
  rcases ended with ⟨answer, r⟩ | ⟨_ | _ | _, r⟩
  · exact .inl (congrArg Except.ok ends)
  · exact .inl (congrArg Except.ok ends.symm)
  · cases ends
  · exact .inr ⟨rfl, ends⟩

/-- Two steps for each token are enough, and one more. The tokens behind the first end of the
document do not count, so others with the same tokens before it are read alike. -/
theorem read_eq {lexemes others : List Lexeme} {steps : Nat}
    (same : others.takeWhile (!·.token.isEof) = lexemes.takeWhile (!·.token.isEof))
    (enough : 2 * lexemes.length + 1 ≤ steps) :
    read steps others = .ok (Document.ofLexemes lexemes) := by
  have alike : Document.ofLexemes others = Document.ofLexemes lexemes := by
    rw [Document.ofLexemes, Document.ofLexemes, same]
  rcases read_eq_or steps others with answer | ⟨-, few⟩
  · rw [answer, alike]
  · have fewer := (List.takeWhile_prefix (p := (!·.token.isEof)) (l := lexemes)).length_le
    rw [same] at few
    omega

/-- **Every list of tokens is read to its end, and what is behind the first end of the document
never shows.** However many steps there are, the only reason to have no answer is that they are too
few, never a look at a place where no token is; and two for each token, and one, are enough. What is
read then, the tree and the warnings or else all errors, is the same for the tokens before the first
end of the document alone, and with any end of the document and any tokens behind them. -/
theorem read_up_to_eof (lexemes : List Lexeme) :
    (∀ steps, read steps lexemes = .ok (Document.ofLexemes lexemes) ∨
      read steps lexemes = .error .outOfSteps) ∧
    Document.ofLexemes (lexemes.takeWhile (!·.token.isEof)) = Document.ofLexemes lexemes ∧
    ∀ spare, read (2 * lexemes.length + 1 + spare) lexemes = .ok (Document.ofLexemes lexemes) ∧
      read (2 * lexemes.length + 1 + spare) (lexemes.takeWhile (!·.token.isEof)) =
        .ok (Document.ofLexemes lexemes) ∧
      ∀ ending behind, read (2 * lexemes.length + 1 + spare)
        (lexemes.takeWhile (!·.token.isEof) ++ ⟨.eof, ending⟩ :: behind) =
          .ok (Document.ofLexemes lexemes) := by
  have again : (lexemes.takeWhile (!·.token.isEof)).takeWhile (!·.token.isEof) =
      lexemes.takeWhile (!·.token.isEof) := List.takeWhile_idem
  have with_end (ending : Span) (behind : List Lexeme) :
      (lexemes.takeWhile (!·.token.isEof) ++ ⟨.eof, ending⟩ :: behind).takeWhile
        (!·.token.isEof) = lexemes.takeWhile (!·.token.isEof) := by
    have inside : ∀ l ∈ lexemes.takeWhile (!·.token.isEof), (!l.token.isEof) = true := by
      intro l hl
      exact List.mem_takeWhile_imp (p := fun l : Lexeme => !l.token.isEof) hl
    rw [List.takeWhile_append_of_pos inside]
    exact List.append_nil _
  refine ⟨fun steps => (read_eq_or steps lexemes).imp_right And.left, ?_, fun spare => ?_⟩
  · rw [Document.ofLexemes, Document.ofLexemes, again]
  · have enough : 2 * lexemes.length + 1 ≤ 2 * lexemes.length + 1 + spare := Nat.le_add_right _ _
    exact ⟨read_eq rfl enough, read_eq again enough,
      fun ending behind => read_eq (with_end ending behind) enough⟩

/-- What would make up an attribute stands on both sides of an end of the document. -/
example : read 20 [⟨.beginTag "<a", ⟨1, 1, 0, 2⟩⟩, ⟨.text "k", ⟨1, 4, 3, 4⟩⟩,
    ⟨.assign, ⟨1, 5, 4, 5⟩⟩, ⟨.quote, ⟨1, 6, 5, 6⟩⟩, ⟨.eof, ⟨0, 0, 6, 6⟩⟩,
    ⟨.text "v", ⟨1, 7, 6, 7⟩⟩, ⟨.quote, ⟨1, 8, 7, 8⟩⟩, ⟨.endTag, ⟨1, 9, 8, 9⟩⟩,
    ⟨.closeTag "</a>", ⟨1, 10, 9, 13⟩⟩] = .ok (.error [.unexpectedEnd .endTag "a"]) := by
  decide +kernel

end Descent

end StateMarkup
