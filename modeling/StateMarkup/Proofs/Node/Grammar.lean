import StateMarkup.Proofs.Node.Reading
import StateMarkup.Proofs.Token.Spacing

/-!
# The grammar of documents

`Derives` is the grammar in its own words, over tokens without their places. An element is a begin
tag, anything up to the bracket that ends it, words and elements, and a close tag; elements nest no
deeper than `maxDepth`. A tidy element has nothing but attributes in its begin tag, and both of its
tags have the same name.

A document is read exactly if the tokens before its end are an element, and it is read without a
warning exactly if they are a tidy one (`Document.isRead_iff_derives`).
-/

namespace StateMarkup

/-! ## The names in tags -/

/-- What remains of a text without a given start; a text that does not have it remains whole. -/
inductive WithoutStart (start : List Char) : List Char → List Char → Prop where
  | taken (rest : List Char) : WithoutStart start (start ++ rest) rest
  | whole {text : List Char} : ¬ start <+: text → WithoutStart start text text

/-- What remains of a text without a given end: the same, read backwards. -/
def WithoutEnd (ending text rest : List Char) : Prop :=
  WithoutStart ending.reverse text.reverse rest.reverse

/-- What remains without a start is what taking it away once gives. -/
theorem withoutStart_iff {start text rest : List Char} :
    WithoutStart start text rest ↔ dropStart start text = rest := by
  rw [dropStart]
  constructor
  · rintro (_ | absent)
    · rw [if_pos (by simp), List.drop_left]
    · rw [if_neg (by simpa using absent)]
  · split
    · rename_i has
      obtain ⟨rest, rfl⟩ := List.isPrefixOf_iff_prefix.mp has
      rintro rfl
      rw [List.drop_left]
      exact .taken rest
    · rename_i absent
      rintro rfl
      exact .whole (by simpa using absent)

/-- The name that a begin tag gives to its element. -/
def OpensAs (literal name : String) : Prop := WithoutStart ['<'] literal.toList name.toList

/-- What stands in a text between the white space around it: behind white space only and before
white space only, and neither its first nor its last character is white space. -/
def Text.Surrounds (text rest : List Char) : Prop :=
  ∃ before after, text = before ++ rest ++ after ∧
    (∀ c ∈ before, isWhiteSpace c = true) ∧ (∀ c ∈ after, isWhiteSpace c = true) ∧
    (∀ c ∈ rest.head?, isWhiteSpace c = false) ∧ ∀ c ∈ rest.getLast?, isWhiteSpace c = false

/-- The name in a close tag: what stands between its brackets, without white space around it. -/
def ClosesAs (literal name : String) : Prop :=
  ∃ inner body, WithoutStart ['<', '/'] literal.toList inner ∧ WithoutEnd ['>'] inner body ∧
    Text.Surrounds body name.toList

/-- Trimming finds what the white space surrounds, and there is no other such part: the white space
before it is the longest run at the start, and that behind it the longest at the end. -/
theorem Text.surrounds_iff {text rest : List Char} :
    Text.Surrounds text rest ↔ Text.trimChars text = rest := by
  constructor
  · rintro ⟨before, after, rfl, blank_before, blank_after, first, last⟩
    rw [trimChars, List.append_assoc, List.dropWhile_append_of_pos blank_before]
    cases rest with
    | nil => simp [List.dropWhile_eq_nil_iff.mpr blank_after]
    | cons c rest =>
      have kept : (c :: rest ++ after).dropWhile isWhiteSpace = c :: rest ++ after := by
        simp [first c (by simp)]
      rw [kept, List.reverse_append, dropWhile_run (by simpa using blank_after),
        List.reverse_reverse]
      rwa [List.head?_reverse]
  · rintro rfl
    -- cut the text in front, then what is left behind
    let body := text.dropWhile isWhiteSpace
    let rest := body.reverse.dropWhile isWhiteSpace
    let after := body.reverse.takeWhile isWhiteSpace
    have parts : body = rest.reverse ++ after.reverse := by
      rw [← List.reverse_append, List.takeWhile_append_dropWhile, List.reverse_reverse]
    refine ⟨text.takeWhile isWhiteSpace, after.reverse, ?_, ?_, ?_, ?_, ?_⟩
    · rw [trimChars, List.append_assoc, ← parts, List.takeWhile_append_dropWhile]
    · exact fun c hc => List.mem_takeWhile_imp hc
    · exact fun c hc => List.mem_takeWhile_imp (List.mem_reverse.mp hc)
    · intro c hc
      have hc : rest.reverse.head? = some c := hc
      refine head?_dropWhile isWhiteSpace text c ?_
      change c ∈ body.head?
      rw [parts, List.head?_append, hc, Option.some_or, Option.mem_def]
    · intro c hc
      rw [trimChars, List.getLast?_reverse] at hc
      exact head?_dropWhile isWhiteSpace body.reverse c hc

/-- The parser gives an element the name that its begin tag gives. -/
theorem opensAs_iff {literal name : String} :
    OpensAs literal name ↔ beginTagName literal = name := by
  rw [OpensAs, withoutStart_iff, beginTagName, ← String.toList_inj, String.toList_ofList]

/-- And it closes it by the name in its close tag. The brackets are taken away first and the white
space between them afterwards. -/
theorem closesAs_iff {literal name : String} :
    ClosesAs literal name ↔ closeTagName literal = name := by
  simp only [ClosesAs, WithoutEnd, withoutStart_iff, Text.surrounds_iff, List.reverse_singleton]
  rw [closeTagName, ← String.toList_inj, String.toList_ofList]
  constructor
  · rintro ⟨inner, body, rfl, ended, trimmed⟩
    rw [ended, List.reverse_reverse, trimmed]
  · intro trimmed
    exact ⟨_, _, rfl, (List.reverse_reverse _).symm, trimmed⟩

/-- Two tags that name the same element. -/
def SameName (opening closing : String) : Prop :=
  ∃ name, OpensAs opening name ∧ ClosesAs closing name

/-- This is what the parser compares when it closes an element. -/
theorem sameName_iff {opening closing : String} :
    SameName opening closing ↔ closeTagName closing = beginTagName opening := by
  simp [SameName, opensAs_iff, closesAs_iff, eq_comm]

/-! ## Attributes -/

/-- The tokens of attributes: a name, the equals sign and a value between quotes, any number of
times. -/
inductive AttributeTokens : List Token → Prop where
  | nil : AttributeTokens []
  | cons {name value : String} {rest : List Token} : AttributeTokens rest →
      AttributeTokens (.text name :: .assign :: .quote :: .text value :: .quote :: rest)

/-- A token stands at some place. The grammar speaks of tokens and the parser of tokens with spans,
and this is how one comes back to the spans. -/
theorem exists_lexeme_of_map_eq_cons {lexemes : List Lexeme} {token : Token} {tokens : List Token}
    (h : lexemes.map (·.token) = token :: tokens) :
    ∃ span rest, lexemes = ⟨token, span⟩ :: rest ∧ rest.map (·.token) = tokens := by
  obtain ⟨lexeme, rest, rfl, rfl, rest_tokens⟩ := List.map_eq_cons_iff.mp h
  exact ⟨lexeme.span, rest, rfl, rest_tokens⟩

/-- What has the tokens of an element comes apart into a begin tag, what is inside, and a close
tag. -/
theorem exists_tags_of_map_eq {lexemes : List Lexeme} {opening closing : String}
    {run contents : List Token} (run_open : .endTag ∉ run)
    (same : lexemes.map (·.token) =
      .beginTag opening :: run ++ [.endTag] ++ contents ++ [.closeTag closing]) :
    ∃ (o : Opening) (inner : List Lexeme) (c : Closing),
      lexemes = o.lexemes ++ inner ++ [c.lexeme] ∧ o.literal = opening ∧
      o.run.map (·.token) = run ∧ inner.map (·.token) = contents ∧ c.literal = closing := by
  -- from the outside in, as the tokens are put together
  obtain ⟨unclosed, close, rfl, whole, closed⟩ := List.map_eq_append_iff.mp same
  obtain ⟨begin, inner, rfl, begun, inside⟩ := List.map_eq_append_iff.mp whole
  obtain ⟨unended, bracket, rfl, started, ended⟩ := List.map_eq_append_iff.mp begun
  obtain ⟨openSpan, run, rfl, rfl⟩ := exists_lexeme_of_map_eq_cons started
  obtain ⟨bracketSpan, rest, rfl, no_rest⟩ := exists_lexeme_of_map_eq_cons ended
  obtain rfl := List.map_eq_nil_iff.mp no_rest
  obtain ⟨closeSpan, rest, rfl, no_rest⟩ := exists_lexeme_of_map_eq_cons closed
  obtain rfl := List.map_eq_nil_iff.mp no_rest
  exact ⟨⟨opening, openSpan, run, bracketSpan, by simpa using run_open⟩, inner,
    ⟨closing, closeSpan⟩, rfl, rfl, rfl, inside, rfl⟩

/-- No token of a begin tag is skipped exactly if all of them belong to attributes. The induction is
that of the reader; where it skips a token, no attribute begins and there is no derivation. -/
theorem readAttributes_warnings_eq_nil_iff {run : List Lexeme} :
    (readAttributes run).2 = [] ↔ AttributeTokens (run.map (·.token)) := by
  fun_induction readAttributes run with
  | case1 name _ _ _ value _ _ rest attributes warnings read ih =>
    rw [read] at ih
    constructor
    · intro clean
      exact .cons (ih.mp clean)
    · rintro (_ | rest)
      exact ih.mpr rest
  | case2 lexeme rest shapeless attributes warnings read ih =>
    refine iff_of_false (List.cons_ne_nil _ _) fun shape => ?_
    generalize tokens : (lexeme :: rest).map (·.token) = ts at shape
    cases shape with
    | nil => cases tokens
    | cons _ =>
      obtain ⟨_, _, name, assign⟩ := exists_lexeme_of_map_eq_cons tokens
      obtain ⟨rfl, rfl⟩ := List.cons.inj name
      obtain ⟨_, _, rfl, quote⟩ := exists_lexeme_of_map_eq_cons assign
      obtain ⟨_, _, rfl, value⟩ := exists_lexeme_of_map_eq_cons quote
      obtain ⟨_, _, rfl, quoted⟩ := exists_lexeme_of_map_eq_cons value
      obtain ⟨_, _, rfl, _⟩ := exists_lexeme_of_map_eq_cons quoted
      exact shapeless _ _ _ _ _ _ _ _ rfl rfl
  | case3 => exact iff_of_true rfl .nil

/-! ## The grammar -/

/-- What tokens can stand for. -/
inductive Nonterminal where
  | element
  | contents
deriving DecidableEq, Repr

/-- The tokens that stand for an element at a depth, or for what is inside one, of whose elements
that is the depth. If it is asked for, they are tidy. -/
inductive Derives (tidy : Bool) : Nonterminal → Nat → List Token → Prop where
  | element {depth : Nat} {opening closing : String} {run contents : List Token} :
      depth ≤ maxDepth → .endTag ∉ run →
      (tidy = true → AttributeTokens run ∧ SameName opening closing) →
      Derives tidy .contents (depth + 1) contents →
      Derives tidy .element depth
        (.beginTag opening :: run ++ [.endTag] ++ contents ++ [.closeTag closing])
  | nil {depth : Nat} : Derives tidy .contents depth []
  | word {depth : Nat} {before : List Token} {text : String} :
      Derives tidy .contents depth before → Derives tidy .contents depth (before ++ [.text text])
  | child {depth : Nat} {before element : List Token} :
      Derives tidy .contents depth before → Derives tidy .element depth element →
      Derives tidy .contents depth (before ++ element)

variable {tidy : Bool} {depth : Nat}

/-! ## What is written out is derived -/

/-- Nothing is reported of a tidy element only. -/
theorem Markup.warnings_single_eq_nil_iff {opening : Opening} {inner : Markup} {closing : Closing} :
    (single opening inner closing).warnings = [] ↔
      inner.warnings = [] ∧ AttributeTokens (opening.run.map (·.token)) ∧
        SameName opening.literal closing.literal := by
  have named : closing.warnings opening.element.name = [] ↔
      SameName opening.literal closing.literal := by
    rw [sameName_iff, Closing.warnings, Closing.name]
    exact ite_eq_left_iff.trans (by simp [Opening.element])
  rw [warnings_single, List.append_eq_nil_iff, List.append_eq_nil_iff, named, Opening.warnings,
    readAttributes_warnings_eq_nil_iff, and_comm (b := inner.warnings = []), and_assoc]

/-- An element that is written out is derived, if what is inside it is. -/
theorem Derives.of_single {opening : Opening} {inner : Markup} {closing : Closing}
    (fits : depth ≤ maxDepth)
    (clean : tidy = true → (Markup.single opening inner closing).warnings = [])
    (contents : Derives tidy .contents (depth + 1) (inner.lexemes.map (·.token))) :
    Derives tidy .element depth ((Markup.single opening inner closing).lexemes.map (·.token)) := by
  have run_open : Token.endTag ∉ opening.run.map (·.token) := by
    simpa using opening.run_open
  have derived := Derives.element fits run_open
    (fun asked => (Markup.warnings_single_eq_nil_iff.mp (clean asked)).2) contents
  simpa [Opening.lexemes, Closing.lexeme] using derived

/-- What is written out is derived. The markup may be as high as the depth that is left, and the
depth grows by one inside every element. -/
theorem Derives.of_markup {m : Markup} (fits : depth + m.height ≤ maxDepth + 1)
    (clean : tidy = true → m.warnings = []) :
    Derives tidy .contents depth (m.lexemes.map (·.token)) := by
  induction m generalizing depth with
  | empty => exact .nil
  | word before text span ih =>
    rw [Markup.lexemes, List.map_append]
    exact .word (ih fits clean)
  | element before opening inner closing ihBefore ihInner =>
    simp only [Markup.height] at fits
    have both (asked : tidy = true) : before.warnings = [] ∧
        (Markup.single opening inner closing).warnings = [] :=
      List.append_eq_nil_iff.mp (clean asked)
    have contents : Derives tidy .contents (depth + 1) (inner.lexemes.map (·.token)) :=
      ihInner (by omega) fun asked => (Markup.warnings_single_eq_nil_iff.mp (both asked).2).1
    have before : Derives tidy .contents depth (before.lexemes.map (·.token)) :=
      ihBefore (by omega) fun asked => (both asked).1
    rw [Markup.lexemes, List.map_append]
    exact .child before (.of_single (by omega) (fun asked => (both asked).2) contents)

/-! ## What is derived can be written out -/

/-- What a derivation stands for, written with the given tokens. For contents this is said only up
to the limit, since there is no bound on the depth of contents without an element in them. -/
def Nonterminal.Written (tidy : Bool) (depth : Nat) (lexemes : List Lexeme) : Nonterminal → Prop
  | element => ∃ opening inner closing,
      (Markup.single opening inner closing).lexemes = lexemes ∧
      depth + inner.height ≤ maxDepth ∧
      (tidy = true → (Markup.single opening inner closing).warnings = [])
  | contents => depth ≤ maxDepth + 1 → ∃ m : Markup, m.lexemes = lexemes ∧
      depth + m.height ≤ maxDepth + 1 ∧ (tidy = true → m.warnings = [])

/-- What is derived can be written out, wherever its tokens stand. The induction is on the
derivation, and each part of it takes its part of the tokens with their spans. -/
theorem Derives.written {part : Nonterminal} {tokens : List Token}
    (derived : Derives tidy part depth tokens) {lexemes : List Lexeme}
    (same : lexemes.map (·.token) = tokens) : part.Written tidy depth lexemes := by
  induction derived generalizing lexemes with
  | @element depth opening closing run contents fits run_open tags _ ih =>
    obtain ⟨o, inner, c, rfl, rfl, rfl, inside, rfl⟩ := exists_tags_of_map_eq run_open same
    obtain ⟨m, rfl, height, clean⟩ := ih inside (by omega)
    exact ⟨o, m, c, rfl, by omega, fun asked =>
      Markup.warnings_single_eq_nil_iff.mpr ⟨clean asked, tags asked⟩⟩
  | nil =>
    obtain rfl := List.map_eq_nil_iff.mp same
    exact fun fits => ⟨.empty, rfl, fits, fun _ => rfl⟩
  | word _ ih =>
    intro fits
    obtain ⟨before, last, rfl, ahead, word⟩ := List.map_eq_append_iff.mp same
    obtain ⟨span, rest, rfl, no_rest⟩ := exists_lexeme_of_map_eq_cons word
    obtain rfl := List.map_eq_nil_iff.mp no_rest
    obtain ⟨m, rfl, height, clean⟩ := ih ahead fits
    exact ⟨.word m _ span, rfl, height, clean⟩
  | child _ _ ihBefore ihElement =>
    intro fits
    -- the tokens come apart where the derivation does
    obtain ⟨before, last, rfl, ahead, element⟩ := List.map_eq_append_iff.mp same
    obtain ⟨m, rfl, height, clean⟩ := ihBefore ahead fits
    obtain ⟨opening, inner, closing, rfl, inner_height, inner_clean⟩ := ihElement element
    refine ⟨.element m opening inner closing, rfl, ?_, fun asked => ?_⟩
    · simp only [Markup.height]
      omega
    · exact List.append_eq_nil_iff.mpr ⟨clean asked, inner_clean asked⟩

/-- An element of the grammar is markup of one element, within the limit. -/
theorem Derives.element_iff {lexemes : List Lexeme} :
    Derives tidy .element 1 (lexemes.map (·.token)) ↔ ∃ opening inner closing,
      (Markup.single opening inner closing).lexemes = lexemes ∧
      (Markup.single opening inner closing).height ≤ maxDepth ∧
      (tidy = true → (Markup.single opening inner closing).warnings = []) := by
  constructor
  · intro derived
    obtain ⟨opening, inner, closing, same, height, clean⟩ := derived.written rfl
    exact ⟨opening, inner, closing, same, by rw [Markup.height_single]; omega, clean⟩
  · rintro ⟨opening, inner, closing, rfl, height, clean⟩
    rw [Markup.height_single] at height
    refine .of_single (by simp [maxDepth]) clean (.of_markup (by omega) fun asked => ?_)
    exact (Markup.warnings_single_eq_nil_iff.mp (clean asked)).1

namespace Document

/-- **A document is read exactly if it is an element of the grammar**, and without a warning exactly
if it is a tidy one. The markup stands between the two: `Document.ofLexemes_eq_ok_iff` brings the
parser to it, and `Derives.element_iff` the grammar. -/
theorem isRead_iff_derives (lexemes : List Lexeme) :
    let tokens := (lexemes.map (·.token)).takeWhile (!·.isEof)
    ((∃ document, ofLexemes lexemes = .ok document) ↔ Derives false .element 1 tokens) ∧
      ((∃ root, ofLexemes lexemes = .ok ⟨root, []⟩) ↔ Derives true .element 1 tokens) := by
  intro tokens
  have before_end : tokens = (lexemes.takeWhile (!·.token.isEof)).map (·.token) :=
    List.takeWhile_map
  rw [before_end, Derives.element_iff, Derives.element_iff]
  simp only [ofLexemes_eq_ok_iff]
  -- both sides now speak of one element that is written out, so only its warnings are in question
  constructor
  · constructor
    · rintro ⟨_, opening, inner, closing, read, fits, rfl⟩
      exact ⟨opening, inner, closing, read, fits, nofun⟩
    · rintro ⟨opening, inner, closing, read, fits, _⟩
      exact ⟨_, opening, inner, closing, read, fits, rfl⟩
  · constructor
    · rintro ⟨_, opening, inner, closing, read, fits, same⟩
      exact ⟨opening, inner, closing, read, fits, fun _ => congrArg Document.warnings same⟩
    · rintro ⟨opening, inner, closing, read, fits, clean⟩
      refine ⟨(ofElement opening inner closing).root, opening, inner, closing, read, fits, ?_⟩
      rw [← clean trivial]
      rfl

end Document

end StateMarkup
