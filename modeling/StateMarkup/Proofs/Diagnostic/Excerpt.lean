import StateMarkup.Diagnostic.Render
import StateMarkup.Proofs.Node.Faults
import StateMarkup.Proofs.Text.Lines

/-!
# Excerpts point at tokens

An error that has a span is about a token (`SyntaxError.IsAbout`), and the excerpt that is printed
with it marks the line on which the token starts, with carets from the token's first character on
(`Excerpt.Shows`). The margin in front of the carets counts characters, as the columns of spans do;
the number of carets is the number of bytes between the two ends of the span. So there are as many
carets as the token has characters if each of these is one byte, and not otherwise
(`Diagnostic.excerpt_points_iff`).
-/

namespace StateMarkup

/-! ## What an error is about -/

namespace SyntaxError

/-- An error is about a token: the one that was found, or the begin tag that may not stand there. -/
def IsAbout : SyntaxError → Lexeme → Prop
  | .unexpectedToken _ found span, l => found = l.token ∧ span = l.span
  | .secondRoot name span, l =>
    ∃ literal, l.token = .beginTag literal ∧ name = strayTagName literal ∧ span = l.span
  | .tooDeep span, l => ∃ literal, l.token = .beginTag literal ∧ span = l.span
  | .emptyDocument, _ => False
  | .unexpectedEnd _ _, _ => False

/-- An error about a token has the span of the token. -/
theorem IsAbout.span?_eq {e : SyntaxError} {l : Lexeme} (about : e.IsAbout l) :
    e.span? = some l.span := by
  cases e with
  | emptyDocument => cases about
  | unexpectedToken expected found span => exact congrArg some about.2
  | unexpectedEnd expected element => cases about
  | secondRoot name span =>
    obtain ⟨_, _, _, rfl⟩ := about
    rfl
  | tooDeep span =>
    obtain ⟨_, _, rfl⟩ := about
    rfl

end SyntaxError

namespace Parser

variable {p : Parser} {l : Lexeme} {lexemes : List Lexeme} {e : SyntaxError}

/-- The errors that a parser has met. -/
def errors (p : Parser) : List SyntaxError :=
  match p.stage with
  | .stopped error => error :: p.strays
  | _ => p.strays

/-- An error is an old one, or the one that is about the token. -/
theorem mem_or_isAbout {new : SyntaxError} {old : List SyntaxError} (h : e ∈ new :: old)
    (about : new.IsAbout l) : e ∈ old ∨ e.IsAbout l := by
  rcases List.mem_cons.mp h with rfl | h
  · exact .inr about
  · exact .inl h

/-- **One token**: an error that is new is about it. There is one case for each stage and kind of
token. -/
theorem isAbout_of_mem_step (h : e ∈ (p.step l).errors) : e ∈ p.errors ∨ e.IsAbout l := by
  obtain ⟨stage, strays, warnings⟩ := p
  obtain ⟨token, span⟩ := l
  cases stage with
  | start =>
    cases token with
    | beginTag literal => exact .inl h
    | _ => exact mem_or_isAbout h ⟨rfl, rfl⟩
  | inTag name run outer =>
    cases token with
    | _ => exact .inl h
  | inContent e outer =>
    cases token with
    | closeTag literal =>
      cases outer with
      | nil => exact .inl h
      | cons parent outer => exact .inl h
    | beginTag literal =>
      by_cases deep : outer.length + 1 < maxDepth
      · simp only [step, deep, if_true] at h
        exact .inl h
      · simp only [step, deep, if_false] at h
        exact mem_or_isAbout h ⟨literal, rfl, rfl⟩
    | text word => exact .inl h
    | _ => exact mem_or_isAbout h ⟨rfl, rfl⟩
  | closed root =>
    cases token with
    | beginTag literal => exact mem_or_isAbout h ⟨literal, rfl, rfl, rfl⟩
    | _ => exact mem_or_isAbout h ⟨rfl, rfl⟩
  | stopped error => exact .inl h

/-- **Several tokens**: an error that is new is about one of them. -/
theorem exists_of_mem_feed (h : e ∈ (p.feed lexemes).errors) :
    e ∈ p.errors ∨ ∃ l ∈ lexemes, e.IsAbout l := by
  induction lexemes generalizing p with
  | nil => exact .inl h
  | cons first rest ih =>
    rcases ih h with before | ⟨l, hl, about⟩
    · exact (isAbout_of_mem_step before).imp_right fun about => ⟨first, List.mem_cons_self, about⟩
    · exact .inr ⟨l, List.mem_cons_of_mem first hl, about⟩

/-- An error with a span that is reported has been met. What is found only at the end of the tokens
has none. -/
theorem mem_errors_of_finish {errors : List SyntaxError} (failed : p.finish = .error errors)
    (h : e ∈ errors) {span : Span} (placed : e.span? = some span) : e ∈ p.errors := by
  obtain ⟨stage, strays, warnings⟩ := p
  cases stage with
  | start =>
    cases failed
    obtain rfl := List.mem_singleton.mp h
    cases placed
  | inTag name run outer =>
    cases failed
    rcases List.mem_append.mp h with stray | last
    · exact List.mem_reverse.mp stray
    · obtain rfl := List.mem_singleton.mp last
      cases placed
  | inContent e outer =>
    cases failed
    rcases List.mem_append.mp h with stray | last
    · exact List.mem_reverse.mp stray
    · obtain rfl := List.mem_singleton.mp last
      cases placed
  | closed root =>
    simp only [finish] at failed
    split at failed
    · cases failed
    · cases failed
      exact List.mem_reverse.mp h
  | stopped error =>
    cases failed
    rcases List.mem_append.mp h with stray | last
    · exact List.mem_cons_of_mem _ (List.mem_reverse.mp stray)
    · exact List.mem_cons.mpr (.inl (List.mem_singleton.mp last))

end Parser

/-- An error with a span is about a token of the document. -/
theorem Document.exists_of_mem_errors {lexemes : List Lexeme} {errors : List SyntaxError}
    (failed : ofLexemes lexemes = .error errors) {e : SyntaxError} (h : e ∈ errors) {span : Span}
    (placed : e.span? = some span) :
    ∃ l ∈ lexemes.takeWhile (!·.token.isEof), e.IsAbout l := by
  rcases Parser.exists_of_mem_feed (Parser.mem_errors_of_finish failed h placed) with none | about
  · cases none
  · exact about

/-! ## The rows of an excerpt -/

/-- True of the rows that show a line and no more. -/
def ExcerptRow.isContext : ExcerptRow → Bool
  | .context _ _ => true
  | _ => false

/-- A number has no more digits than a larger one. -/
theorem length_toString_le {n m : Nat} (le : n ≤ m) :
    (toString n).length ≤ (toString m).length := by
  have digits (k : Nat) : (toString k).length = (Nat.toDigits 10 k).length := by
    rw [Nat.toString_eq_ofList_toDigits, String.length_ofList]
  rw [digits, digits, Nat.length_toDigits_le_iff (by decide) Nat.length_toDigits_pos]
  exact Nat.lt_of_le_of_lt le
    ((Nat.length_toDigits_le_iff (by decide) Nat.length_toDigits_pos).mp (Nat.le_refl _))

/-- A text that is padded is as wide as asked for, or wider if it was before. -/
theorem length_padLeft (width : Nat) (text : String) :
    (padLeft width text).length = max width text.length := by
  simp [padLeft]
  omega

namespace Excerpt

variable {lines : List String} {line : String} {number : Nat}

/-- A line of the document is among those near it, and no other has its number. -/
theorem exists_nearby (there : lines[number - 1]? = some line) (from_one : 0 < number) :
    ∃ above below, nearby lines number = above ++ (number, line) :: below ∧
      ∀ other ∈ above ++ below, other.1 ≠ number := by
  obtain ⟨inside, rfl⟩ := List.getElem?_eq_some_iff.mp there
  have length : (lines.take (number - 1)).length = number - 1 :=
    List.length_take_of_le (Nat.le_of_lt inside)
  have split : lines.zipIdx 1 = (lines.take (number - 1)).zipIdx 1 ++
      (lines[number - 1], number) :: (lines.drop (number - 1 + 1)).zipIdx (number + 1) := by
    have here : 1 + (number - 1) = number := by omega
    conv_lhs => rw [← List.take_append_drop (number - 1) lines, List.drop_eq_getElem_cons inside]
    rw [List.zipIdx_append, List.zipIdx_cons, length, here]
  rw [nearby, split, List.filter_append, List.filter_cons_of_pos (by simp), List.map_append,
    List.map_cons]
  refine ⟨_, _, rfl, ?_⟩
  simp only [List.mem_append, List.mem_map, List.mem_filter]
  rintro other (⟨⟨_, other⟩, ⟨mem, -⟩, rfl⟩ | ⟨⟨_, other⟩, ⟨mem, -⟩, rfl⟩)
  · have before := List.snd_lt_add_of_mem_zipIdx mem
    simp only [length] at before
    omega
  · have behind := List.le_snd_of_mem_zipIdx mem
    simp only at behind
    omega

/-- Lines with other numbers are shown as they are. -/
theorem isContext_of_mem_rowsOf {span : Span} {others : List (Nat × String)}
    (apart : ∀ other ∈ others, other.1 ≠ span.line) {row : ExcerptRow}
    (h : row ∈ others.flatMap fun (number, text) => rowsOf span number text) :
    row.isContext = true := by
  obtain ⟨⟨number, text⟩, among, mem⟩ := List.mem_flatMap.mp h
  simp only [rowsOf, if_neg (apart _ among)] at mem
  obtain rfl := List.mem_singleton.mp mem
  rfl

/-- **An excerpt of a document that has the line**: it is printed, with the line marked and carets
below it, and no other row is more than a line. The two rows have margins of the same width. -/
theorem exists_ofSource? {source : String} {span : Span}
    (there : (Text.lines source)[span.line - 1]? = some line) (from_one : 0 < span.line) :
    ∃ excerpt before behind, ofSource? source span = some excerpt ∧
      (∀ row ∈ before ++ behind, row.isContext = true) ∧
      excerpt.rows = before ++ .marked span.line line ::
        .carets (span.col - 1) (max (span.stop - span.start) 1) :: behind ∧
      (padLeft excerpt.width (toString span.line)).length = (padLeft excerpt.width "").length := by
  obtain ⟨above, below, near, apart⟩ := exists_nearby there from_one
  obtain ⟨inside, -⟩ := List.getElem?_eq_some_iff.mp there
  obtain ⟨apart_above, apart_below⟩ := List.forall_mem_append.mp apart
  let rows (part : List (Nat × String)) :=
    part.flatMap fun (number, text) => rowsOf span number text
  refine ⟨⟨(toString (min (span.line + 2) (Text.lines source).length)).length,
    rows (nearby (Text.lines source) span.line)⟩, rows above, rows below, ?_, ?_, ?_, ?_⟩
  · rw [ofSource?, if_neg (Nat.not_le.mpr inside)]
  · exact List.forall_mem_append.mpr ⟨fun row => isContext_of_mem_rowsOf apart_above,
      fun row => isContext_of_mem_rowsOf apart_below⟩
  · simp only [rows, near, List.flatMap_append, List.flatMap_cons, rowsOf, if_true]
    rfl
  · have fits := length_toString_le (n := span.line)
      (m := min (span.line + 2) (Text.lines source).length) (by omega)
    rw [length_padLeft, length_padLeft, Nat.max_eq_left fits, String.length_empty, Nat.max_zero]

/-! ## Excerpts and tokens -/

/-- **An excerpt shows a token** with so many carets: the line that is marked, and no other, is the
line on which the token starts. It is made of `lead`, the text between the last line feed before the
token and the token, and of the token and what follows as far as they are on the line; and the first
caret stands behind as many characters as `lead` has. -/
def Shows (excerpt : Excerpt) (source : String) (l : Lexeme) (count : Nat) : Prop :=
  ∃ above lead rest below before behind,
    Text.IsLine source.toList above (lead ++ rest) below ∧
    l.span = .behind (String.ofList (above ++ lead)) l.token.literal ∧
    l.token.literal.toList <+: rest ++ below ∧ rest.head? = l.token.literal.toList.head? ∧
    (∀ row ∈ before ++ behind, row.isContext = true) ∧
    excerpt.rows = before ++ .marked l.span.line (String.ofList (lead ++ rest)) ::
      .carets lead.length count :: behind

variable {excerpt : Excerpt} {source : String} {l : Lexeme} {count count' : Nat}

/-- So many carets are in one of its rows. -/
theorem Shows.exists_carets (shows : excerpt.Shows source l count) :
    ∃ margin, .carets margin count ∈ excerpt.rows := by
  obtain ⟨_, lead, _, _, before, behind, -, -, -, -, -, rows⟩ := shows
  exact ⟨lead.length, by simp [rows]⟩

/-- There is one row of carets. -/
theorem Shows.count_eq (shows : excerpt.Shows source l count)
    (other : excerpt.Shows source l count') : count = count' := by
  obtain ⟨margin, mem⟩ := shows.exists_carets
  obtain ⟨_, _, _, _, _, _, -, -, -, -, context, rows'⟩ := other
  simp only [rows', List.mem_append, List.mem_cons, reduceCtorEq, false_or,
    ExcerptRow.carets.injEq] at mem
  rcases mem with above | ⟨-, same⟩ | below
  · cases context _ (List.mem_append_left _ above)
  · exact same
  · cases context _ (List.mem_append_right _ below)

end Excerpt

/-- Where a token of a text stands. -/
theorem LaidOut.exists_of_mem {start text : String} {lexemes : List Lexeme} {l : Lexeme}
    (laid : LaidOut start lexemes text) (hl : l ∈ lexemes) :
    ∃ before after, start ++ text = before ++ (l.token.literal ++ after) ∧
      l.span = .behind before l.token.literal := by
  induction laid with
  | nil => cases hl
  | @cons before gap rest first lexemes blanks place laid ih =>
    rcases List.mem_cons.mp hl with rfl | hl
    · exact ⟨before ++ gap, rest, by simp only [String.append_assoc], place⟩
    · obtain ⟨before', after, split, place⟩ := ih hl
      refine ⟨before', after, ?_, place⟩
      rw [← split]
      simp only [String.append_assoc]

/-- The column behind a text counts what follows its last line feed. -/
theorem Span.col_behind {above lead : List Char} (unbroken : '\n' ∉ lead)
    (begins : above = [] ∨ above.getLast? = some '\n') (literal : String) :
    (Span.behind (String.ofList (above ++ lead)) literal).col - 1 = lead.length := by
  have own : (above ++ lead).reverse.takeWhile (· != '\n') = lead.reverse := by
    have all : ∀ c ∈ lead.reverse, (c != '\n') = true := by
      intro c hc
      refine bne_iff_ne.mpr ?_
      rintro rfl
      exact unbroken (List.mem_reverse.mp hc)
    have none : above.reverse.takeWhile (· != '\n') = [] := by
      rcases begins with rfl | last
      · rfl
      · rw [← List.head?_reverse] at last
        obtain ⟨rest, split⟩ := List.head?_eq_some_iff.mp last
        simp [split]
    rw [List.reverse_append, List.takeWhile_append_of_pos all, none, List.append_nil]
  simp only [behind, String.toList_ofList, own, List.length_reverse]
  omega

/-- A text has as many bytes as characters if each of them is one byte, and more otherwise. -/
theorem utf8ByteSize_eq_length_iff (text : String) :
    text.utf8ByteSize = text.length ↔ ∀ c ∈ text.toList, c.utf8Size = 1 := by
  have counted : text.length ≤ text.utf8ByteSize ∧
      (text.utf8ByteSize = text.length ↔ ∀ c ∈ text.toList, c.utf8Size = 1) := by
    induction text using String.push_induction with
    | empty => simp
    | push text c ih =>
      have size := c.utf8Size_pos
      obtain ⟨le, iff⟩ := ih
      simp only [String.utf8ByteSize_push, String.length_push, String.toList_push,
        List.forall_mem_append, List.forall_mem_singleton, ← iff]
      omega
  exact counted.2

namespace Excerpt

/-- **Every token is shown**, with a caret for each of its bytes. The text is cut at the token and
then at the last line feed before it. The line feeds up to there give the number of the line, and
what lies between the two cuts is what the margin has to be as wide as. -/
theorem exists_shows {source : String} {l : Lexeme} (hl : l ∈ tokenize source)
    {c : Char} {cs : List Char} (literal : l.token.literal.toList = c :: cs)
    (visible : isBlank c = false) :
    ∃ excerpt, ofSource? source l.span = some excerpt ∧
      (padLeft excerpt.width (toString l.span.line)).length = (padLeft excerpt.width "").length ∧
      excerpt.Shows source l l.token.literal.utf8ByteSize := by
  obtain ⟨before, after, split, place⟩ := (laidOut_tokenize source).exists_of_mem hl
  rw [String.empty_append] at split
  have feed : c ≠ '\n' := by
    rintro rfl
    cases visible
  have returns : c ≠ '\r' := by
    rintro rfl
    cases visible
  have text : source.toList = before.toList ++ c :: (cs ++ after.toList) := by
    simp [split, literal]
  -- a token does not begin with the end of a line, so its first character has a line around it
  obtain ⟨above, lead, tail, below, before_split, rest_split, line, there⟩ :=
    Text.exists_line_of_place before.toList (cs ++ after.toList) feed returns
  rw [← text] at line there
  obtain rfl : before = String.ofList (above ++ lead) := by
    rw [← before_split, String.ofList_toList]
  have unbroken : '\n' ∉ lead := fun h => line.unbroken (List.mem_append_left _ h)
  have marked : (Text.lines source)[l.span.line - 1]? =
      some (String.ofList (lead ++ c :: tail)) := by
    have number : l.span.line - 1 = (String.ofList (above ++ lead)).toList.count '\n' := by
      simp [place, Span.behind]
    rw [number, Text.lines, List.getElem?_map, there]
    rfl
  have bytes : max (l.span.stop - l.span.start) 1 = l.token.literal.utf8ByteSize := by
    have some_byte : l.token.literal.utf8ByteSize ≠ 0 := by
      intro empty
      simp [String.utf8ByteSize_eq_zero_iff.mp empty] at literal
    rw [(laidOut_tokenize source).stop_eq hl]
    omega
  obtain ⟨excerpt, rows_before, rows_behind, printed, context, rows, aligned⟩ :=
    exists_ofSource? marked (by rw [place]; exact Nat.lt_add_right _ Nat.one_pos)
  rw [bytes, place, Span.col_behind unbroken line.begins, ← place] at rows
  refine ⟨excerpt, printed, aligned, above, lead, c :: tail, below, rows_before, rows_behind, line,
    place, ?_, by simp [literal], context, rows⟩
  rw [literal, List.cons_append, ← rest_split]
  exact ⟨after.toList, by simp⟩

end Excerpt

/-! ## Excerpts of errors -/

namespace Diagnostic

/-- **Excerpts point at what is wrong, but count bytes.** An error with a span is about a token of
the document with this span. Its excerpt is printed, and it shows the token: the line that is marked
is the one on which the token starts, the margins of this line and of the carets are of one width,
and the first caret stands under the token's first character. There is a caret for each byte of the
token; so there is one for each character exactly if each character is one byte. -/
theorem excerpt_points_iff {source : String} {errors : List SyntaxError}
    (failed : Document.parse source = .error errors) {e : SyntaxError} (h : e ∈ errors)
    {span : Span} (placed : e.span? = some span) (file : String) (brush : Brush) :
    ∃ l ∈ tokenize source, l.span = span ∧ e.IsAbout l ∧ ∃ excerpt,
      Excerpt.ofSource? source span = some excerpt ∧
      (ofSyntaxError file source e).renderExcerpt brush = line "" ++ excerpt.render brush ∧
      (padLeft excerpt.width (toString span.line)).length = (padLeft excerpt.width "").length ∧
      excerpt.Shows source l l.token.literal.utf8ByteSize ∧
      (excerpt.Shows source l l.token.literal.length ↔
        ∀ c ∈ l.token.literal.toList, c.utf8Size = 1) := by
  obtain ⟨l, mem, about⟩ := Document.exists_of_mem_errors failed h placed
  obtain rfl : l.span = span := Option.some.inj (about.span?_eq.symm.trans placed)
  obtain ⟨c, cs, literal, visible⟩ := (isSpelt_of_mem_tokenize mem).exists_literal_eq_cons
  have token : l ∈ tokenize source := List.takeWhile_subset _ mem
  obtain ⟨excerpt, printed, aligned, shows⟩ := Excerpt.exists_shows token literal visible
  refine ⟨l, token, rfl, about, excerpt, printed, ?_, aligned, shows, ?_⟩
  · simp only [renderExcerpt, ofSyntaxError, placed, printed]
  · rw [← utf8ByteSize_eq_length_iff]
    exact ⟨fun counted => shows.count_eq counted, fun same => same ▸ shows⟩

/-- A stray equals sign on the second line: one caret in the third column. -/
theorem excerpt_points_at_stray :
    Document.parse "<a>\n  =</a>" = .error [.unexpectedToken .content .assign ⟨2, 3, 6, 7⟩] ∧
      ∃ excerpt, Excerpt.ofSource? "<a>\n  =</a>" ⟨2, 3, 6, 7⟩ = some excerpt ∧
        excerpt.Shows "<a>\n  =</a>" ⟨.assign, ⟨2, 3, 6, 7⟩⟩ 1 := by
  have failed : Document.parse "<a>\n  =</a>" =
      .error [.unexpectedToken .content .assign ⟨2, 3, 6, 7⟩] := by decide +kernel
  obtain ⟨⟨token, span⟩, -, rfl, ⟨rfl, -⟩, excerpt, printed, -, -, -, iff⟩ :=
    excerpt_points_iff failed (List.mem_singleton_self _) rfl "doc.fsml" ⟨false⟩
  have bytes : ∀ c ∈ Token.assign.literal.toList, c.utf8Size = 1 := by
    simp only [Token.literal, String.reduceToList, List.forall_mem_singleton]
    decide
  exact ⟨failed, excerpt, printed, iff.mpr bytes⟩

/-- One character of two bytes, with two carets below it. -/
theorem carets_count_bytes :
    Document.parse "é" = .error [.unexpectedToken .beginTag (.illegal 'é') ⟨1, 1, 0, 2⟩] ∧
      ⟨.illegal 'é', ⟨1, 1, 0, 2⟩⟩ ∈ tokenize "é" ∧ (Token.illegal 'é').literal.length = 1 ∧
      Excerpt.ofSource? "é" ⟨1, 1, 0, 2⟩ = some ⟨1, [.marked 1 "é", .carets 0 2]⟩ ∧
      ¬ Excerpt.Shows ⟨1, [.marked 1 "é", .carets 0 2]⟩ "é" ⟨.illegal 'é', ⟨1, 1, 0, 2⟩⟩ 1 := by
  refine ⟨by decide +kernel, by decide +kernel, by decide +kernel, by decide +kernel, ?_⟩
  intro shows
  obtain ⟨margin, single⟩ := shows.exists_carets
  simp at single

end Diagnostic

end StateMarkup
