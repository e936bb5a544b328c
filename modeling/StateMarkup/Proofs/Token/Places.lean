import StateMarkup.Proofs.Token.Spacing

/-!
# Where tokens stand

A text is cut without a remainder: `LaidOut` says that it consists of the literals of its tokens,
with nothing but blanks before each, and that every token has the span of its literal there. Where a
literal stands follows from the text before it alone (`Span.behind`): its line from the line feeds,
its column from the characters behind the last of them, its ends from the bytes.

The tokens of a text come out of a lexer call by call (`Lexer.Gives`), and every call moves the
cursor over the blanks and the literal that it takes (`Lexer.next_splits`). So the cursor has
counted what lies behind it at every call, and `tokenize_lossless` follows by induction on the
calls.
-/

namespace StateMarkup

/-! ## Spans -/

/-- The span of a literal that stands behind the text `before`. It is made of that text alone and
knows nothing of cursors. -/
def Span.behind (before literal : String) : Span where
  line := 1 + before.toList.count '\n'
  col := 1 + (before.toList.reverse.takeWhile (· != '\n')).length
  start := before.utf8ByteSize
  stop := (before ++ literal).utf8ByteSize

namespace Cursor

/-- A cursor behind a text has counted its line feeds, the characters in its last line and its
bytes. The text grows at its end, as the cursor moves; a line feed there begins a new last line. -/
theorem origin_past (text : String) :
    origin.past text.toList =
      ⟨1 + text.toList.count '\n', 1 + (text.toList.reverse.takeWhile (· != '\n')).length,
        text.utf8ByteSize⟩ := by
  induction text using String.push_induction with
  | empty => rfl
  | push text c ih =>
    have moved : origin.past (text.push c).toList = (origin.past text.toList).advance c := by
      rw [String.toList_push, past_append, past_cons, past_nil]
    rw [moved, ih, advance]
    by_cases feed : c = '\n'
    · subst feed
      simp [Nat.add_assoc]
    · have goes_on : (c != '\n') = true := by simpa using feed
      simp [feed, Nat.add_assoc, Nat.add_comm 1]

/-- So a span between two cursors is that of the text between them. -/
theorem spanTo_origin_past (before literal : String) :
    (origin.past before.toList).spanTo (origin.past (before ++ literal).toList) =
      .behind before literal := by
  rw [origin_past, origin_past]
  rfl

end Cursor

/-- What stands between two stretches of bytes is found by their sizes. -/
theorem extract_between (before bytes behind : ByteArray) :
    (before ++ bytes ++ behind).extract before.size (before ++ bytes).size = bytes := by
  rw [ByteArray.extract_append, ByteArray.extract_append_eq_right rfl ByteArray.size_append]
  simp

/-! ## Tokens in a text -/

/-- **A text made of the tokens**, behind what is `before` it: each of them with blanks before its
literal, and with the span that its literal has there. -/
inductive LaidOut : String → List Lexeme → String → Prop where
  | nil {before : String} : LaidOut before [] ""
  | cons {before gap rest : String} {l : Lexeme} {lexemes : List Lexeme} : IsGap gap.toList →
      l.span = .behind (before ++ gap) l.token.literal →
      LaidOut (before ++ gap ++ l.token.literal) lexemes rest →
      LaidOut before (l :: lexemes) (gap ++ l.token.literal ++ rest)

namespace LaidOut

variable {before text : String} {lexemes : List Lexeme} {l : Lexeme}

/-- The bytes in the span of a token are those of its literal: as many bytes as stand before the
span are before the literal. -/
theorem extract_span (laid : LaidOut before lexemes text) (hl : l ∈ lexemes) :
    (before ++ text).toUTF8.extract l.span.start l.span.stop = l.token.literal.toUTF8 := by
  induction laid with
  | nil => cases hl
  | @cons before gap rest first lexemes blanks place laid ih =>
    rcases List.mem_cons.mp hl with rfl | hl
    · have found := extract_between (before ++ gap).toByteArray l.token.literal.toByteArray
        rest.toByteArray
      rw [place]
      simpa [Span.behind, String.append_assoc, ByteArray.append_assoc] using found
    · simpa [String.append_assoc] using ih hl

/-- A token stands behind what is before all tokens. -/
theorem utf8ByteSize_le_start (laid : LaidOut before lexemes text) (hl : l ∈ lexemes) :
    before.utf8ByteSize ≤ l.span.start := by
  induction laid with
  | nil => cases hl
  | @cons before gap rest first lexemes blanks place laid ih =>
    rcases List.mem_cons.mp hl with rfl | hl
    · simp [place, Span.behind]
    · have further := ih hl
      simp only [String.utf8ByteSize_append] at further
      omega

/-- No token begins before the one in front of it has ended. Those behind it are laid out behind its
literal, so the lemma above says it of all of them. -/
theorem pairwise_stop_le_start (laid : LaidOut before lexemes text) :
    lexemes.Pairwise fun l m => l.span.stop ≤ m.span.start := by
  induction laid with
  | nil => exact .nil
  | @cons before gap rest first lexemes blanks place laid ih =>
    refine .cons (fun l hl => ?_) ih
    rw [place]
    exact laid.utf8ByteSize_le_start hl

end LaidOut

/-! ## Calls of a lexer -/

namespace Lexer

/-- The lexer after several calls. -/
def after (l : Lexer) : Nat → Lexer
  | 0 => l
  | calls + 1 => l.next.2.after calls

/-- The next token, unless it is the end. -/
def item? (l : Lexer) : Option Lexeme :=
  if l.next.1.token.isEof then none else some l.next.1

/-- The tokens that a lexer gives one after the other, none of them the end, and the lexer behind
them. -/
inductive Gives : Lexer → List Lexeme → Lexer → Prop where
  | nil (l : Lexer) : Gives l [] l
  | cons {l last : Lexer} {lexemes : List Lexeme} : l.next.1.token.isEof = false →
      Gives l.next.2 lexemes last → Gives l (l.next.1 :: lexemes) last

/-- What is collected is what the lexer gives up to the end. Collecting is a recursion over the text
that is left; from here on the calls are counted instead. -/
theorem collect_gives (l : Lexer) (read : List Lexeme) :
    ∃ lexemes last, l.collect read = (read.reverse ++ lexemes, last) ∧ l.Gives lexemes last ∧
      last.next.1.token = .eof := by
  fun_induction collect l read with
  | case1 l read ends => exact ⟨[], l, by simp, .nil l, by simpa using ends⟩
  | case2 l read goes_on ih =>
    obtain ⟨lexemes, last, collected, gives, ended⟩ := ih
    refine ⟨l.next.1 :: lexemes, last, ?_, .cons (Bool.eq_false_iff.mpr goes_on) gives, ended⟩
    simpa using collected

variable {l last : Lexer} {lexemes : List Lexeme} {before : String}

/-- **What a call does**: blanks are passed over, a literal is taken, and the cursor moves over
both. At the end of the text the literal is empty. -/
theorem next_splits (l : Lexer) :
    ∃ gap, IsGap gap ∧ l.rest = gap ++ (l.next.1.token.literal.toList ++ l.next.2.rest) ∧
      l.next.1.span = (l.cursor.past gap).spanTo l.next.2.cursor ∧
      l.next.2.cursor = l.cursor.past (gap ++ l.next.1.token.literal.toList) := by
  have apart := List.takeWhile_append_dropWhile (p := isBlank) (l := l.rest)
  refine ⟨l.rest.takeWhile isBlank, fun c hc => List.mem_takeWhile_imp hc, ?_⟩
  rw [Cursor.past_append, next, take, skipBlanks]
  cases left : l.rest.dropWhile isBlank with
  | nil =>
    rw [left] at apart
    simp [Token.literal, apart]
  | cons c cs =>
    rw [left] at apart
    simp [Token.literal_read, apart]

/-- At the end nothing is left, and the next call gives the end again. -/
theorem next_of_eof (ended : l.next.1.token = .eof) :
    l.next.2.rest = [] ∧ l.next.2.next = l.next := by
  rw [next, take, skipBlanks] at ended
  cases left : l.rest.dropWhile isBlank with
  | nil => simp [next, take, skipBlanks, left]
  | cons c cs =>
    have read : (Token.read c cs).1 = .eof := by simpa [left] using ended
    exact absurd (Token.isEof_read c cs) (by simp [read, Token.isEof])

/-- One more token in front of those that the lexer behind it stands before. All that is known of
the cursor is the text behind it, and a call makes that longer by the gap and the literal. -/
theorem laidOut_next (place : l.cursor = .past .origin before.toList)
    (onward : ∀ behind : String, l.next.2.cursor = .past .origin behind.toList →
      LaidOut behind lexemes (String.ofList l.next.2.rest)) :
    LaidOut before (l.next.1 :: lexemes) (String.ofList l.rest) := by
  obtain ⟨gap, blanks, text, span, moved⟩ := l.next_splits
  have there : l.next.2.cursor =
      .past .origin (before ++ String.ofList gap ++ l.next.1.token.literal).toList := by
    simp [moved, place, Cursor.past_append]
  have here : l.cursor.past gap = .past .origin (before ++ String.ofList gap).toList := by
    simp [place, Cursor.past_append]
  rw [here, there, Cursor.spanTo_origin_past] at span
  have laid : LaidOut before (l.next.1 :: lexemes)
      (String.ofList gap ++ l.next.1.token.literal ++ String.ofList l.next.2.rest) :=
    .cons (by simpa using blanks) span (onward _ there)
  rw [text]
  simpa [String.append_assoc] using laid

/-- Behind the end every call gives it again. -/
theorem next_after_of_eof (ended : l.next.1.token = .eof) (calls : Nat) :
    (l.after calls).next = l.next := by
  induction calls generalizing l with
  | zero => rfl
  | succ calls ih =>
    have again := (next_of_eof ended).2
    have onward : (l.next.2.after calls).next = l.next.2.next := ih (by rw [again]; exact ended)
    rw [after, onward, again]

namespace Gives

/-- What is given makes up the text, and the end stands behind it with the blanks that are left. -/
theorem laidOut (gives : l.Gives lexemes last) (ended : last.next.1.token = .eof)
    (place : l.cursor = .past .origin before.toList) :
    LaidOut before (lexemes ++ [last.next.1]) (String.ofList l.rest) := by
  induction gives generalizing before with
  | nil l =>
    refine laidOut_next place fun behind _ => ?_
    rw [(next_of_eof ended).1]
    exact .nil
  | cons _ _ ih => exact laidOut_next place fun behind there => ih ended there

/-- Each call gives the next of the tokens, and behind them the end. -/
theorem next_after (gives : l.Gives lexemes last) (ended : last.next.1.token = .eof)
    (calls : Nat) : (l.after calls).next.1 = lexemes[calls]?.getD last.next.1 := by
  induction gives generalizing calls with
  | nil l => simp [next_after_of_eof ended]
  | cons _ _ ih =>
    cases calls with
    | zero => rfl
    | succ calls => simpa [after] using ih ended calls

/-- Each call gives the next item, and behind the last of them none. -/
theorem item?_after (gives : l.Gives lexemes last) (ended : last.next.1.token = .eof)
    (goes_on : ∀ lexeme ∈ lexemes, lexeme.token ≠ .eof) (calls : Nat) :
    (l.after calls).item? = lexemes[calls]? := by
  rw [item?, gives.next_after ended calls]
  cases found : lexemes[calls]? with
  | none => simp [ended]
  | some lexeme => simp [goes_on lexeme (List.mem_of_getElem? found)]

end Gives

end Lexer

/-! ## Cutting a text -/

/-- **Nothing of a text is lost when it is cut, and every token stands where its span says.** The
tokens of a text are its end, once and last, and before that tokens with literals that are not
empty. The literals with blanks before them are the text, each has the line, the column and the
bytes that its span gives, and the spans come one behind the other. A lexer that is called again and
again gives these tokens and then the same end for ever; taken as items, the end is left out. -/
theorem tokenize_lossless (source : String) :
    ∃ lexemes eof, tokenize source = lexemes ++ [eof] ∧ eof.token = .eof ∧
      (∀ l ∈ lexemes, l.token ≠ .eof ∧ l.token.literal ≠ "") ∧
      LaidOut "" (lexemes ++ [eof]) source ∧
      (∀ l ∈ lexemes ++ [eof],
        source.toUTF8.extract l.span.start l.span.stop = l.token.literal.toUTF8) ∧
      (lexemes ++ [eof]).Pairwise (fun l m => l.span.stop ≤ m.span.start) ∧
      ((Lexer.ofString source).collect []).1 = lexemes ∧
      ∀ calls, ((Lexer.ofString source).after calls).item? = lexemes[calls]? ∧
        ((Lexer.ofString source).after calls).next.1 = lexemes[calls]?.getD eof := by
  obtain ⟨lexemes, last, collected, gives, ended⟩ := (Lexer.ofString source).collect_gives []
  rw [List.reverse_nil, List.nil_append] at collected
  have all : tokenize source = lexemes ++ [last.next.1] := by rw [tokenize, collected]
  have spelt := (@tokens_tokenize_eq_iff source (lexemes.map (·.token))).mp (by simp [all, ended])
  have inner : ∀ l ∈ lexemes, l.token ≠ .eof ∧ l.token.literal ≠ "" := by
    intro l hl
    have spelt := spelt.1 l.token (List.mem_map_of_mem hl)
    obtain ⟨c, cs, literal, -⟩ := spelt.exists_literal_eq_cons
    refine ⟨fun ends => ?_, fun empty => ?_⟩
    · rw [ends] at spelt
      exact spelt
    · simp [empty] at literal
  -- the tokens as they are given lie in the text, and all that is said of spans follows from that
  have laid : LaidOut "" (lexemes ++ [last.next.1]) source := by
    have laid := @Lexer.Gives.laidOut _ _ _ "" gives ended rfl
    rwa [Lexer.ofString, String.ofList_toList] at laid
  refine ⟨lexemes, last.next.1, all, ended, inner, laid, fun l hl => ?_,
    laid.pairwise_stop_le_start, by rw [collected], fun calls => ⟨?_, ?_⟩⟩
  · simpa using laid.extract_span hl
  · exact gives.item?_after ended (fun l hl => (inner l hl).1) calls
  · exact gives.next_after ended calls

end StateMarkup
