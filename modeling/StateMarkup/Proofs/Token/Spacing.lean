import Mathlib.Data.List.TakeWhile
import StateMarkup.Token.Lexer

/-!
# Tokens with blanks between them

A text is cut into tokens in one way, and there are many texts for the same tokens. `Spaced` says
which: the tokens stand in order, each with its literal, with blanks wherever one likes and at least
one where a token would otherwise run on into what follows (`Token.gluesTo`). `Token.IsSpelt` says
which tokens there are at all.

`tokens_tokenize_eq_iff`: these are the tokens of a text exactly if they can be read and the text
has them with blanks between them.
-/

namespace StateMarkup

/-- Not empty, and made of letters, digits and underscores. -/
def IsWord (s : String) : Prop := s.toList ≠ [] ∧ ∀ c ∈ s.toList, isWordChar c = true

instance (s : String) : Decidable (IsWord s) :=
  decidable_of_iff (s.toList ≠ [] ∧ s.toList.all isWordChar = true) (by simp [IsWord])

/-- The words, character by character. -/
theorem isWord_iff {s : String} :
    IsWord s ↔ s.toList ≠ [] ∧ ∀ c ∈ s.toList,
      ('A' ≤ c ∧ c ≤ 'Z') ∨ ('a' ≤ c ∧ c ≤ 'z') ∨ ('0' ≤ c ∧ c ≤ '9') ∨ c = '_' := by
  simp only [IsWord, isWordChar_iff]

/-- Made of nothing but blanks. A gap may be empty. -/
def IsGap (cs : List Char) : Prop := ∀ c ∈ cs, isBlank c = true

instance (cs : List Char) : Decidable (IsGap cs) :=
  decidable_of_iff (cs.all isBlank = true) List.all_eq_true

/-- The gaps, character by character. -/
theorem isGap_iff {cs : List Char} :
    IsGap cs ↔ ∀ c ∈ cs, c = ' ' ∨ c = '\t' ∨ c = '\r' ∨ c = '\n' := by
  simp only [IsGap, isBlank_iff]

namespace Token

/-- The first character behind a token would be read as a part of it. -/
def gluesTo : Token → Char → Bool
  | .beginTag _, c => isWordChar c
  | .text _, c => isWordChar c
  | .closeTag literal, _ => literal.toList.getLast? != some '>'
  | .illegal '<', c => isWordChar c || c == '/'
  | _, _ => false

/-- **A token that can be read**: its literal looks as it does in a text. -/
def IsSpelt : Token → Prop
  | .beginTag literal => ∃ name, IsWord name ∧ literal = "<" ++ name
  | .endTag => True
  | .closeTag literal =>
    ∃ inner, '>' ∉ inner.toList ∧ (literal = "</" ++ inner ++ ">" ∨ literal = "</" ++ inner)
  | .text literal => IsWord literal
  | .assign => True
  | .quote => True
  | .eof => False
  | .illegal c => isBlank c = false ∧ isWordChar c = false ∧ c ≠ '>' ∧ c ≠ '"' ∧ c ≠ '='

end Token

/-- **A text with the tokens**, in order, with blanks before, between and behind them. -/
inductive Spaced : List Token → List Char → Prop where
  | nil {gap : List Char} : IsGap gap → Spaced [] gap
  | cons {gap rest : List Char} {token : Token} {tokens : List Token} : IsGap gap →
      (∀ c ∈ rest.head?, token.gluesTo c = false) → Spaced tokens rest →
      Spaced (token :: tokens) (gap ++ (token.literal.toList ++ rest))

/-! ## Runs of characters -/

section

variable {α : Type} {p : α → Bool} {run rest : List α}

/-- A run is taken off a text as far as it goes. Words and tags are both read in this way, so it is
stated for any kind of character. -/
theorem takeWhile_run (run_all : ∀ c ∈ run, p c = true) (ends : ∀ c ∈ rest.head?, p c = false) :
    (run ++ rest).takeWhile p = run := by
  rw [List.takeWhile_append_of_pos run_all]
  cases rest with
  | nil => simp
  | cons c rest => simp [ends c (by simp)]

/-- What is left of a text behind a run is what follows it. -/
theorem dropWhile_run (run_all : ∀ c ∈ run, p c = true) (ends : ∀ c ∈ rest.head?, p c = false) :
    (run ++ rest).dropWhile p = rest := by
  rw [List.dropWhile_append_of_pos run_all]
  cases rest with
  | nil => simp
  | cons c rest => simp [ends c (by simp)]

/-- What is left behind a run does not go on with it. This is what makes a run the longest one. -/
theorem head?_dropWhile (p : α → Bool) (cs : List α) :
    ∀ c ∈ (cs.dropWhile p).head?, p c = false := by
  intro c hc
  cases left : cs.dropWhile p with
  | nil => simp [left] at hc
  | cons d rest =>
    obtain rfl : d = c := by simpa [left] using hc
    have := List.head?_dropWhile_not p cs
    simpa [left] using this

end

/-! ## One token -/

/-- A word has a first character and goes on with characters of the same kind. -/
theorem IsWord.exists_cons {s : String} (word : IsWord s) :
    ∃ c run, s.toList = c :: run ∧ isWordChar c = true ∧ ∀ d ∈ run, isWordChar d = true := by
  obtain ⟨nonempty, all⟩ := word
  cases cs : s.toList with
  | nil => exact absurd cs nonempty
  | cons c run =>
    rw [cs] at all
    exact ⟨c, run, rfl, List.forall_mem_cons.mp all⟩

/-- A word is not begun by a character with a meaning of its own, so the lexer's questions before
the one about words are all answered with no. -/
theorem ne_of_isWordChar {c d : Char} (word : isWordChar c = true) (other : isWordChar d = false) :
    c ≠ d := by
  rintro rfl
  cases word.symm.trans other

/-- A text is read through its first bracket, and what follows that is left. -/
theorem throughBracket_of_mem {inner : List Char} (absent : '>' ∉ inner) (rest : List Char) :
    throughBracket (inner ++ '>' :: rest) = (inner ++ ['>'], rest) := by
  have before : ∀ c ∈ inner, (c != '>') = true := fun c hc => by
    simpa using ne_of_mem_of_not_mem hc absent
  rw [throughBracket, takeWhile_run before (by simp), dropWhile_run before (by simp)]

/-- A text without a bracket is read to its end. -/
theorem throughBracket_of_not_mem {inner : List Char} (absent : '>' ∉ inner) :
    throughBracket inner = (inner, []) := by
  have before : ∀ c ∈ inner, (c != '>') = true := fun c hc => by
    simpa using ne_of_mem_of_not_mem hc absent
  have nothing : inner.dropWhile (· != '>') = [] :=
    List.dropWhile_eq_nil_iff.mpr before
  rw [throughBracket, nothing]

namespace Token

/-- The end of a text is not written down. -/
theorem IsSpelt.isEof_eq_false {token : Token} (spelt : token.IsSpelt) : token.isEof = false := by
  cases token with
  | eof => exact absurd spelt id
  | _ => rfl

/-- A literal and a rest are read as the token and the rest. One lemma for each kind of token says
when this is so; `Token.readsBack` puts them together. -/
def ReadsBack (token : Token) (rest : List Char) : Prop :=
  ∃ c cs, token.literal.toList ++ rest = c :: cs ∧ isBlank c = false ∧ read c cs = (token, rest)

variable {rest : List Char}

/-- A word is read back if what follows it is no part of a word. -/
theorem readsBack_text {literal : String} (word : IsWord literal)
    (ends : ∀ c ∈ rest.head?, isWordChar c = false) : (text literal).ReadsBack rest := by
  obtain ⟨c, run, chars, hc, hrun⟩ := word.exists_cons
  refine ⟨c, run ++ rest, by rw [Token.literal, chars, List.cons_append],
    isBlank_eq_false_of_isWordChar hc, ?_⟩
  have plain (d : Char) (other : isWordChar d = false) : c ≠ d := ne_of_isWordChar hc other
  unfold read
  rw [if_neg (plain '<' (by decide)), if_neg (plain '>' (by decide)),
    if_neg (plain '"' (by decide)), if_neg (plain '=' (by decide)), if_pos hc,
    takeWhile_run hrun ends, dropWhile_run hrun ends, ← chars, String.ofList_toList]

/-- So is a begin tag. The character behind its bracket begins a word, so the tag is neither a close
tag nor a lone bracket. -/
theorem readsBack_beginTag {name : String} (word : IsWord name)
    (ends : ∀ c ∈ rest.head?, isWordChar c = false) : (beginTag ("<" ++ name)).ReadsBack rest := by
  obtain ⟨c, run, chars, hc, hrun⟩ := word.exists_cons
  refine ⟨'<', name.toList ++ rest, by simp [Token.literal], by decide, ?_⟩
  have slash : c ≠ '/' := ne_of_isWordChar hc (by decide)
  have all := word.2
  unfold read
  rw [if_pos rfl, chars, List.cons_append]
  split
  · rename_i cs same
    exact absurd (List.cons.inj same).1 slash
  · rename_i d cs _ same
    obtain ⟨rfl, rfl⟩ := List.cons.inj same
    rw [if_pos hc, ← List.cons_append, ← chars, takeWhile_run all ends, dropWhile_run all ends]
    simp
  · rename_i same
    cases same

/-- A close tag is read back whatever follows, as it ends at the first bracket and has no other. -/
theorem readsBack_closeTag {inner : String} (absent : '>' ∉ inner.toList) (rest : List Char) :
    (closeTag ("</" ++ inner ++ ">")).ReadsBack rest := by
  refine ⟨'<', '/' :: inner.toList ++ '>' :: rest, by simp [Token.literal], by decide, ?_⟩
  have slashed : '>' ∉ '/' :: inner.toList := by simp [absent]
  have through := throughBracket_of_mem slashed rest
  rw [List.cons_append] at through
  unfold read
  simp [through, ← String.toList_inj]

/-- A close tag without its bracket goes on to the end of the text. -/
theorem readsBack_closeTag_nil {inner : String} (absent : '>' ∉ inner.toList) :
    (closeTag ("</" ++ inner)).ReadsBack [] := by
  refine ⟨'<', '/' :: inner.toList, by simp [Token.literal], by decide, ?_⟩
  have slashed : '>' ∉ '/' :: inner.toList := by simp [absent]
  unfold read
  simp [throughBracket_of_not_mem slashed, ← String.toList_inj]

/-- A lone bracket is read back if what follows it begins neither a begin tag nor a close tag. -/
theorem readsBack_bracket (ends : ∀ c ∈ rest.head?, (isWordChar c || c == '/') = false) :
    (illegal '<').ReadsBack rest := by
  refine ⟨'<', rest, by simp [Token.literal], by decide, ?_⟩
  unfold read
  rw [if_pos rfl]
  cases rest with
  | nil => rfl
  | cons c rest =>
    obtain ⟨word, slash⟩ : isWordChar c = false ∧ c ≠ '/' := by simpa using ends c (by simp)
    split
    · rename_i same
      exact absurd (List.cons.inj same).1 slash
    · rename_i same
      obtain ⟨rfl, rfl⟩ := List.cons.inj same
      rw [if_neg (by simp [word])]
    · rename_i same
      cases same

/-- **Tokens are read back** where they do not run on into the rest. Spelt literals have one
character at least, and it tells the lexer which of its cases to take. -/
theorem readsBack {token : Token} (spelt : token.IsSpelt)
    (ends : ∀ c ∈ rest.head?, token.gluesTo c = false) : token.ReadsBack rest := by
  cases token with
  | beginTag literal =>
    obtain ⟨name, word, rfl⟩ := spelt
    exact readsBack_beginTag word ends
  | endTag => exact ⟨'>', rest, rfl, by decide, by simp [read]⟩
  | closeTag literal =>
    obtain ⟨inner, absent, rfl | rfl⟩ := spelt
    · exact readsBack_closeTag absent rest
    · cases rest with
      | nil => exact readsBack_closeTag_nil absent
      | cons c rest =>
        -- such a close tag takes whatever comes next
        have glued := ends c (by simp)
        have open_end : ("</" ++ inner).toList.getLast? = some '>' := by
          simpa [gluesTo] using glued
        have := List.mem_of_getLast? open_end
        simp [absent] at this
  | text literal => exact readsBack_text spelt ends
  | assign => exact ⟨'=', rest, rfl, by decide, by simp [read]⟩
  | quote => exact ⟨'"', rest, rfl, by decide, by simp [read]⟩
  | eof => exact absurd spelt id
  | illegal c =>
    obtain ⟨blank, word, bracket, quote, assign⟩ := spelt
    by_cases tag : c = '<'
    · subst tag
      exact readsBack_bracket ends
    · refine ⟨c, rest, by simp [Token.literal], blank, ?_⟩
      simp [read, tag, bracket, quote, assign, word]

/-- A literal begins with something other than a blank. So a gap before it is not made longer by
it. -/
theorem IsSpelt.exists_literal_eq_cons {token : Token} (spelt : token.IsSpelt) :
    ∃ c cs, token.literal.toList = c :: cs ∧ isBlank c = false := by
  have back : token.ReadsBack [] := readsBack spelt (by simp)
  obtain ⟨c, cs, front, blank, -⟩ := back
  exact ⟨c, cs, by simpa using front, blank⟩

/-- The longest run from a word character on is a word. -/
theorem isWord_takeWhile {c : Char} (word : isWordChar c = true) (cs : List Char) :
    IsWord (String.ofList (c :: cs.takeWhile isWordChar)) := by
  rw [IsWord, String.toList_ofList]
  refine ⟨List.cons_ne_nil _ _, fun d hd => ?_⟩
  rcases List.mem_cons.mp hd with rfl | hd
  · exact word
  · exact List.mem_takeWhile_imp hd

/-- A single character takes nothing of what follows it, unless it is a left bracket. -/
theorem gluesTo_illegal {c : Char} (other : c ≠ '<') (d : Char) :
    (illegal c).gluesTo d = false := by
  simp [gluesTo, other]

/-- What is read goes up to the first bracket, or there is none and it takes all. These are the two
forms of a close tag. -/
theorem throughBracket_cases (cs : List Char) :
    ∃ inner, '>' ∉ inner ∧
      ((∃ rest, throughBracket cs = (inner ++ ['>'], rest)) ∨ throughBracket cs = (inner, [])) := by
  have apart := List.takeWhile_append_dropWhile (p := (· != '>')) (l := cs)
  have absent : '>' ∉ cs.takeWhile (· != '>') := fun h => by simpa using List.mem_takeWhile_imp h
  cases left : cs.dropWhile (· != '>') with
  | nil =>
    rw [left, List.append_nil] at apart
    rw [apart] at absent
    exact ⟨cs, absent, .inr (throughBracket_of_not_mem absent)⟩
  | cons bracket rest =>
    obtain rfl : bracket = '>' := by simpa [left] using head?_dropWhile (· != '>') cs
    rw [left] at apart
    refine ⟨_, absent, .inl ⟨rest, ?_⟩⟩
    rw [← throughBracket_of_mem absent rest, apart]

/-- Reading through the first bracket goes past any other character first. -/
theorem throughBracket_cons {c : Char} (other : c ≠ '>') (cs : List Char) :
    throughBracket (c :: cs) = (c :: (throughBracket cs).1, (throughBracket cs).2) := by
  have goes_on : (c != '>') = true := by simpa using other
  unfold throughBracket
  rw [List.dropWhile_cons_of_pos (p := (· != '>')) goes_on,
    List.takeWhile_cons_of_pos (p := (· != '>')) goes_on]
  split <;> rfl

/-- A token that is read is spelt as it should be, and does not run on into the rest. This is the
other direction of `Token.readsBack`, and the cases are those of the lexer. -/
theorem isSpelt_read {c : Char} (blank : isBlank c = false) (cs : List Char) :
    (read c cs).1.IsSpelt ∧ ∀ d ∈ (read c cs).2.head?, (read c cs).1.gluesTo d = false := by
  fun_cases read c cs with
  | case1 tag cs =>
    rw [throughBracket_cons (by decide)]
    obtain ⟨inner, absent, ⟨rest, through⟩ | through⟩ := throughBracket_cases cs
    · rw [through]
      refine ⟨⟨String.ofList inner, by simpa using absent, .inl ?_⟩, ?_⟩
      · simp [← String.toList_inj]
      · have closed : ('<' :: '/' :: (inner ++ ['>'])).getLast? = some '>' :=
          List.getLast?_concat (l := '<' :: '/' :: inner)
        simp [gluesTo, closed]
    · rw [through]
      refine ⟨⟨String.ofList inner, by simpa using absent, .inr ?_⟩, by simp⟩
      simp [← String.toList_inj]
  | case2 tag d cs slash word =>
    refine ⟨⟨_, isWord_takeWhile word cs, ?_⟩, head?_dropWhile _ _⟩
    rw [List.takeWhile_cons_of_pos word]
    simp
  | case3 tag d cs slash plain =>
    refine ⟨by simp [IsSpelt, isBlank, isWordChar], ?_⟩
    have plain : isWordChar d = false := by simpa using plain
    simpa [gluesTo] using ⟨plain, slash⟩
  | case4 tag => simp [IsSpelt, isBlank, isWordChar]
  | case5 => exact ⟨trivial, by simp [gluesTo]⟩
  | case6 => exact ⟨trivial, by simp [gluesTo]⟩
  | case7 => exact ⟨trivial, by simp [gluesTo]⟩
  | case8 cs _ _ _ _ word => exact ⟨isWord_takeWhile word cs, head?_dropWhile _ _⟩
  | case9 cs tag bracket quote assign plain =>
    exact ⟨⟨blank, by simpa using plain, bracket, quote, assign⟩,
      fun d _ => gluesTo_illegal tag d⟩

end Token

/-! ## All tokens -/

namespace Lexer

variable {l : Lexer} {gap rest : List Char} {token : Token}

/-- Behind nothing but blanks there is the end. -/
theorem next_of_isGap (blanks : IsGap l.rest) : l.next.1.token = .eof := by
  have nothing : l.rest.dropWhile isBlank = [] :=
    List.dropWhile_eq_nil_iff.mpr blanks
  simp [next, skipBlanks, take, nothing]

/-- What can be read behind blanks is the next token. The blanks are the longest run of them, since
the token does not begin with one. -/
theorem next_of_readsBack (text : l.rest = gap ++ (token.literal.toList ++ rest))
    (blanks : IsGap gap) (back : token.ReadsBack rest) :
    l.next.1.token = token ∧ l.next.2.rest = rest := by
  obtain ⟨c, cs, front, blank, read⟩ := back
  have behind : l.rest.dropWhile isBlank = c :: cs := by
    rw [text, front]
    exact dropWhile_run blanks (by simpa using blank)
  simp [next, skipBlanks, take, behind, read]

/-- Tokens with blanks between them are collected one by one, behind those that have been read
already, and then comes the end. -/
theorem collect_of_spaced {tokens : List Token} {cs : List Char} (spaced : Spaced tokens cs)
    (spelt : ∀ t ∈ tokens, t.IsSpelt) (text : l.rest = cs) (read : List Lexeme) :
    (l.collect read).1.map (·.token) = read.reverse.map (·.token) ++ tokens ∧
      (l.collect read).2.next.1.token = .eof := by
  induction spaced generalizing l read with
  | nil blanks =>
    have ended := next_of_isGap (text ▸ blanks)
    rw [collect, if_pos (by simp [ended])]
    exact ⟨by simp, ended⟩
  | @cons gap rest token tokens blanks ends _ ih =>
    obtain ⟨first, others⟩ := List.forall_mem_cons.mp spelt
    obtain ⟨taken, left⟩ := next_of_readsBack text blanks (Token.readsBack first ends)
    have goes_on : ¬ l.next.1.token.isEof = true := by simp [taken, first.isEof_eq_false]
    rw [collect, if_neg goes_on]
    simpa [taken] using ih others left (l.next.1 :: read)

end Lexer

/-- Every text is made of tokens that can be read, and of blanks. So nothing that is written is no
document for the lexer. -/
theorem exists_spaced (cs : List Char) :
    ∃ tokens, (∀ t ∈ tokens, t.IsSpelt) ∧ Spaced tokens cs := by
  -- on the length: behind the blanks a token takes one character at least
  induction len : cs.length using Nat.strongRecOn generalizing cs with
  | ind n ih =>
    have apart := List.takeWhile_append_dropWhile (p := isBlank) (l := cs)
    have blanks : IsGap (cs.takeWhile isBlank) := fun c hc => List.mem_takeWhile_imp hc
    cases left : cs.dropWhile isBlank with
    | nil =>
      rw [left, List.append_nil] at apart
      exact ⟨[], nofun, .nil (apart ▸ blanks)⟩
    | cons c rest =>
      have blank : isBlank c = false := head?_dropWhile isBlank cs c (by simp [left])
      have shorter : (c :: rest).length ≤ cs.length := left ▸ (List.dropWhile_suffix _).length_le
      have used := Token.length_read_lt c rest
      obtain ⟨spelt, ends⟩ := Token.isSpelt_read blank rest
      obtain ⟨tokens, others, spaced⟩ := ih _ (by omega) (Token.read c rest).2 rfl
      refine ⟨_, List.forall_mem_cons.mpr ⟨spelt, others⟩, ?_⟩
      rw [← apart, left, ← Token.literal_read c rest]
      exact .cons blanks ends spaced

/-- **The tokens of a text** are the ones that it has with blanks between them. That a text has no
others follows from the other direction: some tokens it has, and these are read. -/
theorem tokens_tokenize_eq_iff {source : String} {tokens : List Token} :
    (tokenize source).map (·.token) = tokens ++ [.eof] ↔
      (∀ t ∈ tokens, t.IsSpelt) ∧ Spaced tokens source.toList := by
  have all {ts : List Token} (spelt : ∀ t ∈ ts, t.IsSpelt) (spaced : Spaced ts source.toList) :
      (tokenize source).map (·.token) = ts ++ [.eof] := by
    obtain ⟨collected, ended⟩ :=
      Lexer.collect_of_spaced (l := .ofString source) spaced spelt rfl []
    simp [tokenize, collected, ended]
  constructor
  · intro same
    obtain ⟨ts, spelt, spaced⟩ := exists_spaced source.toList
    obtain rfl : ts = tokens := List.append_cancel_right ((all spelt spaced).symm.trans same)
    exact ⟨spelt, spaced⟩
  · rintro ⟨spelt, spaced⟩
    exact all spelt spaced

/-- A text is read up to its end, which is none of the tokens that are spelt. -/
theorem tokens_takeWhile_tokenize {source : String} {tokens : List Token}
    (spelt : ∀ t ∈ tokens, t.IsSpelt) (spaced : Spaced tokens source.toList) :
    ((tokenize source).takeWhile (!·.token.isEof)).map (·.token) = tokens := by
  have all := tokens_tokenize_eq_iff.mpr ⟨spelt, spaced⟩
  have none_ends : ∀ t ∈ tokens, (!t.isEof) = true := fun t ht => by
    simp [(spelt t ht).isEof_eq_false]
  have before_end : ((tokenize source).map (·.token)).takeWhile (!·.isEof) =
      ((tokenize source).takeWhile (!·.token.isEof)).map (·.token) := List.takeWhile_map
  rw [← before_end, all]
  exact takeWhile_run none_ends (by simp [Token.isEof])

end StateMarkup
