import Mathlib.Data.List.Chain
import StateMarkup.Proofs.Token.Spacing

/-!
# Other gaps between the same tokens

The blanks of a text can be put elsewhere without a change to its tokens. `respaced` writes tokens
down with blanks of one's own choice before each of them and behind the last. What is read is the
same exactly if two tokens that `Token.mustPart` names are kept apart, and nothing follows a close
tag that `Token.isUnclosed` (`tokens_respaced_iff`).

The pairs come from the lexer's rule: `Token.gluesTo` asks for the one character behind a token, and
behind a token there is either a blank or the first character of the next literal.
-/

namespace StateMarkup

namespace Token

/-- True of words only. -/
def isText : Token → Bool
  | .text _ => true
  | _ => false

/-- Two tokens that run together, or into another one, if nothing stands between them. -/
def mustPart : Token → Token → Bool
  | .beginTag _, next => next.isText
  | .text _, next => next.isText
  | .illegal '<', next => next.isText || next == .illegal '/'
  | _, _ => false

/-- A close tag without its bracket: it goes on to the end of the text. -/
def isUnclosed : Token → Bool
  | .closeTag literal => !literal.toList.contains '>'
  | _ => false

/-! ## The character behind a token -/

namespace IsSpelt

variable {t u : Token} {c : Char} {cs : List Char}

/-- A close tag with a bracket ends there, and one without takes whatever comes next. It has at most
one bracket, so to end with one and to have one are the same. -/
theorem gluesTo_closeTag {literal : String} (spelt : (closeTag literal).IsSpelt) (c : Char) :
    (closeTag literal).gluesTo c = (closeTag literal).isUnclosed := by
  have ends_iff : literal.toList.getLast? = some '>' ↔ '>' ∈ literal.toList := by
    refine ⟨List.mem_of_getLast?, fun inside => ?_⟩
    obtain ⟨inner, absent, rfl | rfl⟩ := spelt
    · rw [String.toList_append]
      exact List.getLast?_concat
    · simp [absent] at inside
  rw [gluesTo, isUnclosed, Bool.eq_iff_iff]
  simp [ends_iff]

/-- An unclosed tag goes on with any character. -/
theorem gluesTo_of_isUnclosed (spelt : t.IsSpelt) (unclosed : t.isUnclosed = true) (c : Char) :
    t.gluesTo c = true := by
  cases t with
  | closeTag literal => rw [spelt.gluesTo_closeTag, unclosed]
  | _ => cases unclosed

/-- A blank ends every token but an unclosed one. It is no part of a word and no slash, and these
are all that the other tokens look out for. -/
theorem gluesTo_blank (spelt : t.IsSpelt) (closed : t.isUnclosed = false)
    (blank : isBlank c = true) : t.gluesTo c = false := by
  have plain : isWordChar c = false := by
    cases word : isWordChar c with
    | false => rfl
    | true => cases (isBlank_eq_false_of_isWordChar word).symm.trans blank
  cases t with
  | beginTag literal => exact plain
  | text literal => exact plain
  | closeTag literal => rw [spelt.gluesTo_closeTag, closed]
  | illegal d =>
    by_cases bracket : d = '<'
    · subst bracket
      have slash : c ≠ '/' := by
        rintro rfl
        cases blank
      simp [gluesTo, plain, slash]
    · exact gluesTo_illegal bracket c
  | _ => rfl

/-- The first character of a literal tells words and slashes from all other tokens. So what a token
looks out for in a character can be asked of the next token. -/
theorem first_char (spelt : u.IsSpelt) (front : u.literal.toList = c :: cs) :
    isWordChar c = u.isText ∧ (c == '/') = (u == .illegal '/') := by
  cases u with
  | beginTag literal =>
    obtain ⟨name, -, rfl⟩ := spelt
    obtain ⟨rfl, -⟩ : '<' = c ∧ name.toList = cs := by simpa [literal] using front
    exact ⟨rfl, rfl⟩
  | closeTag literal =>
    obtain ⟨rest, bracket⟩ : ∃ rest, literal.toList = '<' :: rest := by
      obtain ⟨inner, -, rfl | rfl⟩ := spelt <;> simp
    obtain ⟨rfl, -⟩ := List.cons.inj (bracket.symm.trans front)
    exact ⟨rfl, rfl⟩
  | text literal =>
    have word : isWordChar c = true :=
      spelt.2 c (by simp [show literal.toList = c :: cs from front])
    have slash : c ≠ '/' := ne_of_isWordChar word (by decide)
    exact ⟨word, by simp [slash]⟩
  | eof => exact absurd spelt id
  | illegal d =>
    obtain ⟨rfl, -⟩ : d = c ∧ [] = cs := by simpa [literal] using front
    exact ⟨spelt.2.1, by simp [beq_eq_decide]⟩
  | _ =>
    obtain ⟨rfl, -⟩ := List.cons.inj front
    exact ⟨rfl, rfl⟩

/-- A token runs on into the next literal exactly if the two must part. This turns the lexer's rule
about characters into one about tokens. -/
theorem gluesTo_eq_mustPart (spelt : t.IsSpelt) (closed : t.isUnclosed = false)
    (next : u.IsSpelt) (front : u.literal.toList = c :: cs) : t.gluesTo c = t.mustPart u := by
  obtain ⟨word, slash⟩ := next.first_char front
  cases t with
  | beginTag literal => exact word
  | text literal => exact word
  | closeTag literal =>
    rw [spelt.gluesTo_closeTag, closed]
    rfl
  | illegal d =>
    by_cases bracket : d = '<'
    · subst bracket
      simp only [gluesTo, mustPart, word, slash]
    · simp [gluesTo_illegal bracket, mustPart, bracket]
  | _ => rfl

end IsSpelt

end Token

/-! ## Texts with gaps of one's own -/

/-- Tokens, each with the gap before it, and the gap behind the last, as a text. -/
def respaced : List (String × Token) → String → String
  | [], last => last
  | (gap, t) :: rest, last => gap ++ (t.literal ++ respaced rest last)

namespace Spaced

variable {t u : Token} {tokens : List Token} {gap rest : List Char}

/-- The first token behind a gap, and what follows it. The gap and the literal are known here, so
nothing but the rest of the text is left to be divided. -/
theorem cons_iff (spelt : t.IsSpelt) (blanks : IsGap gap) :
    Spaced (t :: tokens) (gap ++ (t.literal.toList ++ rest)) ↔
      (∀ c ∈ rest.head?, t.gluesTo c = false) ∧ Spaced tokens rest := by
  refine ⟨fun spaced => ?_, fun ⟨ends, spaced⟩ => .cons blanks ends spaced⟩
  -- the literal begins with something other than a blank, so the gap is all blanks there are
  obtain ⟨c, cs, front, plain⟩ := spelt.exists_literal_eq_cons
  have run (gap rest : List Char) (blanks : IsGap gap) :
      (gap ++ (t.literal.toList ++ rest)).takeWhile isBlank = gap :=
    takeWhile_run blanks (by simpa [front] using plain)
  generalize text : gap ++ (t.literal.toList ++ rest) = whole at spaced
  cases spaced with
  | @cons gap' rest' _ _ blanks' ends spaced =>
    obtain rfl : gap = gap' := by rw [← run gap rest blanks, text, run gap' rest' blanks']
    obtain rfl : rest = rest' := by simpa using text
    exact ⟨ends, spaced⟩

/-- Nothing follows an unclosed tag: whatever stood there would have been read as part of it. -/
theorem isChain_closed (spaced : Spaced tokens rest) (spelt : ∀ t ∈ tokens, t.IsSpelt) :
    tokens.IsChain fun t _ => t.isUnclosed = false := by
  induction spaced with
  | nil _ => exact .nil
  | @cons gap rest t tokens blanks ends spaced ih =>
    obtain ⟨first, others⟩ := List.forall_mem_cons.mp spelt
    refine List.isChain_cons.mpr ⟨fun u hu => ?_, ih others⟩
    cases unclosed : t.isUnclosed with
    | false => rfl
    | true =>
      have behind : rest ≠ [] := by
        cases spaced with
        | nil => cases hu
        | @cons gap _ u tokens =>
          obtain ⟨c, cs, front, -⟩ := (others u (by simp)).exists_literal_eq_cons
          simp [front]
      obtain ⟨c, cs, rfl⟩ := List.exists_cons_of_ne_nil behind
      cases (first.gluesTo_of_isUnclosed unclosed c).symm.trans (ends c rfl)

end Spaced

/-- Behind a token there is a blank, or the next literal if the gap is empty. In the first case the
token ends in any case, and in the second exactly if the two need not part. -/
theorem Token.IsSpelt.ends_iff {t u : Token} {gap : String} (spelt : t.IsSpelt)
    (closed : t.isUnclosed = false) (next : u.IsSpelt) (blanks : IsGap gap.toList)
    (rest : List Char) :
    (∀ c ∈ (gap.toList ++ (u.literal.toList ++ rest)).head?, t.gluesTo c = false) ↔
      (t.mustPart u = true → gap ≠ "") := by
  rw [ne_eq, ← String.toList_eq_nil_iff]
  cases chars : gap.toList with
  | nil =>
    obtain ⟨c, cs, front, -⟩ := next.exists_literal_eq_cons
    simp [front, spelt.gluesTo_eq_mustPart closed next front]
  | cons c cs =>
    rw [chars] at blanks
    simpa using spelt.gluesTo_blank closed (blanks c (by simp))

/-- Behind the last token there is nothing but a gap, and an unclosed tag must not have one. -/
theorem Token.IsSpelt.ends_last_iff {t : Token} {gap : String} (spelt : t.IsSpelt)
    (blanks : IsGap gap.toList) :
    (∀ c ∈ gap.toList.head?, t.gluesTo c = false) ↔ (t.isUnclosed = true → gap = "") := by
  rw [← String.toList_eq_nil_iff]
  cases chars : gap.toList with
  | nil => simp
  | cons c cs =>
    rw [chars] at blanks
    cases unclosed : t.isUnclosed with
    | true => simp [spelt.gluesTo_of_isUnclosed unclosed c]
    | false => simpa using spelt.gluesTo_blank unclosed (blanks c (by simp))

/-- Tokens stand in a text with gaps of one's own if these are there where they must be. The
induction goes along the tokens, and each step asks about two neighbours. -/
theorem spaced_respaced_iff {layout : List (String × Token)} {last : String}
    (spelt : ∀ entry ∈ layout, entry.2.IsSpelt)
    (closed : layout.IsChain fun a _ => a.2.isUnclosed = false)
    (blanks : ∀ entry ∈ layout, IsGap entry.1.toList) (blank : IsGap last.toList) :
    Spaced (layout.map (·.2)) (respaced layout last).toList ↔
      layout.IsChain (fun a b => a.2.mustPart b.2 = true → b.1 ≠ "") ∧
        ∀ entry ∈ layout.getLast?, entry.2.isUnclosed = true → last = "" := by
  induction layout with
  | nil => simpa [respaced] using Spaced.nil blank
  | cons entry layout ih =>
    obtain ⟨gap, t⟩ := entry
    obtain ⟨first, others⟩ := List.forall_mem_cons.mp spelt
    obtain ⟨first_gap, gaps⟩ := List.forall_mem_cons.mp blanks
    obtain ⟨ends, onward⟩ := List.isChain_cons.mp closed
    rw [List.map_cons, respaced, String.toList_append, String.toList_append,
      Spaced.cons_iff first first_gap, ih others onward gaps]
    cases layout with
    | nil =>
      have behind := first.ends_last_iff blank
      simpa [respaced] using behind
    | cons next layout =>
      have behind := first.ends_iff (ends next rfl) (others next (by simp)) (gaps next (by simp))
        (respaced layout last).toList
      rw [respaced, String.toList_append, String.toList_append, behind, List.isChain_cons_cons,
        List.getLast?_cons_cons, and_assoc]

/-- **The blanks between tokens do not matter**, as long as tokens that must part do. The tokens of
a text are those of any text with the same literals and other gaps exactly if there is a gap
wherever a name or a word would run on, or a lone bracket would begin a tag, and none behind a close
tag that goes on to the end. -/
theorem tokens_respaced_iff {source : String} {layout : List (String × Token)} {last : String}
    (tokens : (tokenize source).map (·.token) = layout.map (·.2) ++ [.eof])
    (blanks : ∀ entry ∈ layout, IsGap entry.1.toList) (blank : IsGap last.toList) :
    (tokenize (respaced layout last)).map (·.token) = (tokenize source).map (·.token) ↔
      layout.IsChain (fun a b => a.2.mustPart b.2 = true → b.1 ≠ "") ∧
        ∀ entry ∈ layout.getLast?, entry.2.isUnclosed = true → last = "" := by
  obtain ⟨spelt, spaced⟩ := tokens_tokenize_eq_iff.mp tokens
  have closed := (List.isChain_map _).mp (spaced.isChain_closed spelt)
  have each : ∀ entry ∈ layout, entry.2.IsSpelt := fun entry h => spelt _ (List.mem_map_of_mem h)
  rw [tokens, tokens_tokenize_eq_iff, and_iff_right spelt, spaced_respaced_iff each closed blanks
    blank]

/-- Gaps taken away and put in, around each kind of token that must part from another. -/
theorem tokens_respaced_to_the_least :
    let source := "<a b = \" c \" > x y < / < z </a\n"
    let layout : List (String × Token) :=
      [("\t", .beginTag "<a"), (" ", .text "b"), ("", .assign), ("", .quote), ("", .text "c"),
        ("", .quote), ("", .endTag), ("", .text "x"), ("\r\n", .text "y"), ("", .illegal '<'),
        (" ", .illegal '/'), ("", .illegal '<'), ("\n", .text "z"), ("", .closeTag "</a\n")]
    (tokenize source).map (·.token) = layout.map (·.2) ++ [.eof] ∧
      (tokenize (respaced layout "")).map (·.token) = (tokenize source).map (·.token) := by
  intro source layout
  have tokens : (tokenize source).map (·.token) = layout.map (·.2) ++ [.eof] := by decide +kernel
  have blanks : ∀ entry ∈ layout, IsGap entry.1.toList := by decide +kernel
  exact ⟨tokens, (tokens_respaced_iff tokens blanks (by decide)).mpr (by decide +kernel)⟩

end StateMarkup
