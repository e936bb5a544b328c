import Mathlib.Data.List.Basic
import Mathlib.Data.List.TakeWhile
import StateMarkup.Node.Descent

/-!
# The parts of a descent

A descent stands somewhere in a list of tokens, and all that counts are the tokens from there up to
the next end of the document (`Reader.At`). What stands behind is never found, not by the look-ahead
for an attribute either (`Reader.At.all_kindAhead`).

Each part of a descent ends in one of three ways, and none of them is a look at a place where no
token is (`Descent.Ends`). This module has the parts that do not call each other, down to the loops
over begin tags and runs of words.
-/

namespace StateMarkup

/-! ## The tokens ahead -/

namespace Reader

/-- The tokens from here up to the next end of the document. It follows that there is one, and so
the next token always exists. -/
def At (r : Reader) (ahead : List Lexeme) : Prop :=
  (∃ ending behind, r.tokens.drop r.place = ahead ++ ⟨.eof, ending⟩ :: behind) ∧
    ∀ l ∈ ahead, l.token.isEof = false

variable {r : Reader} {l : Lexeme} {ahead before : List Lexeme}

/-- What stands ahead of the first place, if there is an end of the document at all. -/
theorem at_of_mem (first : r.place = 0) (h : ∃ ending, ⟨.eof, ending⟩ ∈ r.tokens) :
    r.At (r.tokens.takeWhile (!·.token.isEof)) := by
  refine ⟨?_, fun l hl => by simpa using List.mem_takeWhile_imp hl⟩
  have whole := List.takeWhile_append_dropWhile (p := (!·.token.isEof)) (l := r.tokens)
  have next := List.head?_dropWhile_not (!·.token.isEof) r.tokens
  rw [first, List.drop_zero]
  cases dropped : r.tokens.dropWhile (!·.token.isEof) with
  | nil =>
    obtain ⟨ending, mem⟩ := h
    cases List.dropWhile_eq_nil_iff.mp dropped _ mem
  | cons l behind =>
    rw [dropped] at whole next
    obtain ⟨token, ending⟩ := l
    obtain rfl : token = .eof := by simpa using next
    exact ⟨ending, behind, whole.symm⟩

/-- A document always ends somewhere, and what stands ahead of its start are the tokens up to
there. -/
theorem at_start (lexemes : List Lexeme) :
    (start lexemes).At (lexemes.takeWhile (!·.token.isEof)) := by
  by_cases ended : ∃ ending, lexemes.getLast? = some ⟨.eof, ending⟩
  · obtain ⟨ending, last⟩ := ended
    have tokens : (start lexemes).tokens = lexemes := by simp [start, last, Token.isEof]
    have there := at_of_mem (r := start lexemes) rfl
      ⟨ending, by rw [tokens]; exact List.mem_of_getLast? last⟩
    rwa [tokens] at there
  · have unended : lexemes.getLast?.any (·.token.isEof) = false := by
      cases last : lexemes.getLast? with
      | none => rfl
      | some l =>
        obtain ⟨token, ending⟩ := l
        cases token with
        | eof => exact absurd ⟨ending, last⟩ ended
        | _ => rfl
    obtain ⟨ending, tokens⟩ : ∃ ending, (start lexemes).tokens = lexemes ++ [⟨.eof, ending⟩] := by
      simp only [start, unended]
      exact ⟨_, rfl⟩
    have there := at_of_mem (r := start lexemes) rfl ⟨ending, by simp [tokens]⟩
    rw [tokens, List.takeWhile_append] at there
    split at there
    · rename_i whole
      have all := (List.takeWhile_prefix _).eq_of_length whole
      rw [all]
      have upTo : (start lexemes).At (lexemes ++ []) := there
      rwa [List.append_nil] at upTo
    · exact there

/-- One token further there is one less ahead. -/
theorem At.next (here : r.At (l :: ahead)) : r.next.At ahead := by
  obtain ⟨⟨ending, behind, split⟩, inside⟩ := here
  refine ⟨⟨ending, behind, ?_⟩, fun l hl => inside l (List.mem_cons_of_mem _ hl)⟩
  have tail := congrArg List.tail split
  simpa [Reader.next] using tail

/-- The kinds of the tokens ahead, as far as there are any; next is the end of the document. -/
theorem At.kindAhead (here : r.At (before ++ ahead)) :
    r.kindAhead before.length = (ahead.head?.map (·.token.kind)).getD .eof := by
  obtain ⟨⟨ending, behind, split⟩, -⟩ := here
  have look : r.tokens[r.place + before.length]? =
      (ahead ++ ⟨.eof, ending⟩ :: behind).head? := by
    rw [← List.getElem?_drop, split, List.append_assoc, List.getElem?_append_right (Nat.le_refl _),
      Nat.sub_self, List.head?_eq_getElem?]
  rw [Reader.kindAhead, look]
  cases ahead <;> rfl

/-- **Looking ahead** for kinds of which none is the end of the document: no token behind that end
is ever found. -/
theorem At.all_kindAhead (before : List Lexeme) (here : r.At (before ++ ahead))
    {shape : List TokenKind} (endless : .eof ∉ shape) :
    ((shape.zipIdx before.length).all fun (kind, n) => r.kindAhead n == kind) = true ↔
      shape <+: ahead.map (·.token.kind) := by
  induction shape generalizing before ahead with
  | nil => simp
  | cons kind shape ih =>
    simp only [List.zipIdx_cons, List.all_cons, here.kindAhead, Bool.and_eq_true, beq_iff_eq]
    cases ahead with
    | nil =>
      refine iff_of_false (fun h => ?_) (by simp)
      exact List.ne_of_not_mem_cons endless h.1
    | cons l ahead =>
      have there : r.At ((before ++ [l]) ++ ahead) := by simpa using here
      have rest := ih (before ++ [l]) there (List.not_mem_of_not_mem_cons endless)
      rw [List.length_append, List.length_singleton] at rest
      rw [rest, List.map_cons, List.cons_prefix_cons, eq_comm]
      rfl

end Reader

namespace Descent

variable {α β : Type} {r r' : Reader} {l : Lexeme} {ahead : List Lexeme}

/-! ## Parts of a descent -/

/-- A part that goes well hands its result and its reader to what comes next. The proofs below step
through a descent with this equation, one token after the other. -/
theorem bind_of_ok {part : Descent α} {a : α} (done : part r = .ok a r') (more : α → Descent β) :
    (part >>= more) r = more a r' := by
  simp [bind, EStateM.bind, done]

theorem modify_bind (change : Reader → Reader) (more : PUnit → Descent β) :
    ((modify change : Descent PUnit) >>= more) r = more ⟨⟩ (change r) := rfl

theorem get_bind (more : Reader → Descent β) : ((get : Descent Reader) >>= more) r = more r r := rfl

/-- The next token is the first of those ahead, or the end of the document behind them. -/
theorem exists_current_eq (here : r.At ahead) :
    ∃ ending, current r = .ok (ahead.head?.getD ⟨.eof, ending⟩) r := by
  obtain ⟨⟨ending, behind, split⟩, -⟩ := here
  have look : r.tokens[r.place]? = some (ahead.head?.getD ⟨.eof, ending⟩) := by
    rw [← List.head?_drop, split]
    cases ahead <;> rfl
  exact ⟨ending, by rw [current, look]⟩

/-- With nothing ahead the next token is the end of the document. -/
theorem current_nil (here : r.At []) : ∃ ending, current r = .ok ⟨.eof, ending⟩ r :=
  exists_current_eq here

theorem current_cons (here : r.At (l :: ahead)) : current r = .ok l r := by
  obtain ⟨ending, next⟩ := exists_current_eq here
  exact next

/-- To take a token moves the reader behind it. That never goes beyond the end of the document,
since a token ahead is not that end. -/
theorem advance_cons (here : r.At (l :: ahead)) : advance r = .ok l r.next := by
  rw [advance, bind_of_ok (current_cons here), here.2 l List.mem_cons_self]
  rfl

/-- **How a part of a descent ends**: with something that is good, with an error that fails the
document as it should, or with too few steps. It never looks where no token is.

`failed`, `starved` and `good` are what can be said in each of the three cases; they stay the same
from a part to the whole, or get weaker. -/
def Ends (failed : SyntaxError → Reader → Prop) (starved : Prop) (good : α → Reader → Prop) :
    EStateM.Result Stop Reader α → Prop
  | .ok a r => good a r
  | .error (.failed error) r => failed error r
  | .error .outOfRange _ => False
  | .error .outOfSteps _ => starved

/-- The error that ends the reading is the last of a result. All that has been noted before comes
first. -/
def Fails (result : Except (List SyntaxError) Document) (error : SyntaxError) (r : Reader) : Prop :=
  result = .error (r.errors ++ [error])

variable {result : Except (List SyntaxError) Document} {failed : SyntaxError → Reader → Prop}
  {starved starved' : Prop} {good good' : α → Reader → Prop} {ending : EStateM.Result Stop Reader α}

/-- What is said of an ending may be weakened, but not that no token has been looked for in vain. -/
theorem Ends.mono (ends : Ends failed starved good ending) (starving : starved → starved')
    (better : ∀ a r, good a r → good' a r) : Ends failed starved' good' ending := by
  rcases ending with ⟨a, r⟩ | ⟨_ | _ | _, r⟩
  · exact better a r ends
  · exact ends
  · exact ends
  · exact starving ends

theorem Ends.imp_starved (ends : Ends failed starved good ending)
    (starving : starved → starved') : Ends failed starved' good ending :=
  ends.mono starving fun _ _ => id

/-- One part after another: what the first one leaves is what the next one starts from. If the first
fails or has too few steps then so has the whole. -/
theorem Ends.bind {part : Descent α} {more : α → Descent β} {good' : β → Reader → Prop}
    (first : Ends failed starved good (part r))
    (onward : ∀ a r', good a r' → Ends failed starved good' (more a r')) :
    Ends failed starved good' ((part >>= more) r) := by
  simp only [Bind.bind, EStateM.bind]
  generalize part r = ended at first ⊢
  rcases ended with ⟨a, r'⟩ | ⟨_ | _ | _, r'⟩
  · exact onward a r' first
  · exact first
  · exact first
  · exact first

/-! ## Begin tags -/

/-- Where a kind is the first of a shape, there is a token of that kind. -/
theorem exists_of_prefix {kind : TokenKind} {shape : List TokenKind}
    (h : kind :: shape <+: ahead.map (·.token.kind)) :
    ∃ token span rest, ahead = ⟨token, span⟩ :: rest ∧ token.kind = kind ∧
      shape <+: rest.map (·.token.kind) := by
  cases ahead with
  | nil => simp at h
  | cons l rest =>
    obtain ⟨same, more⟩ := List.cons_prefix_cons.mp h
    exact ⟨l.token, l.span, rest, rfl, same.symm, more⟩

/-- Tokens of the kinds of an attribute are an attribute. -/
theorem exists_of_attributeShape (h : attributeShape <+: ahead.map (·.token.kind)) :
    ∃ name s₁ s₂ s₃ value s₄ s₅ rest, ahead = ⟨.text name, s₁⟩ :: ⟨.assign, s₂⟩ :: ⟨.quote, s₃⟩ ::
      ⟨.text value, s₄⟩ :: ⟨.quote, s₅⟩ :: rest := by
  obtain ⟨key, s₁, _, rfl, is_text, h⟩ := exists_of_prefix h
  obtain ⟨equals, s₂, _, rfl, is_assign, h⟩ := exists_of_prefix h
  obtain ⟨opening, s₃, _, rfl, is_quote, h⟩ := exists_of_prefix h
  obtain ⟨word, s₄, _, rfl, is_text', h⟩ := exists_of_prefix h
  obtain ⟨closing, s₅, rest, rfl, is_quote', -⟩ := exists_of_prefix h
  cases key <;> cases is_text
  cases equals <;> cases is_assign
  cases opening <;> cases is_quote
  cases word <;> cases is_text'
  cases closing <;> cases is_quote'
  exact ⟨_, s₁, s₂, s₃, _, s₄, s₅, rest, rfl⟩

/-- The look-ahead answers whether an attribute begins here. It asks five places one by one, of
which some may be behind the end of the document, and it does not matter what is there. -/
theorem atAttribute_eq (here : r.At ahead) :
    atAttribute r = .ok (decide (attributeShape <+: ahead.map (·.token.kind))) r := by
  have found : (attributeShape.zipIdx.all fun (kind, n) => r.kindAhead n == kind) =
      decide (attributeShape <+: ahead.map (·.token.kind)) := by
    rw [Bool.eq_iff_iff, decide_eq_true_iff]
    exact Reader.At.all_kindAhead [] here (by decide)
  rw [← found]
  rfl

/-- A token with which no attribute begins is skipped. -/
theorem readAttributes_skip {run : List Lexeme}
    (shapeless : ¬ attributeShape <+: (l :: run).map (·.token.kind)) :
    readAttributes (l :: run) = ((readAttributes run).1,
      .skippedToken l.token.literal l.span :: (readAttributes run).2) := by
  rw [readAttributes]
  rintro name s₁ s₂ s₃ value s₄ s₅ rest rfl rfl
  exact shapeless (by simp [attributeShape, Token.kind])

/-- The five tokens of an attribute are taken one by one. -/
theorem oneAttribute_eq {key value : String} {s₁ s₂ s₃ s₄ s₅ : Span}
    (here : r.At (⟨.text key, s₁⟩ :: ⟨.assign, s₂⟩ :: ⟨.quote, s₃⟩ :: ⟨.text value, s₄⟩ ::
      ⟨.quote, s₅⟩ :: ahead)) :
    oneAttribute r = .ok ⟨key, value⟩ r.next.next.next.next.next := by
  rw [oneAttribute, bind_of_ok (advance_cons here), bind_of_ok (advance_cons here.next),
    bind_of_ok (advance_cons here.next.next), bind_of_ok (advance_cons here.next.next.next),
    bind_of_ok (advance_cons here.next.next.next.next)]
  rfl

/-- A token that is skipped is reported and left behind. -/
theorem skip_eq (here : r.At (l :: ahead)) :
    skip r = .ok ⟨⟩ (r.next.warn (.skippedToken l.token.literal l.span)) := by
  rw [skip, bind_of_ok (advance_cons here)]
  rfl

variable {steps : Nat} {name : String} {read attributes' : List Attribute}

/-- One round of the loop over a begin tag, where an attribute begins. -/
theorem attributes_of_shape {key value : String} {s₁ s₂ s₃ s₄ s₅ : Span}
    (here : r.At (⟨.text key, s₁⟩ :: ⟨.assign, s₂⟩ :: ⟨.quote, s₃⟩ :: ⟨.text value, s₄⟩ ::
      ⟨.quote, s₅⟩ :: ahead)) :
    attributes name (steps + 1) read r =
      attributes name steps (read ++ [⟨key, value⟩]) r.next.next.next.next.next := by
  rw [attributes, bind_of_ok (current_cons here)]
  dsimp only
  rw [bind_of_ok (atAttribute_eq here), if_pos (by simp [attributeShape, Token.kind]),
    bind_of_ok (oneAttribute_eq here)]

/-- One round of the loop where none begins and the tag does not end either. -/
theorem attributes_of_shapeless (here : r.At (l :: ahead)) (unended : l.token ≠ .endTag)
    (shapeless : ¬ attributeShape <+: (l :: ahead).map (·.token.kind)) :
    attributes name (steps + 1) read r =
      attributes name steps read (r.next.warn (.skippedToken l.token.literal l.span)) := by
  have skipped : (do
      if ← atAttribute then
        let next ← oneAttribute
        attributes name steps (read ++ [next])
      else
        skip
        attributes name steps read : Descent (List Attribute)) r =
      attributes name steps read (r.next.warn (.skippedToken l.token.literal l.span)) := by
    rw [bind_of_ok (atAttribute_eq here), if_neg (by simpa using shapeless),
      bind_of_ok (skip_eq here)]
  have inside := here.2 l List.mem_cons_self
  rw [attributes, bind_of_ok (current_cons here)]
  obtain ⟨token, span⟩ := l
  cases token with
  | endTag => exact absurd rfl unended
  | eof => cases inside
  | _ => exact skipped

/-- Behind some of the tokens, with no more errors. The warnings are those of the tokens that have
been passed. -/
structure Moved (r r' : Reader) (reported : List SyntaxWarning) (rest : List Lexeme) : Prop where
  here : r'.At rest
  errors : r'.errors = r.errors
  warnings : r'.warnings = r.warnings ++ reported
  depth : r'.depth = r.depth

theorem Moved.refl (here : r.At ahead) : Moved r r [] ahead :=
  ⟨here, rfl, (List.append_nil _).symm, rfl⟩

/-- What stands in a begin tag up to the bracket that ends it, as `readAttributes` would read it in
one go. The loop has the attributes before in `read`. -/
def InTag (ahead : List Lexeme) (read : List Attribute) (r : Reader) (attributes : List Attribute)
    (r' : Reader) : Prop :=
  ∃ run bracket rest, ahead = run ++ ⟨.endTag, bracket⟩ :: rest ∧
    (∀ l ∈ run, l.token ≠ .endTag) ∧ attributes = read ++ (readAttributes run).1 ∧
    Moved r r' (readAttributes run).2 (⟨.endTag, bracket⟩ :: rest)

/-- One more attribute at the front of a tag. -/
theorem InTag.behind_shape {key value : String} {s₁ s₂ s₃ s₄ s₅ : Span}
    (tag : InTag ahead (read ++ [⟨key, value⟩]) r.next.next.next.next.next attributes' r') :
    InTag (⟨.text key, s₁⟩ :: ⟨.assign, s₂⟩ :: ⟨.quote, s₃⟩ :: ⟨.text value, s₄⟩ ::
      ⟨.quote, s₅⟩ :: ahead) read r attributes' r' := by
  obtain ⟨run, bracket, rest, rfl, run_open, rfl, moved⟩ := tag
  refine ⟨⟨.text key, s₁⟩ :: ⟨.assign, s₂⟩ :: ⟨.quote, s₃⟩ :: ⟨.text value, s₄⟩ ::
    ⟨.quote, s₅⟩ :: run, bracket, rest, rfl, by simpa using run_open, ?_, ?_⟩
  · rw [readAttributes, List.append_assoc]
    rfl
  · rw [readAttributes]
    exact ⟨moved.here, moved.errors, moved.warnings, moved.depth⟩

/-- One more token at the front of a tag, with which no attribute begins. None begins there among
the tokens of the tag alone either, since these are the first of those ahead. -/
theorem InTag.behind_shapeless (unended : l.token ≠ .endTag)
    (shapeless : ¬ attributeShape <+: (l :: ahead).map (·.token.kind))
    (tag : InTag ahead read (r.next.warn (.skippedToken l.token.literal l.span)) attributes' r') :
    InTag (l :: ahead) read r attributes' r' := by
  obtain ⟨run, bracket, rest, rfl, run_open, rfl, moved⟩ := tag
  have run_shapeless : ¬ attributeShape <+: (l :: run).map (·.token.kind) := fun h =>
    shapeless (h.trans ⟨_, List.map_append.symm⟩)
  refine ⟨l :: run, bracket, rest, rfl, List.forall_mem_cons.mpr ⟨unended, run_open⟩, ?_, ?_⟩
  · rw [readAttributes_skip run_shapeless]
  · rw [readAttributes_skip run_shapeless]
    have warnings := moved.warnings.trans (List.append_assoc _ _ _)
    exact ⟨moved.here, moved.errors, warnings, moved.depth⟩

/-- **Begin tags** are read as by the parser. The induction is on the steps, with a lemma for each
kind of round; a tag that does not end fails the document. -/
theorem attributes_ends (here : r.At ahead) (read : List Attribute)
    (unended : (∀ l ∈ ahead, l.token ≠ .endTag) →
      result = .error (r.errors ++ [.unexpectedEnd .endTag name])) :
    Ends (Fails result) (steps < ahead.length + 1) (InTag ahead read r)
      (attributes name steps read r) := by
  induction steps generalizing r ahead read with
  | zero => exact Nat.zero_lt_succ _
  | succ steps ih =>
    cases ahead with
    | nil =>
      obtain ⟨ending, next⟩ := current_nil here
      rw [attributes, bind_of_ok next]
      refine unended ?_
      rintro l ⟨⟩
    | cons l ahead =>
      by_cases ended : l.token = .endTag
      · obtain ⟨token, bracket⟩ := l
        obtain rfl : token = .endTag := ended
        rw [attributes, bind_of_ok (current_cons here)]
        exact ⟨[], bracket, ahead, rfl, List.forall_mem_nil _, (List.append_nil read).symm,
          .refl here⟩
      · by_cases shape : attributeShape <+: (l :: ahead).map (·.token.kind)
        · obtain ⟨key, s₁, s₂, s₃, value, s₄, s₅, rest, split⟩ := exists_of_attributeShape shape
          rw [split] at here unended ⊢
          rw [attributes_of_shape here]
          -- an attribute takes five tokens and only one step
          have ends := ih here.next.next.next.next.next (read ++ [⟨key, value⟩]) fun none =>
            unended (by simpa using none)
          refine ends.mono (fun few => ?_) fun _ _ => .behind_shape
          simp only [List.length_cons]
          omega
        · rw [attributes_of_shapeless here ended shape]
          have skipped : (r.next.warn (.skippedToken l.token.literal l.span)).At ahead := here.next
          have ends := ih skipped read fun none =>
            unended (List.forall_mem_cons.mpr ⟨ended, none⟩)
          exact ends.mono Nat.succ_lt_succ fun _ _ => .behind_shapeless ended shape

/-! ## Words -/

/-- What a run of words is: as many as there are, and all of them make one text. -/
def InWords (ahead : List Lexeme) (read : String) (r : Reader) (text : String) (r' : Reader) :
    Prop :=
  ∃ run rest, ahead = run ++ rest ∧ (∀ l ∈ run, l.token.kind = .text) ∧
    (∀ l ∈ rest.head?, l.token.kind ≠ .text) ∧
    text = read ++ String.join (run.map (·.token.literal)) ∧ Moved r r' [] rest

/-- Words are read as long as there are any. This cannot fail: the loop ends at whatever is no
word. -/
theorem words_ends (here : r.At ahead) (read : String) :
    Ends failed (steps < ahead.length + 1) (InWords ahead read r) (words steps read r) := by
  induction steps generalizing r ahead read with
  | zero => exact Nat.zero_lt_succ _
  | succ steps ih =>
    have ended (apart : ∀ l ∈ ahead.head?, l.token.kind ≠ .text) : InWords ahead read r read r :=
      ⟨[], ahead, rfl, List.forall_mem_nil _, apart, String.append_empty.symm, .refl here⟩
    cases ahead with
    | nil =>
      obtain ⟨ending, next⟩ := current_nil here
      rw [words, bind_of_ok next]
      exact ended (by simp)
    | cons l ahead =>
      obtain ⟨token, span⟩ := l
      rw [words, bind_of_ok (current_cons here)]
      cases token with
      | text word =>
        simp only
        rw [bind_of_ok (advance_cons here)]
        refine (ih here.next (read ++ word)).mono Nat.succ_lt_succ ?_
        rintro text r' ⟨run, rest, rfl, all_words, apart, rfl, moved⟩
        refine ⟨⟨.text word, span⟩ :: run, rest, rfl, List.forall_mem_cons.mpr ⟨rfl, all_words⟩,
          apart, ?_, ⟨moved.here, moved.errors, moved.warnings, moved.depth⟩⟩
        simp [Token.literal, String.append_assoc]
      | _ => exact ended (by simp [Token.kind])

end Descent

end StateMarkup
