import StateMarkup.Proofs.Node.Shape

/-!
# Printed trees

`Node.print` writes a tree down. An element that was closed by another name is closed by a tag
without a name, so that it comes back as such. `Node.tokens` are the tokens of the tree; what is
printed has these tokens (`Node.printsTokens`), and they can all be read.
-/

namespace StateMarkup

/-! ## Close tags -/

/-- What is part of a word is no white space. There are many characters of white space, and all of
them are outside the ranges that words are made of. -/
theorem isWhiteSpace_of_isWordChar {c : Char} (word : isWordChar c = true) :
    Text.isWhiteSpace c = false := by
  have range : (48 ≤ c.toNat ∧ c.toNat ≤ 57) ∨ (65 ≤ c.toNat ∧ c.toNat ≤ 122) := by
    have either : c.isAlphanum = true ∨ c = '_' := by simpa [isWordChar] using word
    rcases either with letter | rfl
    · have parts : (decide (65 ≤ c.val ∧ c.val ≤ 90) || (97 ≤ c.val && c.val ≤ 122) ||
          (48 ≤ c.val && c.val ≤ 57)) = true := letter
      simp only [Bool.or_eq_true, Bool.and_eq_true, decide_eq_true_eq,
        UInt32.le_iff_toNat_le] at parts
      rcases parts with (upper | lower) | digit
      · exact .inr ⟨upper.1, Nat.le_trans upper.2 (by decide)⟩
      · exact .inr ⟨Nat.le_trans (by decide) lower.1, lower.2⟩
      · exact .inl digit
    · decide
  simp only [Text.isWhiteSpace, Text.whiteSpaceRanges, List.any_cons, List.any_nil, Bool.or_false,
    Bool.or_eq_false_iff, Bool.and_eq_false_iff, decide_eq_false_iff_not]
  omega

/-- The name in a close tag that is printed is the name that it was printed with: none of its
characters is trimmed. -/
theorem closeTagName_append {name : String} (word : IsWord name) :
    closeTagName ("</" ++ name ++ ">") = name := by
  have plain : ∀ c ∈ name.toList, Text.isWhiteSpace c = false := fun c hc =>
    isWhiteSpace_of_isWordChar (word.2 c hc)
  simp [closeTagName, dropStart, Text.trimChars_eq_self plain]

namespace Attribute

variable (a : Attribute)

/-- The tokens of an attribute. -/
def tokens : List Token := [.text a.name, .assign, .quote, .text a.value, .quote]

/-- An attribute with a blank before it. -/
def print : String := " " ++ a.name ++ "=\"" ++ a.value ++ "\""

/-- The tokens of an attribute can be read if its name and its value are words. -/
theorem isSpelt_of_mem_tokens (words : IsWord a.name ∧ IsWord a.value) {t : Token}
    (ht : t ∈ a.tokens) : t.IsSpelt := by
  simp only [tokens, List.mem_cons, List.not_mem_nil, or_false] at ht
  rcases ht with rfl | rfl | rfl | rfl | rfl
  · exact words.1
  · trivial
  · trivial
  · exact words.2
  · trivial

end Attribute

namespace Node

/-- The close tag of an element; that of an unknown one has no name. An unknown element has
forgotten the name that it was closed by, and no element is called by the empty name, so it comes
back as unknown. -/
def closeTag (kind : NodeKind) (name : String) : String :=
  if kind = .unknown then "</>" else "</" ++ name ++ ">"

mutual

/-- The tokens of a tree. There are no blanks in them, so every way to put blanks between them gives
a text for the tree. -/
def tokens : Node → List Token
  | ⟨kind, name, attributes, children⟩ =>
    if kind = .text then [.text name]
    else .beginTag ("<" ++ name) :: attributes.flatMap Attribute.tokens ++ [.endTag] ++
      tokensOfAll children ++ [.closeTag (closeTag kind name)]

/-- The tokens of siblings, one after the other. -/
def tokensOfAll : List Node → List Token
  | [] => []
  | n :: ns => n.tokens ++ tokensOfAll ns

end

mutual

/-- A tree as a text, with no more blanks than it takes: one before each attribute. -/
def print : Node → String
  | ⟨kind, name, attributes, children⟩ =>
    if kind = .text then name
    else "<" ++ name ++ String.join (attributes.map Attribute.print) ++ ">" ++ printAll children ++
      closeTag kind name

/-- Siblings as a text. -/
def printAll : List Node → String
  | [] => ""
  | n :: ns => n.print ++ printAll ns

end

theorem closeTag_eq (kind : NodeKind) (name : String) :
    closeTag kind name = "</" ++ (if kind = .unknown then "" else name) ++ ">" := by
  rw [closeTag]
  split <;> rfl

variable {n : Node}

theorem tokens_of_text (text : n.kind = .text) : n.tokens = [.text n.name] := by
  obtain ⟨kind, name, attributes, children⟩ := n
  rw [tokens, if_pos text]

theorem tokens_of_ne_text (h : n.kind ≠ .text) :
    n.tokens = .beginTag ("<" ++ n.name) :: n.attributes.flatMap Attribute.tokens ++ [.endTag] ++
      tokensOfAll n.children ++ [.closeTag (closeTag n.kind n.name)] := by
  obtain ⟨kind, name, attributes, children⟩ := n
  rw [tokens, if_neg h]

theorem print_of_text (text : n.kind = .text) : n.print = n.name := by
  obtain ⟨kind, name, attributes, children⟩ := n
  rw [print, if_pos text]

theorem print_of_ne_text (h : n.kind ≠ .text) :
    n.print = "<" ++ n.name ++ String.join (n.attributes.map Attribute.print) ++ ">" ++
      printAll n.children ++ closeTag n.kind n.name := by
  obtain ⟨kind, name, attributes, children⟩ := n
  rw [print, if_neg h]

end Node

/-! ## What is printed has the tokens -/

namespace Spaced

variable {token : Token} {tokens : List Token} {rest : List Char}

/-- One more token, right before the rest. All that is printed is put together in this way, from its
end on; what there is to check is only that the token does not run on into what comes next. -/
theorem before (spaced : Spaced tokens rest) (ends : ∀ c ∈ rest.head?, token.gluesTo c = false) :
    Spaced (token :: tokens) (token.literal.toList ++ rest) := by
  have apart : Spaced (token :: tokens) ([] ++ (token.literal.toList ++ rest)) :=
    .cons nofun ends spaced
  exact apart

/-- An attribute with its blank, before any rest that starts with a token. -/
theorem beforeAttribute (spaced : Spaced tokens rest) (a : Attribute) :
    Spaced (a.tokens ++ tokens) (a.print.toList ++ rest) := by
  have closed : Spaced (.quote :: tokens) ('"' :: rest) := spaced.before fun _ _ => rfl
  have valued : Spaced (.text a.value :: .quote :: tokens) (a.value.toList ++ '"' :: rest) :=
    closed.before (by simp [Token.gluesTo, isWordChar])
  have quoted : Spaced (.quote :: .text a.value :: .quote :: tokens)
      ('"' :: (a.value.toList ++ '"' :: rest)) := valued.before fun _ _ => rfl
  have assigned : Spaced (.assign :: .quote :: .text a.value :: .quote :: tokens)
      ('=' :: '"' :: (a.value.toList ++ '"' :: rest)) := quoted.before fun _ _ => rfl
  have whole : Spaced (a.tokens ++ tokens)
      ([' '] ++ (a.name.toList ++ '=' :: '"' :: (a.value.toList ++ '"' :: rest))) :=
    .cons (by simp [IsGap, isBlank]) (by simp [Token.gluesTo, isWordChar]) assigned
  simpa [Attribute.print] using whole

/-- All attributes of an element, one before the other. -/
theorem beforeAttributes (spaced : Spaced tokens rest) (attributes : List Attribute) :
    Spaced (attributes.flatMap Attribute.tokens ++ tokens)
      ((String.join (attributes.map Attribute.print)).toList ++ rest) := by
  induction attributes with
  | nil => simpa using spaced
  | cons a attributes ih => simpa using ih.beforeAttribute a

end Spaced

/-- The name of a begin tag ends where its attributes begin. -/
theorem isWordChar_head?_attributes (attributes : List Attribute) (rest : List Char) :
    ∀ c ∈ ((String.join (attributes.map Attribute.print)).toList ++ '>' :: rest).head?,
      isWordChar c = false := by
  cases attributes with
  | nil => simp [isWordChar]
  | cons a attributes => simp [Attribute.print, isWordChar]

namespace Node

variable {n : Node} {ns : List Node}

/-- An element starts with a bracket, so a word before it ends there. -/
theorem head?_print (h : n.kind ≠ .text) (rest : List Char) :
    (n.print.toList ++ rest).head? = some '<' := by
  simp [print_of_ne_text h]

/-- A printed node has its tokens, before any rest that a text does not run on into. The rest is
part of the statement because an induction from the end of the text on has to have it there. -/
def PrintsTokens (n : Node) : Prop :=
  ∀ us rest, (n.kind = .text → ∀ c ∈ rest.head?, isWordChar c = false) →
    Spaced us rest → Spaced (n.tokens ++ us) (n.print.toList ++ rest)

/-- Printed siblings have their tokens, before a bracket. Only a text could run on into what comes
next, and the sibling behind a text is an element. -/
theorem spaced_printAll {us : List Token} {rest : List Char} (each : ∀ n ∈ ns, n.PrintsTokens)
    (apart : ns.IsChain MayTouch) (bracket : rest.head? = some '<') (spaced : Spaced us rest) :
    Spaced (tokensOfAll ns ++ us) ((printAll ns).toList ++ rest) := by
  induction ns with
  | nil => simpa [tokensOfAll, printAll] using spaced
  | cons n ns ih =>
    obtain ⟨first, others⟩ := List.forall_mem_cons.mp each
    obtain ⟨untouched, apart⟩ := List.isChain_cons.mp apart
    have whole := first _ _ ?_ (ih others apart)
    · simpa [tokensOfAll, printAll] using whole
    · intro text
      -- behind a text there is an element, or the close tag of its parent
      have sign : ((printAll ns).toList ++ rest).head? = some '<' := by
        cases ns with
        | nil => simpa [printAll] using bracket
        | cons next ns =>
          have element : next.kind ≠ .text := fun both => untouched next rfl ⟨text, both⟩
          simpa [printAll] using head?_print element ((printAll ns).toList ++ rest)
      simp [sign, isWordChar]

/-- **What is printed has the tokens of the tree.** The induction is on the tree: from the close tag
to the begin tag, each part is put before what has been printed already. -/
theorem printsTokens (regular : n.AllRegular) : n.PrintsTokens := by
  induction n using induct with
  | node n ih =>
    intro us rest ends spaced
    obtain ⟨⟨-, -, leaf, apart, -⟩, below⟩ := allRegular_iff.mp regular
    by_cases text : n.kind = .text
    · rw [tokens_of_text text, print_of_text text]
      exact spaced.before (ends text)
    · have each : ∀ child ∈ n.children, child.PrintsTokens := fun child hchild =>
        ih child hchild (below child hchild)
      -- from the end on: the close tag, the children, the bracket, and the begin tag up to it
      have close_open : (closeTag n.kind n.name).toList.getLast? = some '>' := by
        rw [closeTag_eq, String.toList_append]
        exact List.getLast?_concat
      have bracket : ((closeTag n.kind n.name).toList ++ rest).head? = some '<' := by
        simp [closeTag_eq]
      have closed : Spaced (.closeTag (closeTag n.kind n.name) :: us)
          ((closeTag n.kind n.name).toList ++ rest) :=
        spaced.before (by simp [Token.gluesTo, close_open])
      have ended : Spaced
          (.endTag :: (tokensOfAll n.children ++ .closeTag (closeTag n.kind n.name) :: us))
          ('>' :: ((printAll n.children).toList ++ ((closeTag n.kind n.name).toList ++ rest))) :=
        (spaced_printAll each apart bracket closed).before fun _ _ => rfl
      have begun : Spaced (.beginTag ("<" ++ n.name) :: _) _ :=
        (ended.beforeAttributes n.attributes).before (isWordChar_head?_attributes n.attributes _)
      simpa [tokens_of_ne_text text, print_of_ne_text text, Token.literal] using begun

/-- A token of siblings is one of some of them. -/
theorem mem_tokensOfAll_iff {t : Token} : t ∈ tokensOfAll ns ↔ ∃ n ∈ ns, t ∈ n.tokens := by
  induction ns with
  | nil => simp [tokensOfAll]
  | cons n ns ih => simp [tokensOfAll, ih]

/-- The tokens of a tree can be read, since its names, values and texts are words. -/
theorem isSpelt_of_mem_tokens (regular : n.AllRegular) {t : Token} (ht : t ∈ n.tokens) :
    t.IsSpelt := by
  induction n using induct with
  | node n ih =>
    obtain ⟨⟨name, attributes, -, -, -⟩, below⟩ := allRegular_iff.mp regular
    by_cases text : n.kind = .text
    · rw [tokens_of_text text] at ht
      obtain rfl := List.mem_singleton.mp ht
      exact name
    · rw [tokens_of_ne_text text] at ht
      simp only [List.cons_append, List.mem_cons, List.mem_append, List.mem_flatMap,
        List.not_mem_nil, or_false, mem_tokensOfAll_iff] at ht
      rcases ht with rfl | ((⟨a, ha, ht⟩ | rfl) | ⟨child, hchild, ht⟩) | rfl
      · exact ⟨n.name, name, rfl⟩
      · exact a.isSpelt_of_mem_tokens (attributes a ha) ht
      · trivial
      · exact ih child hchild (below child hchild) ht
      · refine ⟨_, ?_, .inl (closeTag_eq n.kind n.name)⟩
        split
        · simp
        · intro inside
          exact absurd (name.2 '>' inside) (by decide)

end Node

end StateMarkup
