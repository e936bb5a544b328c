import StateMarkup.Proofs.Node.Account

/-!
# Which attributes are found in a begin tag

The tokens of a begin tag are read in one go: where an attribute begins, its five tokens are taken,
and otherwise one token is skipped. This finds every attribute that stands anywhere among the tokens
(`attributesIn`), since no two of them overlap, and it skips the tokens that belong to none
(`leftOver`), whatever stands between the name of the element and the bracket
(`readAttributes_eq_attributesIn`).

`Document.attributes_recovered` says so of every begin tag that is read, and of all elements and
warnings of a document.
-/

namespace StateMarkup

/-! ## Attributes among tokens -/

/-- The attribute that the first five of some tokens are, if they are one. -/
def attributeAt? : List Lexeme → Option Attribute
  | ⟨.text name, _⟩ :: ⟨.assign, _⟩ :: ⟨.quote, _⟩ :: ⟨.text value, _⟩ :: ⟨.quote, _⟩ :: _ =>
    some ⟨name, value⟩
  | _ => none

/-- All attributes among some tokens, wherever they begin. -/
def attributesIn (run : List Lexeme) : List Attribute :=
  (List.range run.length).filterMap fun i => attributeAt? (run.drop i)

/-- The token at a place is one of the five of an attribute. -/
def Covered (run : List Lexeme) (i : Nat) : Prop :=
  ∃ j, j ≤ i ∧ i < j + 5 ∧ (attributeAt? (run.drop j)).isSome = true

instance (run : List Lexeme) (i : Nat) : Decidable (Covered run i) :=
  decidable_of_iff (∃ j ≤ i, i < j + 5 ∧ (attributeAt? (run.drop j)).isSome = true) Iff.rfl

/-- The tokens that belong to no attribute. -/
def leftOver (run : List Lexeme) : List Lexeme :=
  (List.range run.length).filterMap fun i => if Covered run i then none else run[i]?

/-- What is reported of a token that is skipped. -/
def Lexeme.skipped (lexeme : Lexeme) : SyntaxWarning :=
  .skippedToken lexeme.token.literal lexeme.span

section

variable {first rest : List Lexeme}

/-- Attributes among tokens begin in the first ones or in those behind them. Those that begin in the
first may reach into the others, so they are still looked for in both. -/
theorem attributesIn_append :
    attributesIn (first ++ rest) =
      ((List.range first.length).filterMap fun i => attributeAt? ((first ++ rest).drop i)) ++
        attributesIn rest := by
  rw [attributesIn, List.length_append, List.range_add, List.filterMap_append, List.filterMap_map]
  congr 2
  funext i
  simp

/-- Where no attribute goes on behind the first tokens, those behind belong to attributes of their
own. -/
theorem covered_append_iff
    (ends : ∀ j < first.length,
      (attributeAt? ((first ++ rest).drop j)).isSome = true → j + 5 ≤ first.length) (i : Nat) :
    Covered (first ++ rest) (first.length + i) ↔ Covered rest i := by
  constructor
  · rintro ⟨j, le, lt, found⟩
    by_cases before : j < first.length
    · have := ends j before found
      omega
    · obtain ⟨k, rfl⟩ := Nat.exists_eq_add_of_le (Nat.le_of_not_lt before)
      rw [List.drop_length_add_append] at found
      exact ⟨k, by omega, by omega, found⟩
  · rintro ⟨j, le, lt, found⟩
    refine ⟨first.length + j, by omega, by omega, ?_⟩
    rwa [List.drop_length_add_append]

/-- Under the same condition what is left over is left over from the first tokens or from the
others. -/
theorem leftOver_append
    (ends : ∀ j < first.length,
      (attributeAt? ((first ++ rest).drop j)).isSome = true → j + 5 ≤ first.length) :
    leftOver (first ++ rest) =
      ((List.range first.length).filterMap fun i =>
        if Covered (first ++ rest) i then none else first[i]?) ++ leftOver rest := by
  rw [leftOver, List.length_append, List.range_add, List.filterMap_append, List.filterMap_map]
  congr 1
  · refine List.filterMap_congr fun i hi => ?_
    rw [List.getElem?_append_left (List.mem_range.mp hi)]
  · rw [leftOver]
    congr 1
    funext i
    simp only [Function.comp_apply, covered_append_iff ends,
      List.getElem?_append_right (Nat.le_add_right _ _), Nat.add_sub_cancel_left]

end

/-- Behind an attribute the search goes on behind its five tokens: no attribute begins inside
another. The reader takes all five at once, while `attributesIn` asks at every place; that the four
places in between give nothing is shown here. -/
theorem past_attribute (name value : String) (s₀ s₁ s₂ s₃ s₄ : Span) (rest : List Lexeme) :
    let run := ⟨.text name, s₀⟩ :: ⟨.assign, s₁⟩ :: ⟨.quote, s₂⟩ :: ⟨.text value, s₃⟩ ::
      ⟨.quote, s₄⟩ :: rest
    attributesIn run = ⟨name, value⟩ :: attributesIn rest ∧ leftOver run = leftOver rest := by
  let five : List Lexeme :=
    [⟨.text name, s₀⟩, ⟨.assign, s₁⟩, ⟨.quote, s₂⟩, ⟨.text value, s₃⟩, ⟨.quote, s₄⟩]
  have ends : ∀ j < five.length,
      (attributeAt? ((five ++ rest).drop j)).isSome = true → j + 5 ≤ five.length := by
    -- only the first of the five is a text with an equals sign behind it
    rintro (_ | _ | _ | _ | _ | j) lt found
    · exact Nat.le_refl 5
    · cases found
    · cases found
    · cases found
    · cases found
    · exact absurd lt (by simp [five])
  have covered : ((List.range five.length).filterMap fun i =>
      if Covered (five ++ rest) i then none else five[i]?) = [] := by
    refine List.filterMap_eq_nil_iff.mpr fun i hi => if_pos ?_
    exact ⟨0, Nat.zero_le i, List.mem_range.mp hi, rfl⟩
  have left : leftOver (five ++ rest) = leftOver rest := by
    rw [leftOver_append ends, covered, List.nil_append]
  have found : attributesIn (five ++ rest) = ⟨name, value⟩ :: attributesIn rest :=
    attributesIn_append
  exact ⟨found, left⟩

/-- A token where no attribute begins, and none has begun before, is left over. -/
theorem past_token {lexeme : Lexeme} {rest : List Lexeme}
    (absent : attributeAt? (lexeme :: rest) = none) :
    attributesIn (lexeme :: rest) = attributesIn rest ∧
      leftOver (lexeme :: rest) = lexeme :: leftOver rest := by
  have ends : ∀ j < [lexeme].length,
      (attributeAt? (([lexeme] ++ rest).drop j)).isSome = true → j + 5 ≤ [lexeme].length := by
    intro j lt found
    obtain rfl : j = 0 := Nat.lt_one_iff.mp lt
    simp [absent] at found
  have uncovered : ¬ Covered (lexeme :: rest) 0 := by
    rintro ⟨j, le, -, found⟩
    obtain rfl : j = 0 := Nat.le_zero.mp le
    simp [absent] at found
  constructor
  · rw [← List.singleton_append, attributesIn_append]
    simp [absent]
  · rw [← List.singleton_append, leftOver_append ends]
    simp [uncovered]

/-- **All attributes are found, and nothing else is skipped.** The induction is that of the reader,
with one lemma for each of its two steps. -/
theorem readAttributes_eq_attributesIn (run : List Lexeme) :
    readAttributes run = (attributesIn run, (leftOver run).map Lexeme.skipped) := by
  fun_induction readAttributes run with
  | case1 name s₀ s₁ s₂ value s₃ s₄ rest attributes warnings read ih =>
    obtain ⟨found, left⟩ := past_attribute name value s₀ s₁ s₂ s₃ s₄ rest
    obtain ⟨rfl, rfl⟩ := Prod.mk.inj (read.symm.trans ih)
    rw [found, left]
  | case2 lexeme rest other attributes warnings read ih =>
    have absent : attributeAt? (lexeme :: rest) = none := by
      unfold attributeAt?
      split
      · rename_i shape
        cases shape
        exact (other _ _ _ _ _ _ _ _ rfl rfl).elim
      · rfl
    obtain ⟨found, left⟩ := past_token absent
    obtain ⟨rfl, rfl⟩ := Prod.mk.inj (read.symm.trans ih)
    rw [found, left]
    rfl
  | case3 => rfl

/-! ## The begin tags of a document -/

namespace Markup

/-- The elements of markup are those of its begin tags, in the same order. -/
theorem begun_account (m : Markup) :
    (m.account.filterMap Entry.begun?).map (fun e => (e.name, e.attributes)) =
      (m.items.filterMap Item.tag?).map fun tag =>
        (beginTagName tag.1, (readAttributes tag.2).1) := by
  induction m with
  | empty => rfl
  | word before text span ih =>
    rw [account, items, List.filterMap_append, List.filterMap_append, List.map_append,
      List.map_append, ih]
    rfl
  | element before opening inner closing ihBefore ihInner =>
    have name : (node opening inner closing).name = beginTagName opening.literal := fill_name _ _
    have attributes : (node opening inner closing).attributes = (readAttributes opening.run).1 :=
      fill_attributes _ _
    have begun (e : Node) : (opening.account e).filterMap Entry.begun? = [e] :=
      opening.filterMap_account e (fun _ _ _ => rfl) fun _ => rfl
    have closed (e : Node) : [closing.account e].filterMap Entry.begun? = [] := rfl
    simp only [account, items, List.filterMap_append, List.filterMap_cons, Item.tag?, begun, closed,
      List.map_append, List.map_cons, ihBefore, ihInner, name, attributes,
      List.append_nil, List.singleton_append]

/-- What is skipped in markup is skipped in its begin tags. All other warnings are about close
tags. -/
theorem skipped_warnings (m : Markup) :
    m.warnings.filter SyntaxWarning.isSkipped =
      (m.items.filterMap Item.tag?).flatMap fun tag => (readAttributes tag.2).2 := by
  induction m with
  | empty => rfl
  | word before text span ih =>
    rw [warnings, items, List.filterMap_append, List.flatMap_append, ih]
    exact (List.append_nil _).symm
  | element before opening inner closing ihBefore ihInner =>
    have skipped : opening.warnings.filter SyntaxWarning.isSkipped = opening.warnings := by
      refine List.filter_eq_self.mpr fun warning hwarning => ?_
      obtain ⟨literal, span, rfl⟩ := exists_skipped_of_mem_readAttributes hwarning
      rfl
    have closed : (closing.warnings opening.element.name).filter SyntaxWarning.isSkipped = [] := by
      unfold Closing.warnings
      split <;> rfl
    simp only [warnings, items, List.filter_append, skipped, closed, ihBefore, ihInner,
      List.filterMap_append, List.filterMap_cons, Item.tag?, List.flatMap_append,
      List.flatMap_cons, List.append_nil]
    rfl

end Markup

namespace Document

/-- The elements of a document and what was skipped, by its begin tags. The document is that of one
element, whose markup tells of its tags through the account. -/
theorem tags_of_read {lexemes : List Lexeme} {document : Document}
    (read : ofLexemes lexemes = .ok document) :
    let tags := beginTags (lexemes.takeWhile (!·.token.isEof))
    document.root.elements.map (fun e => (e.name, e.attributes)) =
        tags.map (fun tag => (beginTagName tag.1, (readAttributes tag.2).1)) ∧
      document.warnings.filter SyntaxWarning.isSkipped =
        tags.flatMap fun tag => (readAttributes tag.2).2 := by
  intro tags
  obtain ⟨opening, inner, closing, written, -, rfl⟩ := ofLexemes_eq_ok_iff.mp read
  have met : tags = (Markup.single opening inner closing).items.filterMap Item.tag? := by
    simp only [tags, beginTags, ← written, scan_single]
    rfl
  have begun (e : Node) :
      (opening.account e ++ inner.account ++ [closing.account e]).filterMap Entry.begun? =
        e :: inner.account.filterMap Entry.begun? := by
    rw [List.filterMap_append, List.filterMap_append,
      opening.filterMap_account e (fun _ _ _ => rfl) fun _ => rfl]
    exact List.append_nil _
  constructor
  · -- the root has the name and the attributes of the element that is made a root
    have single := (Markup.single opening inner closing).begun_account
    rw [← (accounts_ofElement opening inner closing).begun, begun, met, ← single, Markup.single,
      Markup.account, Markup.account, List.nil_append, begun, List.map_cons, List.map_cons]
    rfl
  · have warnings : (ofElement opening inner closing).warnings =
        (Markup.single opening inner closing).warnings := rfl
    rw [met, warnings, Markup.skipped_warnings]

/-- **No attribute is lost.** Whatever stands between the name in a begin tag and its bracket, the
element has all attributes that stand there, in order, and all other tokens are reported, in order.
So it is with every begin tag that the parser meets, and in a document that is read there are no
other elements, attributes and warnings about tokens than these. -/
theorem attributes_recovered :
    (∀ (o : Opening) (stage : Stage) (outer : List OpenElement) (strays : List SyntaxError)
        (warnings : List SyntaxWarning), stage.Admits outer → outer.length < maxDepth →
      Parser.feed ⟨stage, strays, warnings⟩ o.lexemes =
        ⟨.inContent ⟨beginTagName o.literal, attributesIn o.run, []⟩ outer, strays,
          ((leftOver o.run).map Lexeme.skipped).reverse ++ warnings⟩) ∧
    ∀ (lexemes : List Lexeme) (document : Document), ofLexemes lexemes = .ok document →
      let tags := beginTags (lexemes.takeWhile (!·.token.isEof))
      document.root.elements.map (fun e => (e.name, e.attributes)) =
          tags.map (fun tag => (beginTagName tag.1, attributesIn tag.2)) ∧
        document.warnings.filter SyntaxWarning.isSkipped =
          tags.flatMap fun tag => (leftOver tag.2).map Lexeme.skipped := by
  constructor
  · intro o stage outer strays warnings admits fits
    rw [Parser.feed_opening admits fits, Opening.element, Opening.warnings,
      readAttributes_eq_attributesIn]
  · intro lexemes document read
    have tags := tags_of_read read
    simpa only [readAttributes_eq_attributesIn] using tags

/-- A broken attribute before one that is given twice, and a quote behind them. -/
theorem attributes_recovered_behind_broken_one :
    let lexemes := tokenize "<E broken= a=\"1\" a=\"1\"\"></E>"
    ∃ document, ofLexemes lexemes = .ok document ∧
      document.root.elements.map (fun e => (e.name, e.attributes)) =
        [("E", [⟨"a", "1"⟩, ⟨"a", "1"⟩])] ∧
      (document.warnings.filter SyntaxWarning.isSkipped).length = 3 := by
  intro lexemes
  have parsed : ∃ document, ofLexemes lexemes = .ok document ∧ document.root.name = "E" :=
    exists_of_toOption_any (by decide +kernel)
  obtain ⟨document, read, -⟩ := parsed
  obtain ⟨elements, warnings⟩ := attributes_recovered.2 lexemes document read
  refine ⟨document, read, elements.trans (by decide +kernel), ?_⟩
  rw [warnings]
  decide +kernel

end Document

end StateMarkup
