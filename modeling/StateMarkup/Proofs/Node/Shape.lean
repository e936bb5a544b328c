import Mathlib.Data.List.Chain
import StateMarkup.Proofs.Node.Reading
import StateMarkup.Proofs.Node.Visits
import StateMarkup.Proofs.Token.Spacing

/-!
# What the tree of a document looks like

`Node.IsDocument` says it in full: one root at the top and none below, words for names, values and
texts, nothing in a text and no two texts beside each other, and no more than `maxDepth` elements
inside each other. Every tree that is read is like that (`Document.isDocument_root`): it holds of
the elements that are open, token by token, because the tokens of a text are spelt as they should
be.
-/

namespace StateMarkup

/-! ## Names -/

theorem IsWord.append {s t : String} (first : IsWord s) (second : IsWord t) : IsWord (s ++ t) := by
  obtain ⟨nonempty, all⟩ := first
  refine ⟨by simp_all, fun c hc => ?_⟩
  rw [String.toList_append, List.mem_append] at hc
  exact hc.elim (all c) (second.2 c)

@[simp] theorem beginTagName_append (name : String) : beginTagName ("<" ++ name) = name := by
  simp [beginTagName, dropStart]

namespace Node

/-! ## Height -/

mutual

/-- The most elements of a tree that stand inside each other. -/
def height : Node → Nat
  | ⟨kind, _, _, children⟩ => (if kind = .text then 0 else 1) + heightOfAll children

/-- The height of the highest of several trees. -/
def heightOfAll : List Node → Nat
  | [] => 0
  | n :: ns => max n.height (heightOfAll ns)

end

/-- The height of a node by that of its children. A text is not counted: the limit is one for
elements. -/
theorem height_eq (n : Node) :
    n.height = (if n.kind = .text then 0 else 1) + heightOfAll n.children := by
  obtain ⟨kind, name, attributes, children⟩ := n
  rw [height]

/-- A bound on the highest of several trees is a bound on each of them. Heights are compared through
this, so that nothing has to be said about the maximum itself. -/
theorem heightOfAll_le_iff {ns : List Node} {bound : Nat} :
    heightOfAll ns ≤ bound ↔ ∀ n ∈ ns, n.height ≤ bound := by
  induction ns with
  | nil => simp [heightOfAll]
  | cons n ns ih => rw [heightOfAll, Nat.max_le, ih, List.forall_mem_cons]

/-- The order of the trees does not matter. An open element has its children the newest first, and
the node that it becomes has them in the order of the source. -/
theorem heightOfAll_reverse (ns : List Node) : heightOfAll ns.reverse = heightOfAll ns := by
  have same (bound : Nat) : heightOfAll ns.reverse ≤ bound ↔ heightOfAll ns ≤ bound := by
    simp only [heightOfAll_le_iff, List.mem_reverse]
  exact Nat.le_antisymm ((same _).mpr (Nat.le_refl _)) ((same _).mp (Nat.le_refl _))

/-! ## Shape -/

/-- Whether two nodes may stand beside each other: not if both are texts, since words that follow
each other are one text. -/
def MayTouch (a b : Node) : Prop := ¬ (a.kind = .text ∧ b.kind = .text)

instance : DecidableRel MayTouch := fun a b =>
  inferInstanceAs (Decidable (¬ (a.kind = .text ∧ b.kind = .text)))

theorem MayTouch.symm {a b : Node} (h : a.MayTouch b) : b.MayTouch a := fun texts => h texts.symm

/-- What a node of a document is like, and what stands right below it. There is nothing in it about
the nodes further below: that is `Node.AllRegular`. -/
structure IsRegular (n : Node) : Prop where
  name : IsWord n.name
  attributes : ∀ a ∈ n.attributes, IsWord a.name ∧ IsWord a.value
  leaf : n.kind = .text → n.attributes = [] ∧ n.children = []
  apart : n.children.IsChain MayTouch
  below : ∀ child ∈ n.children, child.kind ≠ .root

/-- All nodes of a tree are like those of a document. -/
def AllRegular (n : Node) : Prop := ∀ m, n.Within m → m.IsRegular

/-- **What the tree of a document looks like**: what its top is, what every node in it is like, and
how high it is. It can be decided, and it holds of all that is read (`Document.isDocument_root`). -/
structure IsDocument (root : Node) : Prop where
  top : root.kind = .root
  regular : root.AllRegular
  height : root.height ≤ maxDepth

instance (n : Node) : Decidable n.IsRegular :=
  decidable_of_iff (IsWord n.name ∧ (∀ a ∈ n.attributes, IsWord a.name ∧ IsWord a.value) ∧
      (n.kind = .text → n.attributes = [] ∧ n.children.isEmpty = true) ∧
      n.children.IsChain MayTouch ∧ ∀ child ∈ n.children, child.kind ≠ .root)
    ⟨fun ⟨name, attributes, leaf, apart, below⟩ =>
      ⟨name, attributes, by simpa using leaf, apart, below⟩,
     fun ⟨name, attributes, leaf, apart, below⟩ =>
      ⟨name, attributes, by simpa using leaf, apart, below⟩⟩

instance (n : Node) : Decidable n.AllRegular :=
  inferInstanceAs (Decidable (∀ m, n.Within m → m.IsRegular))

instance (root : Node) : Decidable root.IsDocument :=
  decidable_of_iff (root.kind = .root ∧ root.AllRegular ∧ root.height ≤ maxDepth)
    ⟨fun ⟨top, regular, height⟩ => ⟨top, regular, height⟩,
     fun ⟨top, regular, height⟩ => ⟨top, regular, height⟩⟩

/-- The form for an induction over the tree: the top is regular, and all of each child is. -/
theorem allRegular_iff {n : Node} :
    n.AllRegular ↔ n.IsRegular ∧ ∀ child ∈ n.children, child.AllRegular :=
  forall_within_iff

/-- A text made of a word has nothing below it and is regular by itself. -/
theorem allRegular_ofText {word : String} (h : IsWord word) : (ofText word).AllRegular :=
  allRegular_iff.mpr ⟨⟨h, nofun, fun _ => ⟨rfl, rfl⟩, .nil, nofun⟩, nofun⟩

end Node

/-! ## Attributes -/

/-- Names and values of attributes are texts, so they are spelt as texts are. The induction is that
of the scan of the begin tag: only where a text, an equal sign and a quoted value follow each other
is there an attribute at all. -/
theorem isWord_of_mem_readAttributes {run : List Lexeme} {a : Attribute}
    (spelt : ∀ lexeme ∈ run, lexeme.token.IsSpelt) (ha : a ∈ (readAttributes run).1) :
    IsWord a.name ∧ IsWord a.value := by
  fun_induction readAttributes run with
  | case1 name _ _ _ value _ _ rest attributes warnings read ih =>
    rw [read] at ih
    simp only [List.forall_mem_cons] at spelt
    obtain ⟨named, -, -, valued, -, others⟩ := spelt
    rcases List.mem_cons.mp ha with rfl | ha
    · exact ⟨named, valued⟩
    · exact ih others ha
  | case2 lexeme rest _ attributes warnings read ih =>
    rw [read] at ih
    exact ih (List.forall_mem_cons.mp spelt).2 ha
  | case3 => cases ha

/-! ## Open elements -/

namespace OpenElement

/-- An open element that will be a regular node. It knows more of its children than `Node.IsRegular`
does, namely all that is below them: this is what makes it an invariant of reading. -/
structure IsRegular (e : OpenElement) : Prop where
  name : IsWord e.name
  attributes : ∀ a ∈ e.attributes, IsWord a.name ∧ IsWord a.value
  apart : e.children.IsChain Node.MayTouch
  below : ∀ child ∈ e.children, child.kind ≠ .root ∧ child.AllRegular

variable {e : OpenElement}

/-- A closed element is no text: its kind is one of an element, whether the names agree or not. -/
theorem toNode_ne_text (e : OpenElement) (closed : String) : (e.toNode closed).kind ≠ .text := by
  rw [toNode]
  dsimp only
  split <;> simp

/-- Nor is it a root. The one at the top becomes a root later, when the document is complete. -/
theorem toNode_ne_root (e : OpenElement) (closed : String) : (e.toNode closed).kind ≠ .root := by
  rw [toNode]
  dsimp only
  split <;> simp

/-- A closed element is one higher than what is in it. -/
theorem height_toNode (e : OpenElement) (closed : String) :
    (e.toNode closed).height = 1 + Node.heightOfAll e.children := by
  rw [Node.height_eq, if_neg (e.toNode_ne_text closed), toNode, Node.heightOfAll_reverse]

/-- Words do not make an element higher, whether they join a text or begin one. -/
theorem heightOfAll_pushText (e : OpenElement) (word : String) :
    Node.heightOfAll (e.pushText word).children = Node.heightOfAll e.children := by
  unfold pushText
  split
  · rename_i before
    rw [before]
    simp [Node.heightOfAll, Node.height]
  · simp [push, Node.heightOfAll, Node.height, Node.ofText]

/-- A child may be put in an element if it is regular and may stand beside the child before it. -/
theorem IsRegular.push {child : Node} (regular : e.IsRegular) (kind : child.kind ≠ .root)
    (all : child.AllRegular) (apart : ∀ newest ∈ e.children.head?, child.MayTouch newest) :
    (e.push child).IsRegular :=
  ⟨regular.name, regular.attributes, .cons regular.apart apart,
    List.forall_mem_cons.mpr ⟨⟨kind, all⟩, regular.below⟩⟩

/-- A word that joins a text makes it longer, and one that joins none follows none. So no two texts
come to stand beside each other. -/
theorem IsRegular.pushText {word : String} (regular : e.IsRegular) (h : IsWord word) :
    (e.pushText word).IsRegular := by
  unfold OpenElement.pushText
  split
  · rename_i text attributes children older before
    obtain ⟨name, attributed, apart, below⟩ := regular
    rw [before] at apart below
    -- the text that the word joins is a leaf, and what stands beside it stays where it is
    obtain ⟨⟨-, joined⟩, older_regular⟩ := List.forall_mem_cons.mp below
    obtain ⟨word, -, leaf, -⟩ := (Node.allRegular_iff.mp joined).1
    obtain ⟨rfl, rfl⟩ : attributes = [] ∧ children = [] := leaf rfl
    have longer := Node.allRegular_ofText (word.append h)
    have still_apart := List.isChain_cons.mp apart
    exact ⟨name, attributed, List.isChain_cons.mpr still_apart,
      List.forall_mem_cons.mpr ⟨⟨nofun, longer⟩, older_regular⟩⟩
  · rename_i other
    refine regular.push nofun (Node.allRegular_ofText h) fun newest hnewest => ?_
    rintro ⟨-, text⟩
    obtain ⟨older, before⟩ := List.head?_eq_some_iff.mp hnewest
    obtain ⟨kind, name, attributes, children⟩ := newest
    subst text
    exact other _ _ _ _ before

/-- All of a regular element is regular once it is closed, under whichever name. -/
theorem IsRegular.toNode (regular : e.IsRegular) (closed : String) :
    (e.toNode closed).AllRegular := by
  have below : ∀ child ∈ (e.toNode closed).children, child.kind ≠ .root ∧ child.AllRegular :=
    fun child hchild => regular.below child (List.mem_reverse.mp hchild)
  have apart : (e.toNode closed).children.IsChain Node.MayTouch :=
    List.isChain_reverse.mpr (regular.apart.imp fun _ _ => Node.MayTouch.symm)
  exact Node.allRegular_iff.mpr ⟨⟨regular.name, regular.attributes,
    fun text => absurd text (e.toNode_ne_text closed), apart, fun child hchild =>
      (below child hchild).1⟩, fun child hchild => (below child hchild).2⟩

end OpenElement

/-- A begin tag that is spelt as it should be opens a regular element: it has no children yet, and
its attributes come from the tokens of the tag. -/
theorem Opening.isRegular_element {o : Opening}
    (spelt : ∀ lexeme ∈ o.lexemes, lexeme.token.IsSpelt) : o.element.IsRegular := by
  simp only [Opening.lexemes, List.cons_append, List.forall_mem_cons,
    List.forall_mem_append] at spelt
  obtain ⟨⟨name, word, literal⟩, run, -⟩ := spelt
  refine ⟨?_, fun a ha => isWord_of_mem_readAttributes run ha, .nil, List.forall_mem_nil _⟩
  rw [Opening.element, literal, beginTagName_append]
  exact word

/-- **Markup keeps an element regular.** The induction is on the markup: a word is pushed as a text,
and an element is filled by itself first, then closed, then pushed as a child. -/
theorem Markup.isRegular_fill {m : Markup} {e : OpenElement} (regular : e.IsRegular)
    (spelt : ∀ lexeme ∈ m.lexemes, lexeme.token.IsSpelt) : (m.fill e).IsRegular := by
  induction m generalizing e with
  | empty => exact regular
  | word before text span ih =>
    simp only [Markup.lexemes, List.forall_mem_append, List.forall_mem_singleton] at spelt
    obtain ⟨before_spelt, word⟩ := spelt
    exact (ih regular before_spelt).pushText word
  | element before opening inner closing ihBefore ihInner =>
    simp only [Markup.lexemes, List.forall_mem_append] at spelt
    obtain ⟨before_spelt, ⟨begin, inside⟩, -⟩ := spelt
    have filled := ihInner (Opening.isRegular_element begin) inside
    exact (ihBefore regular before_spelt).push (OpenElement.toNode_ne_root _ _)
      (filled.toNode closing.name) fun newest _ texts =>
        OpenElement.toNode_ne_text _ _ texts.1

/-- An element that is filled with markup is as high as it was before or as the markup is. The limit
for the depth is checked on the markup, and this brings it to the tree. -/
theorem Markup.heightOfAll_fill_le (m : Markup) (e : OpenElement) :
    Node.heightOfAll (m.fill e).children ≤ max (Node.heightOfAll e.children) m.height := by
  induction m generalizing e with
  | empty => exact Nat.le_max_left _ _
  | word before text span ih =>
    rw [fill, OpenElement.heightOfAll_pushText]
    exact ih e
  | element before opening inner closing ihBefore ihInner =>
    have outside := ihBefore e
    have inside := ihInner opening.element
    rw [fill, OpenElement.push, Node.heightOfAll, OpenElement.height_toNode]
    simp only [Opening.element, Node.heightOfAll] at inside ⊢
    simp only [height]
    omega

/-- Every token before the end is spelt as it should be: the text is written out as tokens with gaps
between them, and these are the tokens that the lexer finds. -/
theorem isSpelt_of_mem_tokenize {source : String} {lexeme : Lexeme}
    (h : lexeme ∈ (tokenize source).takeWhile (!·.token.isEof)) : lexeme.token.IsSpelt := by
  obtain ⟨tokens, spelt, spaced⟩ := exists_spaced source.toList
  have same := tokens_takeWhile_tokenize spelt spaced
  exact spelt _ (same ▸ List.mem_map_of_mem h)

/-- **Every tree that is read looks like this.** The document is that of one element
(`Document.ofLexemes_eq_ok_iff`). Its contents are put into what its begin tag opens, which is
regular; and all tokens are spelt as they should be, since they come from a text. -/
theorem Document.isDocument_root {source : String} {document : Document}
    (parsed : Document.parse source = .ok document) : document.root.IsDocument := by
  obtain ⟨opening, inner, closing, same, fits, rfl⟩ := ofLexemes_eq_ok_iff.mp parsed
  have spelt : ∀ lexeme ∈ (Markup.single opening inner closing).lexemes, lexeme.token.IsSpelt :=
    fun lexeme h => isSpelt_of_mem_tokenize (same ▸ h)
  simp only [Markup.lexemes_single, List.forall_mem_append] at spelt
  obtain ⟨⟨begin, inside⟩, -⟩ := spelt
  have node := (Markup.isRegular_fill (Opening.isRegular_element begin) inside).toNode closing.name
  have height := inner.heightOfAll_fill_le opening.element
  rw [Markup.height_single] at fits
  obtain ⟨⟨name, attributes, -, apart, below⟩, all⟩ := Node.allRegular_iff.mp node
  refine ⟨rfl, Node.allRegular_iff.mpr ⟨⟨name, attributes, nofun, apart, below⟩, all⟩, ?_⟩
  have children : (ofElement opening inner closing).root.children =
      (inner.fill opening.element).children.reverse := rfl
  rw [Node.height_eq, if_neg nofun, children, Node.heightOfAll_reverse]
  simp only [Opening.element, Node.heightOfAll] at height ⊢
  omega

end StateMarkup
