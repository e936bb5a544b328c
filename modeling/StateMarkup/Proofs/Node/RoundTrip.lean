import StateMarkup.Proofs.Node.Grammar
import StateMarkup.Proofs.Node.Printing

/-!
# Printed trees are read back

The tokens of a node are read as one more child of the innermost open element (`Node.readsBack`, by
induction on the tree), and those of a whole document as its tree (`Document.ofLexemes_of_tokens`).
So reading undoes printing (`Document.parse_print`): every tree of a document can be printed and
read back, and so can the tree of every text that is read.
-/

namespace StateMarkup

/-- Attributes that have been written down are found again, and nothing is skipped. -/
theorem readAttributes_eq {run : List Lexeme} {attributes : List Attribute}
    (same : run.map (·.token) = attributes.flatMap Attribute.tokens) :
    readAttributes run = (attributes, []) := by
  induction attributes generalizing run with
  | nil =>
    obtain rfl := List.map_eq_nil_iff.mp same
    rfl
  | cons a attributes ih =>
    obtain ⟨_, _, rfl, assign⟩ := exists_lexeme_of_map_eq_cons same
    obtain ⟨_, _, rfl, quote⟩ := exists_lexeme_of_map_eq_cons assign
    obtain ⟨_, _, rfl, value⟩ := exists_lexeme_of_map_eq_cons quote
    obtain ⟨_, _, rfl, quoted⟩ := exists_lexeme_of_map_eq_cons value
    obtain ⟨_, _, rfl, others⟩ := exists_lexeme_of_map_eq_cons quoted
    rw [readAttributes, ih others]

/-- A word that follows no text becomes a text of its own. -/
theorem OpenElement.pushText_eq_push {e : OpenElement}
    (apart : ∀ newest ∈ e.children.head?, newest.kind ≠ .text) (word : String) :
    e.pushText word = e.push (.ofText word) := by
  unfold pushText
  split
  · rename_i before
    exact absurd rfl (apart _ (by rw [before]; rfl))
  · rfl

namespace Node

variable {n : Node} {ns : List Node}

/-- No element of a tree was closed by another name. The name that such an element was closed by is
lost, so there is a warning when it is read back. -/
def AllClosed (n : Node) : Prop := ∀ m, n.Within m → m.kind ≠ .unknown

instance (n : Node) : Decidable n.AllClosed :=
  inferInstanceAs (Decidable (∀ m, n.Within m → m.kind ≠ .unknown))

/-- The tokens of a node are read as one more child of the innermost open element, and nothing is
reported if all of it is closed. The tokens may stand anywhere, and there may be anything around
them that leaves enough depth. -/
def ReadsBack (n : Node) : Prop :=
  ∀ (e : OpenElement) (outer : List OpenElement) (strays : List SyntaxError)
    (warnings : List SyntaxWarning) (lexemes : List Lexeme),
    lexemes.map (·.token) = n.tokens → outer.length + 1 + n.height ≤ maxDepth →
    (∀ newest ∈ e.children.head?, n.MayTouch newest) →
    ∃ reported, Parser.feed ⟨.inContent e outer, strays, warnings⟩ lexemes =
        ⟨.inContent (e.push n) outer, strays, reported ++ warnings⟩ ∧
      (n.AllClosed → reported = [])

/-- An element is closed by its printed close tag as the node that it was, of the same kind. -/
theorem toNode_closeTag (kind : n.kind = .element ∨ n.kind = .unknown) (name : IsWord n.name) :
    OpenElement.toNode ⟨n.name, n.attributes, n.children.reverse⟩
      (closeTagName (closeTag n.kind n.name)) = n := by
  obtain ⟨kind', name', attributes, children⟩ := n
  rcases kind with rfl | rfl
  · simp [OpenElement.toNode, closeTag, closeTagName_append name]
  · have nameless : closeTagName "</>" ≠ name' := fun same =>
      absurd (same ▸ name : IsWord (closeTagName "</>")) (by decide)
    simp [OpenElement.toNode, closeTag, nameless]

/-- A text is one token, and it does not join the child before it, since that is no text. -/
theorem readsBack_of_text (text : n.kind = .text) (regular : n.IsRegular) : n.ReadsBack := by
  intro e outer strays warnings lexemes same fits apart
  rw [tokens_of_text text] at same
  obtain ⟨span, rest, rfl, nothing⟩ := exists_lexeme_of_map_eq_cons same
  obtain rfl := List.map_eq_nil_iff.mp nothing
  obtain ⟨no_attributes, no_children⟩ := regular.leaf text
  have leaf : n = .ofText n.name := by
    obtain ⟨kind, name, attributes, children⟩ := n
    simp_all [ofText]
  have pushed : e.pushText n.name = e.push n := by
    rw [OpenElement.pushText_eq_push fun newest h both => apart newest h ⟨text, both⟩, ← leaf]
  refine ⟨[], ?_, fun _ => rfl⟩
  simp [Parser.feed_singleton, Parser.step, Parser.goto, pushed]

/-- The tokens of siblings are read as so many more children. Each reads back by itself; what is
asked in between is that no text comes behind a text. -/
theorem feed_siblings (each : ∀ n ∈ ns, n.ReadsBack) (e : OpenElement) (outer : List OpenElement)
    (strays : List SyntaxError) (warnings : List SyntaxWarning) {lexemes : List Lexeme}
    (same : lexemes.map (·.token) = tokensOfAll ns)
    (fits : outer.length + 1 + heightOfAll ns ≤ maxDepth) (apart : ns.IsChain MayTouch)
    (touching : ∀ first ∈ ns.head?, ∀ newest ∈ e.children.head?, first.MayTouch newest) :
    ∃ reported, Parser.feed ⟨.inContent e outer, strays, warnings⟩ lexemes =
        ⟨.inContent ⟨e.name, e.attributes, ns.reverse ++ e.children⟩ outer, strays,
          reported ++ warnings⟩ ∧
      ((∀ n ∈ ns, n.AllClosed) → reported = []) := by
  induction ns generalizing e warnings lexemes with
  | nil =>
    obtain rfl := List.map_eq_nil_iff.mp same
    exact ⟨[], rfl, fun _ => rfl⟩
  | cons n ns ih =>
    obtain ⟨own, others, rfl, own_tokens, rest⟩ := List.map_eq_append_iff.mp same
    obtain ⟨first, later⟩ := List.forall_mem_cons.mp each
    obtain ⟨untouched, apart⟩ := List.isChain_cons.mp apart
    -- both the first node and the others fit below the elements that are open
    rw [heightOfAll] at fits
    have own_fits : outer.length + 1 + n.height ≤ maxDepth := by omega
    have rest_fits : outer.length + 1 + heightOfAll ns ≤ maxDepth := by omega
    have behind : ∀ next ∈ ns.head?, ∀ newest ∈ (e.push n).children.head?,
        next.MayTouch newest := by
      rintro next hnext _ ⟨⟩
      exact (untouched next hnext).symm
    obtain ⟨before, read, clean⟩ :=
      first e outer strays warnings own own_tokens own_fits (touching n rfl)
    obtain ⟨after, read_rest, rest_clean⟩ :=
      ih later (e.push n) (before ++ warnings) rest rest_fits apart behind
    refine ⟨after ++ before, ?_, fun closed => ?_⟩
    · rw [Parser.feed_append, read, read_rest]
      simp [OpenElement.push]
    · obtain ⟨own_closed, rest_closed⟩ := List.forall_mem_cons.mp closed
      rw [clean own_closed, rest_clean rest_closed, List.append_nil]

/-- The tokens of an element are read as that element, at the top of a document or further down: its
begin tag opens it, its children are read back, and its close tag closes it. -/
theorem feed_element {stage : Stage} {outer : List OpenElement} (admits : stage.Admits outer)
    (kind : n.kind = .element ∨ n.kind = .unknown) (regular : n.IsRegular)
    (each : ∀ child ∈ n.children, child.ReadsBack) (strays : List SyntaxError)
    (warnings : List SyntaxWarning) {lexemes : List Lexeme}
    (same : lexemes.map (·.token) = n.tokens) (fits : outer.length + n.height ≤ maxDepth) :
    ∃ reported, Parser.feed ⟨stage, strays, warnings⟩ lexemes =
        ⟨.behind n outer, strays, reported ++ warnings⟩ ∧
      (n.AllClosed → reported = []) := by
  have text : n.kind ≠ .text := by rcases kind with kind | kind <;> simp [kind]
  have run_open : .endTag ∉ n.attributes.flatMap Attribute.tokens := by simp [Attribute.tokens]
  rw [tokens_of_ne_text text] at same
  obtain ⟨o, inner, c, rfl, opening, run, contents, closing⟩ := exists_tags_of_map_eq run_open same
  -- the begin tag has nothing but attributes in it, so it opens the node as it was
  have opened : o.element = ⟨n.name, n.attributes, []⟩ := by
    simp [Opening.element, opening, readAttributes_eq run]
  have unreported : o.warnings = [] := by rw [Opening.warnings, readAttributes_eq run]
  have node : OpenElement.toNode ⟨n.name, n.attributes, n.children.reverse ++ []⟩ c.name = n := by
    rw [List.append_nil, Closing.name, closing]
    exact toNode_closeTag kind regular.name
  rw [height_eq, if_neg text] at fits
  obtain ⟨reported, read, clean⟩ := feed_siblings each o.element outer strays warnings contents
    (by omega) regular.apart (by simp [opened])
  refine ⟨(c.warnings n.name).reverse ++ reported, ?_, fun closed => ?_⟩
  · rw [Parser.feed_append, Parser.feed_append, Parser.feed_opening admits (by omega) o,
      unreported, List.reverse_nil, List.nil_append, read, Parser.feed_singleton,
      Parser.step_closing, opened, node, List.append_assoc]
  · obtain ⟨own_closed, inside_closed⟩ := forall_within_iff.mp closed
    have named : c.name = n.name := by
      simp [Closing.name, closing, kind.resolve_right own_closed, closeTag,
        closeTagName_append regular.name]
    simp [clean inside_closed, Closing.warnings, named]

/-- **Trees are read back**, node by node: a text by itself, and an element by its children, for
which the induction gives the same. -/
theorem readsBack (regular : n.AllRegular) (kind : n.kind ≠ .root) : n.ReadsBack := by
  induction n using induct with
  | node n ih =>
    obtain ⟨top, below⟩ := allRegular_iff.mp regular
    have each : ∀ child ∈ n.children, child.ReadsBack := fun child hchild =>
      ih child hchild (below child hchild) (top.below child hchild)
    by_cases text : n.kind = .text
    · exact readsBack_of_text text top
    · intro e outer strays warnings lexemes same fits apart
      have element : n.kind = .element ∨ n.kind = .unknown := by
        cases hkind : n.kind <;> simp_all
      exact feed_element (.content e outer) element top each strays warnings same
        (by simpa using fits)

end Node

namespace Document

variable {root : Node}

/-- Whatever has the tokens of a tree is read as that tree. The top of the tree is an element like
others until the document is complete and it becomes the root. -/
theorem ofLexemes_of_tokens (shape : root.IsDocument) {lexemes : List Lexeme}
    (same : (lexemes.takeWhile (!·.token.isEof)).map (·.token) = root.tokens) :
    ∃ warnings, ofLexemes lexemes = .ok ⟨root, warnings⟩ ∧ (root.AllClosed → warnings = []) := by
  obtain ⟨kind, name, attributes, children⟩ := root
  obtain ⟨rfl, regular, height⟩ := shape
  obtain ⟨top, below⟩ := Node.allRegular_iff.mp regular
  -- until the end the root is read as an element like any other
  have element : Node.IsRegular ⟨.element, name, attributes, children⟩ :=
    ⟨top.name, top.attributes, (by simp), top.apart, top.below⟩
  have each : ∀ child ∈ children, child.ReadsBack := fun child hchild =>
    Node.readsBack (below child hchild) (top.below child hchild)
  have tokens : Node.tokens ⟨.root, name, attributes, children⟩ =
      Node.tokens ⟨.element, name, attributes, children⟩ := by
    simp [Node.tokens, Node.closeTag]
  obtain ⟨reported, read, clean⟩ := Node.feed_element .start (.inl rfl) element each [] []
    (same.trans tokens) (by simpa [Node.height] using height)
  refine ⟨reported.reverse, ?_, fun closed => ?_⟩
  · rw [ofLexemes, Parser.init, read]
    simp [Stage.behind, Parser.finish]
  · obtain ⟨-, inside⟩ := Node.forall_within_iff.mp closed
    rw [clean (Node.forall_within_iff.mpr ⟨by simp, inside⟩), List.reverse_nil]

/-- **Blanks do not matter.** A text with the tokens of a tree is read as that tree. -/
theorem parse_of_spaced (shape : root.IsDocument) {source : String}
    (spaced : Spaced root.tokens source.toList) :
    ∃ warnings, parse source = .ok ⟨root, warnings⟩ ∧ (root.AllClosed → warnings = []) := by
  have spelt : ∀ t ∈ root.tokens, t.IsSpelt := fun t ht =>
    Node.isSpelt_of_mem_tokens shape.regular ht
  exact ofLexemes_of_tokens shape (tokens_takeWhile_tokenize spelt spaced)

/-- What is printed has the tokens of the tree, with nothing behind them. -/
theorem spaced_print (shape : root.IsDocument) : Spaced root.tokens root.print.toList := by
  have printed := Node.printsTokens shape.regular [] [] nofun (.nil nofun)
  simpa using printed

/-- **Reading undoes printing.** A tree that a document may have, all of it closed, is printed and
read back without a warning. What has been read from any text is printed and read back, too, since
its tree has the shape of a document. -/
theorem parse_print :
    (∀ root : Node, root.IsDocument → root.AllClosed → parse root.print = .ok ⟨root, []⟩) ∧
      (∀ source document, parse source = .ok document →
        ∃ warnings, parse document.root.print = .ok ⟨document.root, warnings⟩) := by
  constructor
  · intro root shape closed
    obtain ⟨warnings, read, clean⟩ := parse_of_spaced shape (spaced_print shape)
    rw [read, clean closed]
  · intro source document parsed
    have shape := isDocument_root parsed
    obtain ⟨warnings, read, -⟩ := parse_of_spaced shape (spaced_print shape)
    exact ⟨warnings, read⟩

/-- A closed tree is printed and read back, and so is what is read from a text with a wrong close
tag in it. -/
theorem parse_print_of_both :
    let closed : Node := ⟨.root, "a", [⟨"k", "v"⟩], [.ofText "x", .element "b", .ofText "y"]⟩
    let mended : Document := ⟨⟨.root, "a", [], [.ofText "xy", ⟨.unknown, "b", [⟨"k", "1"⟩], []⟩]⟩,
      [.mismatchedCloseTag "b" "c" ⟨1, 18, 17, 21⟩]⟩
    closed.IsDocument ∧ closed.AllClosed ∧ parse closed.print = .ok ⟨closed, []⟩ ∧
      parse "<a> x y <b k=\"1\"></c></a>" = .ok mended ∧
      mended.root.print = "<a>xy<b k=\"1\"></></a>" ∧
      ∃ warnings, parse mended.root.print = .ok ⟨mended.root, warnings⟩ := by
  intro closed mended
  have shape : closed.IsDocument := by decide +kernel
  have all : closed.AllClosed := by decide +kernel
  have read : parse "<a> x y <b k=\"1\"></c></a>" = .ok mended := by decide +kernel
  have printed : mended.root.print = "<a>xy<b k=\"1\"></></a>" := by decide +kernel
  exact ⟨shape, all, parse_print.1 closed shape all, read, printed, parse_print.2 _ mended read⟩

end Document

end StateMarkup
