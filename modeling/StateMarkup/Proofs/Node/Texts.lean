import StateMarkup.Proofs.Node.Shape

/-!
# Texts in a tree

Bare text has nothing below it in a tree that was read (`Document.textsAreLeaves`). `Node.Edited`
says that two trees differ in texts only.
-/

namespace StateMarkup

namespace Node

/-- No text in a tree has anything below it. -/
def TextsAreLeaves (n : Node) : Prop := ∀ m, n.Within m → m.kind = .text → m.children = []

/-- The form for an induction over the tree. -/
theorem textsAreLeaves_iff {n : Node} :
    n.TextsAreLeaves ↔
      (n.kind = .text → n.children = []) ∧ ∀ child ∈ n.children, child.TextsAreLeaves :=
  forall_within_iff

end Node

/-- Texts that have been read are leaves, which is part of what the tree of a document looks like.
It is kept apart because the edits below need nothing else of a tree. -/
theorem Document.textsAreLeaves {source : String} {document : Document}
    (parsed : Document.parse source = .ok document) : document.root.TextsAreLeaves :=
  fun m within text => (((isDocument_root parsed).regular m within).leaf text).2

/-! ## Trees that differ in texts -/

/-- What may be done to a text below a parent of the given name: another in its place, or none. -/
abbrev TextRule := (parent text : String) → (other : Option String) → Prop

namespace TextRule

/-- Any text may be replaced as it is said. -/
def replacing (may : String → String → Prop) : TextRule :=
  fun _ text other => ∃ replacement, other = some replacement ∧ may text replacement

/-- Any text that is not in a task may be replaced, or taken away, as it is said. -/
def outsideTasks (may : String → Option String → Prop) : TextRule :=
  fun parent text other => parent ≠ Tag.task ∧ may text other

end TextRule

/-- None of the words comes or goes: a text that is one of them stays, and no other becomes one of
them. -/
def KeepsWords (words : List String) (text : String) (other : Option String) : Prop :=
  ∀ word ∈ words, text = word ↔ other = some word

instance (words : List String) (text : String) (other : Option String) :
    Decidable (KeepsWords words text other) :=
  inferInstanceAs (Decidable (∀ word ∈ words, text = word ↔ other = some word))

namespace Node

/-- The second list of siblings is the first with some texts in it, at any depth, replaced or taken
away. Everything but the texts stays as it is, and the rule is asked about each text with the name
of the node that it stands in. -/
inductive EditedAll (rule : TextRule) : String → List Node → List Node → Prop where
  | nil (parent : String) : EditedAll rule parent [] []
  | keep {parent name : String} {children children' rest rest' : List Node} (kind : NodeKind)
      (attributes : List Attribute) : EditedAll rule name children children' →
      EditedAll rule parent rest rest' →
      EditedAll rule parent (⟨kind, name, attributes, children⟩ :: rest)
        (⟨kind, name, attributes, children'⟩ :: rest')
  | replace {parent text other : String} {rest rest' : List Node} (attributes : List Attribute)
      (children : List Node) : rule parent text (some other) → EditedAll rule parent rest rest' →
      EditedAll rule parent (⟨.text, text, attributes, children⟩ :: rest)
        (⟨.text, other, attributes, children⟩ :: rest')
  | remove {parent text : String} {rest rest' : List Node} (attributes : List Attribute)
      (children : List Node) : rule parent text none → EditedAll rule parent rest rest' →
      EditedAll rule parent (⟨.text, text, attributes, children⟩ :: rest) rest'

/-- The second tree is the first with some texts below its top replaced or taken away. -/
inductive Edited (rule : TextRule) : Node → Node → Prop where
  | mk {name : String} {children children' : List Node} (kind : NodeKind)
      (attributes : List Attribute) : EditedAll rule name children children' →
      Edited rule ⟨kind, name, attributes, children⟩ ⟨kind, name, attributes, children'⟩

namespace EditedAll

variable {rule : TextRule} {parent : String}

/-- A tree may stay as it is, in front of siblings of which some are edited. The induction is on the
tree, since all of its children stay as well. -/
theorem cons_self (n : Node) {rest rest' : List Node} (edited : EditedAll rule parent rest rest') :
    EditedAll rule parent (n :: rest) (n :: rest') := by
  induction n using induct generalizing parent rest rest' with
  | node n ih =>
    obtain ⟨kind, name, attributes, children⟩ := n
    refine .keep kind attributes ?_ edited
    induction children with
    | nil => exact .nil name
    | cons child children below =>
      exact ih child List.mem_cons_self (below fun n hn => ih n (List.mem_cons_of_mem child hn))

theorem refl (ns : List Node) : EditedAll rule parent ns ns := by
  induction ns with
  | nil => exact .nil parent
  | cons n ns ih => exact ih.cons_self n

end EditedAll

/-- A text by itself, if there is one. -/
def texts (text : Option String) : List Node := (text.map ofText).toList

/-- A node that is no text has only texts that are leaves if its children have. -/
theorem textsAreLeaves_of_ne {kind : NodeKind} {name : String} {attributes : List Attribute}
    {children : List Node} (h : kind ≠ .text) (below : ∀ child ∈ children, child.TextsAreLeaves) :
    TextsAreLeaves ⟨kind, name, attributes, children⟩ :=
  textsAreLeaves_iff.mpr ⟨fun text => absurd text h, below⟩

theorem textsAreLeaves_texts (text : Option String) : ∀ n ∈ texts text, n.TextsAreLeaves := by
  intro n hn
  obtain ⟨text, -, rfl⟩ := Option.map_eq_some_iff.mp (Option.mem_toList.mp hn)
  exact textsAreLeaves_iff.mpr ⟨fun _ => rfl, fun _ below => absurd below List.not_mem_nil⟩

/-- One text before siblings that stay is replaced or taken away as the rule allows. All examples of
what an edit changes are trees like this. -/
theorem EditedAll.texts_append {rule : TextRule} {parent text : String} {other : Option String}
    (allowed : rule parent text other) (rest : List Node) :
    EditedAll rule parent (texts (some text) ++ rest) (texts other ++ rest) := by
  cases other with
  | none => exact .remove [] [] allowed (.refl rest)
  | some replacement => exact .replace [] [] allowed (.refl rest)

end Node

end StateMarkup
