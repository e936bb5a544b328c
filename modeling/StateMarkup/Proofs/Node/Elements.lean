import Mathlib.Data.List.Perm.Basic
import StateMarkup.Proofs.Node.Shape

/-!
# The elements of a tree

What the nodes of a tree give can be gathered from it, before or behind what is below them. Two
lists of all elements are gathered so, one in the order of their begin tags and one in that of their
close tags, and so is what the texts of the tree say. For an element that is still open the same is
gathered from its contents so far: one more child is gathered behind all others, and one more word
is heard behind all others.
-/

namespace StateMarkup

universe u

/-! ## Gathering from a tree -/

namespace Node

variable {α : Type u} (before behind : Node → List α)

mutual

/-- What each node of a tree gives before what is below it and behind that. The two lists of
elements and the list of texts are all made by this, so what is said of them is proved once. -/
def gather : Node → List α
  | ⟨kind, name, attributes, children⟩ =>
    before ⟨kind, name, attributes, children⟩ ++ gatherAll children ++
      behind ⟨kind, name, attributes, children⟩

/-- The same for several trees, one after the other. -/
def gatherAll : List Node → List α
  | [] => []
  | n :: ns => n.gather ++ gatherAll ns

end

theorem gatherAll_eq (ns : List Node) :
    gatherAll before behind ns = ns.flatMap (gather before behind) := by
  induction ns with
  | nil => rfl
  | cons n ns ih => rw [gatherAll, ih, List.flatMap_cons]

/-- What is gathered from a node that is not taken apart. -/
theorem gather_eq (n : Node) :
    n.gather before behind =
      before n ++ n.children.flatMap (gather before behind) ++ behind n := by
  obtain ⟨kind, name, attributes, children⟩ := n
  rw [gather, gatherAll_eq]

/-- What is made of all that is gathered can be made of each part. -/
theorem flatMap_gather {β : Type u} (g : α → List β) (n : Node) :
    (n.gather before behind).flatMap g =
      n.gather (fun m => (before m).flatMap g) fun m => (behind m).flatMap g := by
  induction n using induct with
  | node n ih =>
    rw [gather_eq, gather_eq, List.flatMap_append, List.flatMap_append, List.flatMap_assoc,
      List.flatMap_congr ih]

/-- A node that is no text, by itself. -/
def asElement (n : Node) : List Node := if n.kind = .text then [] else [n]

theorem asElement_eq {e : Node} (kind : e.kind ≠ .text) : e.asElement = [e] := if_neg kind

theorem asElement_eq_nil {n : Node} (kind : n.kind = .text) : n.asElement = [] := if_pos kind

/-- The text of a node that is one, by itself. -/
def asText (n : Node) : List String := if n.kind = .text then [n.name] else []

variable (n : Node)

/-- The elements of a tree, in the order of their begin tags. -/
def elements : List Node := n.gather asElement fun _ => []

/-- The elements of a tree, in the order of their close tags. -/
def closings : List Node := n.gather (fun _ => []) asElement

/-- What the texts of a tree say, in pre-order. -/
def bareTexts : List String := n.gather asText fun _ => []

variable {n}

/-- An element has no text of its own: all texts in it are those of its children. -/
theorem bareTexts_eq (kind : n.kind ≠ .text) :
    n.bareTexts = n.children.flatMap bareTexts := by
  rw [bareTexts, gather_eq, asText, if_neg kind, List.nil_append, List.append_nil]
  rfl

/-- It is the same elements in both orders, each once. So they can be counted in either. -/
theorem closings_perm (n : Node) : n.closings.Perm n.elements := by
  induction n using induct with
  | node n ih =>
    rw [closings, elements, gather_eq, gather_eq, List.nil_append, List.append_nil]
    exact ((List.Perm.flatMap_left _ ih).append_right _).trans List.perm_append_comm

end Node

/-! ## Open elements -/

namespace OpenElement

variable {α : Type u} (before behind : Node → List α) (e : OpenElement)

/-- What the contents of an open element give so far. The children are kept the newest first and are
turned round here. -/
def gather : List α := e.children.reverse.flatMap (Node.gather before behind)

/-- One more child is gathered behind all others. -/
theorem gather_push (child : Node) :
    (e.push child).gather before behind =
      e.gather before behind ++ child.gather before behind := by
  simp [gather, push]

@[simp] theorem pushText_attributes (word : String) :
    (e.pushText word).attributes = e.attributes := by
  unfold pushText
  split <;> rfl

/-- What texts do not give is the same behind one more word. A word may join a text or begin one,
and it makes no difference in either case. -/
theorem gather_pushText (word : String)
    (silent : ∀ n : Node, n.kind = .text → before n = [] ∧ behind n = []) :
    (e.pushText word).gather before behind = e.gather before behind := by
  have text (text : String) (attributes : List Attribute) (children : List Node) :
      Node.gather before behind ⟨.text, text, attributes, children⟩ =
        children.flatMap (Node.gather before behind) := by
    obtain ⟨nothing_before, nothing_behind⟩ := silent ⟨.text, text, attributes, children⟩ rfl
    rw [Node.gather_eq, nothing_before, nothing_behind, List.nil_append, List.append_nil]
  obtain ⟨name, attributes, children⟩ := e
  unfold pushText
  split
  · rename_i joined
    obtain rfl : children = _ := joined
    simp [gather, text]
  · simp [gather_push, Node.ofText, text]

end OpenElement

/-! ## Words -/

namespace OpenElement

/-- No text among the contents so far has anything below it. -/
def TextsAreBare (e : OpenElement) : Prop :=
  ∀ child ∈ e.children, child.kind = .text → child.children = []

/-- What the texts among the contents so far say. -/
def bareTexts (e : OpenElement) : List String := e.gather Node.asText fun _ => []

variable {e : OpenElement}

/-- One more child keeps this, if it is a leaf or no text. -/
theorem TextsAreBare.push {child : Node} (bare : e.TextsAreBare)
    (leaf : child.kind = .text → child.children = []) : (e.push child).TextsAreBare :=
  List.forall_mem_cons.mpr ⟨leaf, bare⟩

/-- One more word keeps this: a longer text has as little below it as before. -/
theorem TextsAreBare.pushText (bare : e.TextsAreBare) (word : String) :
    (e.pushText word).TextsAreBare := by
  unfold OpenElement.pushText
  split
  · rename_i joined
    rw [TextsAreBare, joined] at bare
    obtain ⟨leaf, others⟩ := List.forall_mem_cons.mp bare
    exact List.forall_mem_cons.mpr ⟨leaf, others⟩
  · exact bare.push fun _ => rfl

/-- One more word is said behind all others. It may have joined the last text, so this can be said
of the texts only when they are put together. -/
theorem join_bareTexts_pushText (bare : e.TextsAreBare) (word : String) :
    String.join (e.pushText word).bareTexts = String.join e.bareTexts ++ word := by
  have text (text : String) (attributes : List Attribute) :
      Node.gather Node.asText (fun _ => []) ⟨.text, text, attributes, []⟩ = [text] := rfl
  obtain ⟨name, attributes, children⟩ := e
  unfold pushText
  split
  · rename_i joined
    obtain rfl : children = _ := joined
    obtain rfl := bare _ List.mem_cons_self rfl
    simp [bareTexts, gather, text, String.append_assoc]
  · rw [bareTexts, gather_push, bareTexts, Node.ofText, text, String.join_append]
    simp

end OpenElement

/-- Nothing stands in an element that has just been opened. -/
theorem Opening.textsAreBare_element (o : Opening) : o.element.TextsAreBare :=
  List.forall_mem_nil _

namespace Markup

@[simp] theorem fill_attributes (m : Markup) (e : OpenElement) :
    (m.fill e).attributes = e.attributes := by
  induction m generalizing e with
  | empty => rfl
  | word before text span ih =>
    rw [fill, OpenElement.pushText_attributes, ih]
  | element before opening inner closing ih _ => exact ih e

/-- An element in which texts are bare stays like this with markup in it. -/
theorem textsAreBare_fill (m : Markup) {e : OpenElement} (bare : e.TextsAreBare) :
    (m.fill e).TextsAreBare := by
  induction m generalizing e with
  | empty => exact bare
  | word before text span ih => exact (ih bare).pushText text
  | element before opening inner closing ih _ =>
    exact (ih bare).push fun text => absurd text (OpenElement.toNode_ne_text _ _)

end Markup

end StateMarkup
