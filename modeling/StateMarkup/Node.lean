import StateMarkup.Tag

/-!
# The tree of a document

A node has a kind, a name, attributes and children. For text the name is the text itself. Two
look-ups take one of several candidates: `child?` takes the first child of a name, `attribute?` the
last attribute of a name.

A tree can be written down as a list of its nodes with their depths, in pre-order: `Node.outline`;
`Node.ofOutline?` reads such a list back.
-/

namespace StateMarkup

/-- What a node is. -/
inductive NodeKind where
  /-- the one element at the top -/
  | root
  /-- an element whose close tag has its name -/
  | element
  /-- bare text -/
  | text
  /-- an element whose close tag has another name -/
  | unknown
deriving DecidableEq, Repr

/-- A name and a value. -/
structure Attribute where
  name : String
  value : String
deriving DecidableEq, Repr

/-- A node and all that is below it. -/
structure Node where
  kind : NodeKind
  /-- the tag of an element, the text of a text node -/
  name : String
  /-- in the order of the document, repeated names and all -/
  attributes : List Attribute
  children : List Node
deriving Repr

namespace Node

mutual

/-- Trees can be compared. -/
def decEq : (n m : Node) → Decidable (n = m)
  | ⟨kind, name, attributes, children⟩, ⟨kind', name', attributes', children'⟩ =>
    have : Decidable (children = children') := decEqAll children children'
    decidable_of_iff
      (kind = kind' ∧ name = name' ∧ attributes = attributes' ∧ children = children')
      (by rw [Node.mk.injEq])

/-- So can siblings. -/
def decEqAll : (ns ms : List Node) → Decidable (ns = ms)
  | [], [] => isTrue rfl
  | [], m :: ms => isFalse (List.cons_ne_nil m ms).symm
  | n :: ns, [] => isFalse (List.cons_ne_nil n ns)
  | n :: ns, m :: ms =>
    have : Decidable (n = m) := decEq n m
    have : Decidable (ns = ms) := decEqAll ns ms
    decidable_of_iff (n = m ∧ ns = ms) (by rw [List.cons.injEq])

end

instance : DecidableEq Node := decEq

/-- An element without attributes and children. -/
def element (name : String) : Node := ⟨.element, name, [], []⟩

/-- Bare text. -/
def ofText (text : String) : Node := ⟨.text, text, [], []⟩

/-- True of elements that were closed by their own name and are not the root. -/
def isElement (n : Node) : Bool := n.kind == .element

/-- True of bare text. -/
def isText (n : Node) : Bool := n.kind == .text

/-- The first child with the name. -/
def child? (n : Node) (name : String) : Option Node := n.children.find? (·.name == name)

/-- The children with the name. -/
def childrenNamed (n : Node) (name : String) : List Node := n.children.filter (·.name == name)

/-- The children that are elements. -/
def elementChildren (n : Node) : List Node := n.children.filter isElement

/-- The first text among the children. -/
def textContent? (n : Node) : Option String := (n.children.find? isText).map name

/-- The value of the last attribute with the name. -/
def attribute? (n : Node) (name : String) : Option String :=
  (n.attributes.reverse.find? (·.name == name)).map Attribute.value

/-- The node that a list of child indexes leads to. -/
def at? : Node → List Nat → Option Node
  | n, [] => some n
  | n, i :: path => match n.children[i]? with
    | some child => child.at? path
    | none => none

/-! ## Outlines -/

/-- One node of an outline: its depth, and the node without its children. -/
structure OutlineEntry where
  depth : Nat
  kind : NodeKind
  name : String
  attributes : List Attribute
deriving DecidableEq, Repr

mutual

/-- A node at the given depth and all that is below it, in pre-order. -/
def outlineAt (depth : Nat) : Node → List OutlineEntry
  | ⟨kind, name, attributes, children⟩ =>
    ⟨depth, kind, name, attributes⟩ :: outlineAll (depth + 1) children

/-- The outlines of siblings, one after the other. -/
def outlineAll (depth : Nat) : List Node → List OutlineEntry
  | [] => []
  | n :: ns => outlineAt depth n ++ outlineAll depth ns

end

/-- The nodes of a tree in pre-order, the top at depth zero. -/
def outline (n : Node) : List OutlineEntry := outlineAt 0 n

/-- Puts one entry before trees that are already read, each with its depth: those that come next
and are deeper become its children. -/
def graft (e : OutlineEntry) (trees : List (Nat × Node)) : List (Nat × Node) :=
  let below := trees.takeWhile (e.depth < ·.1)
  (e.depth, ⟨e.kind, e.name, e.attributes, below.map (·.2)⟩) :: trees.drop below.length

/-- The tree that an outline starts with: an entry is a child of the nearest entry before it that
is less deep. -/
def ofOutline? (entries : List OutlineEntry) : Option Node :=
  (entries.foldr graft []).head?.map (·.2)

end Node

end StateMarkup
