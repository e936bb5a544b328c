import StateMarkup.NameMap
import StateMarkup.Node.Levels
import StateMarkup.Violation

/-!
# Where nodes may stand

A tree is walked breadth first. A node named `States` declares its element children as states once
its own place has been checked, so that every node further down is checked against all states
declared before it. `Survey` is what is known on the way; `Node.validate` gives the declared states
of a tree that breaks no rule, or else every violation in the order of the walk, those about
missing nodes last. In strict mode elements that were closed by another name are violations too.
-/

namespace StateMarkup

namespace Visit

/-- True below the root. -/
def isBelowRoot (v : Visit) : Bool :=
  match v.parent with
  | some parent => parent.kind == .root
  | none => false

/-- True inside an element with the name of a declared state. -/
def isInState (v : Visit) (declared : NameSet) : Bool :=
  match v.parent with
  | some parent => parent.isElement && declared.contains parent.name
  | none => false

/-- The root is a `Schema`. -/
def checkRoot (v : Visit) : List Violation :=
  if v.node.kind = .root ∧ v.node.name ≠ Tag.schema then [.rootNotSchema] else []

/-- Hook containers stand in the root or in a state. -/
def checkHooks (v : Visit) (declared : NameSet) : List Violation :=
  if v.node.isElement && (HookKind.ofTag? v.node.name).isSome && !v.isBelowRoot &&
      !v.isInState declared then [.misplacedHooks] else []

/-- `Events` nodes stand in a state. -/
def checkEvents (v : Visit) (declared : NameSet) : List Violation :=
  if v.node.name == Tag.events && !v.isInState declared then [.misplacedEvents] else []

/-- Elements are closed by their own name. -/
def checkClosed (v : Visit) : List Violation :=
  if v.node.kind = .unknown then [.mismatchedTag v.node.name] else []

/-- The rules that a node breaks. -/
def violations (v : Visit) (strict : Bool) (declared : NameSet) : List Violation :=
  v.checkRoot ++ v.checkHooks declared ++ v.checkEvents declared ++
    if strict then v.checkClosed else []

/-- The states that a node declares. -/
def declares (v : Visit) : List String :=
  if v.node.name = Tag.states then v.node.elementChildren.map (·.name) else []

end Visit

/-- What is known after a part of the walk. -/
structure Survey where
  declared : NameSet
  violations : List Violation

namespace Survey

/-- Nothing has been visited. -/
def init : Survey := ⟨.empty, []⟩

/-- What is known after one more node. -/
def visit (strict : Bool) (s : Survey) (v : Visit) : Survey :=
  ⟨s.declared.addAll v.declares, s.violations ++ v.violations strict s.declared⟩

/-- What is known after several more nodes. -/
def visitAll (strict : Bool) (s : Survey) (visits : List Visit) : Survey :=
  visits.foldl (visit strict) s

end Survey

namespace Node

/-- The names that a tree must have and has not. -/
def missingNodes (visits : List Visit) : List Violation :=
  ([Tag.schema, Tag.states].filter fun name => !visits.any (·.node.name == name)).map .missingNode

/-- What is known after the whole walk. -/
def survey (root : Node) (strict : Bool) : Survey :=
  let walked := Survey.init.visitAll strict root.breadthFirst
  ⟨walked.declared, walked.violations ++ missingNodes root.breadthFirst⟩

/-- The declared states of a tree, or all its violations. -/
def validate (root : Node) (strict : Bool) : Except (List Violation) NameSet :=
  let s := root.survey strict
  if s.violations.isEmpty then .ok s.declared else .error s.violations

end Node

end StateMarkup
