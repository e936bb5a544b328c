import StateMarkup.Node
import StateMarkup.Schema

/-!
# The schema of a tree

Reads a schema off a tree, valid or not: it never fails, and what it does not know it passes over.
Of several `States` or `Events` nodes the first counts, of several hook containers of one kind the
last, of several attributes of one name the last.
-/

namespace StateMarkup

/-- The task names in a container: the first text of each child `Task` that has one. -/
def Node.taskNames (n : Node) : List String :=
  (n.childrenNamed Tag.task).filterMap Node.textContent?

/-- The tasks in the last container of the kind. -/
def Node.hookTasks (n : Node) (kind : HookKind) : List String :=
  match n.children.reverse.find? (·.name == kind.tag) with
  | some container => container.taskNames
  | none => []

/-- The hooks of a schema or a state. -/
def HookLists.ofNode (n : Node) : HookLists :=
  ⟨n.hookTasks .before, n.hookTasks .after, n.hookTasks .onEnter⟩

/-- The event of an element; an empty error state is none. -/
def Event.ofNode (n : Node) : Event :=
  ⟨n.name, (n.attribute? Tag.targetState).getD "",
    (n.attribute? Tag.errorState).filter (· != ""), n.taskNames⟩

/-- True of the children of an `Events` node that are events: neither text nor hook containers. -/
def Node.isEvent (n : Node) : Bool := !n.isText && (HookKind.ofTag? n.name).isNone

/-- The state of an element. -/
def State.ofNode (n : Node) : State :=
  ⟨n.name, .ofNode n,
    match n.child? Tag.events with
    | some events => (events.children.filter Node.isEvent).map .ofNode
    | none => []⟩

/-- The schema of a tree. -/
def Schema.ofNode (root : Node) : Schema :=
  ⟨.ofNode root,
    match root.child? Tag.states with
    | some states => states.elementChildren.map .ofNode
    | none => []⟩

end StateMarkup
