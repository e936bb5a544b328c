import StateMarkup.HookKey
import StateMarkup.Tag

/-!
# What can be wrong with a tree that has been read

A `Violation` is a rule that a document breaks, with the names it is about. Its wording is
`message`; `Violation.report` puts several below each other.
-/

namespace StateMarkup

/-- A broken rule. -/
inductive Violation where
  /-- the root is no `Schema` -/
  | rootNotSchema
  /-- a hook container that is neither in the root nor in a state -/
  | misplacedHooks
  /-- an `Events` node that is not in a state -/
  | misplacedEvents
  /-- an element that was closed by another name -/
  | mismatchedTag (name : String)
  /-- no node of a name that a document must have -/
  | missingNode (name : String)
  /-- a state with the name of a structural tag -/
  | reservedState (state : String)
  /-- a state whose key is the key of all states -/
  | stateSharesKey (state : String)
  /-- an event whose keys are the keys of all events -/
  | eventSharesKeys (event state : String)
  /-- an event that leads nowhere -/
  | noTarget (event state : String)
  /-- an event that leads to an undeclared state -/
  | undeclaredTarget (event state target : String)
  /-- an event that falls back to an undeclared state -/
  | undeclaredErrorState (event state target : String)
deriving DecidableEq, Repr

namespace Violation

/-- How messages name an event. -/
def describeEvent (event state : String) : String :=
  "event '" ++ event ++ "' in state '" ++ state ++ "'"

/-- The wording of a violation. -/
def message : Violation → String
  | .rootNotSchema => "root node is not " ++ Tag.schema
  | .misplacedHooks => "default events must be a direct child of Schema or a State node"
  | .misplacedEvents => "Events node must be inside a State node"
  | .mismatchedTag name => "mismatched closing tag for <" ++ name ++ ">"
  | .missingNode name => "missing " ++ name ++ " node"
  | .reservedState state => "state '" ++ state ++ "' uses a reserved tag name"
  | .stateSharesKey state =>
    "state '" ++ state ++ "' shares its hook key with " ++ HookKey.enterState
  | .eventSharesKeys event state =>
    describeEvent event state ++ " shares its hook keys with " ++ HookKey.beforeEvent
  | .noTarget event state => describeEvent event state ++ " has no " ++ Tag.targetState
  | .undeclaredTarget event state target =>
    describeEvent event state ++ " targets undeclared state '" ++ target ++ "'"
  | .undeclaredErrorState event state target =>
    describeEvent event state ++ " falls back to undeclared state '" ++ target ++ "'"

/-- The wording of several violations, a line each. -/
def report (violations : List Violation) : String :=
  "\n".intercalate (violations.map message)

end Violation

end StateMarkup
