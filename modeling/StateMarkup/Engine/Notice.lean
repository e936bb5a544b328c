import StateMarkup.Engine.Error
import StateMarkup.Text.Quoted

/-!
# What an engine reports on its way

A `Notice` is one entry of a log: what happened, with its `level` and its wording. A log is a list
of notices in the order in which they were made.
-/

namespace StateMarkup

/-- How much a notice matters. -/
inductive Level where
  | debug
  | info
  | warn
deriving DecidableEq, Repr

/-- The name of a level in a log. -/
def Level.name : Level → String
  | .debug => "DEBUG"
  | .info => "INFO"
  | .warn => "WARN"

/-- One thing that happened. -/
inductive Notice where
  /-- a document is about to be read -/
  | reading (path : String)
  /-- a fault in a document was mended -/
  | mended (warning : SyntaxWarning)
  /-- a document was compiled; the numbers of its states, transitions and hooks -/
  | compiled (states transitions hooks : Nat)
  /-- a task is about to run -/
  | running (task hook : String)
  /-- an event was fired -/
  | moved (event source target : String)
  /-- hooks failed and nothing answers the failure -/
  | aborted (event state : String) (cause : EngineError)
  /-- hooks failed and the error state answers -/
  | fallingBack (event state : String) (cause : EngineError)
  /-- the answer failed too -/
  | fallbackFailed (event : String) (error : EngineError)
  /-- a task says something itself -/
  | spoken (level : Level) (text : String)
deriving DecidableEq, Repr

namespace Notice

/-- The level of a notice. -/
def level : Notice → Level
  | .reading _ => .debug
  | .mended _ => .warn
  | .compiled .. => .info
  | .running .. => .debug
  | .moved .. => .info
  | .aborted .. => .warn
  | .fallingBack .. => .warn
  | .fallbackFailed .. => .warn
  | .spoken level _ => level

/-- The wording of a notice. -/
def message : Notice → String
  | .reading path => "Reading document " ++ Text.quote path
  | .mended warning => warning.message
  | .compiled states transitions hooks =>
    "Compiled " ++ toString states ++ " states, " ++ toString transitions ++ " transitions, " ++
      toString hooks ++ " hooks"
  | .running task hook => "Running task " ++ task ++ " for " ++ hook
  | .moved event source target => event ++ ": " ++ source ++ " -> " ++ target
  | .aborted event state cause =>
    event ++ " aborted in state " ++ state ++ ": " ++ cause.message
  | .fallingBack event state cause =>
    event ++ " aborted in state " ++ state ++ ", falling back: " ++ cause.message
  | .fallbackFailed event error => event ++ " failed as well: " ++ error.message
  | .spoken _ text => text

end Notice

end StateMarkup
