import StateMarkup.Registry
import StateMarkup.SyntaxError
import StateMarkup.Violation

/-!
# Failures

A `CompileError` says why no engine was made of a document, with all syntax errors or all violations
at once. An `EngineError` says why an event was not fired. Both have a stable `code` beside their
wording.
-/

namespace StateMarkup

/-- Why the text of a file could not be had. -/
inductive ReadError where
  | notFound
  | notADirectory
  | isADirectory
  | nameTooLong
  | denied
  /-- the bytes are no UTF-8 -/
  | invalidText
  /-- the system gives another reason -/
  | other (reason : String)
deriving DecidableEq, Repr

namespace ReadError

/-- The wording of a failure to read, with the number of the system's error. -/
def message : ReadError → String
  | .notFound => "No such file or directory (os error 2)"
  | .denied => "Permission denied (os error 13)"
  | .notADirectory => "Not a directory (os error 20)"
  | .isADirectory => "Is a directory (os error 21)"
  | .nameTooLong => "File name too long (os error 36)"
  | .invalidText => "stream did not contain valid UTF-8"
  | .other reason => reason

/-- True if there is nothing under the path. -/
def isAbsence : ReadError → Bool
  | .notFound => true
  | .notADirectory => true
  | .nameTooLong => true
  | _ => false

/-- The text of what was found under a path. -/
def text (found : Except ReadError ByteArray) : Except ReadError String :=
  match found with
  | .error error => .error error
  | .ok bytes =>
    match String.fromUTF8? bytes with
    | some source => .ok source
    | none => .error .invalidText

end ReadError

/-- Why no engine was made of a document. -/
inductive CompileError where
  /-- no tree can be made of it -/
  | syntaxErrors (errors : List SyntaxError)
  /-- its tree breaks rules -/
  | violations (found : List Violation)
  /-- there is no text -/
  | unreadable (error : ReadError)
deriving DecidableEq, Repr

namespace CompileError

/-- The stable name of a kind of failure. -/
def code : CompileError → String
  | .syntaxErrors _ => "SYNTAX_ERROR"
  | .violations _ => "VALIDATION_ERROR"
  | .unreadable _ => "IO_ERROR"

/-- The wording of a failure. -/
def message : CompileError → String
  | .syntaxErrors errors => "syntax errors:\n" ++ SyntaxError.report errors
  | .violations found => "schema validation failed:\n" ++ Violation.report found
  | .unreadable error => "failed to read document: " ++ error.message

end CompileError

/-- Why an event was not fired. -/
inductive EngineError where
  /-- the entity has no state -/
  | missingCapability
  /-- the state has no such event, or none that the host may fire -/
  | notAdmissible (event state : String)
  /-- a hook names a task that is not registered -/
  | taskNotFound (task hook : String)
  /-- a task failed -/
  | taskFailed (task hook cause : String)
  /-- the entity refused its new state -/
  | stateRefused (state cause : String)
deriving DecidableEq, Repr

namespace EngineError

/-- The stable name of a kind of failure. -/
def code : EngineError → String
  | .missingCapability => "MISSING_CAPABILITY"
  | .notAdmissible .. => "TRANSITION_NOT_ADMISSIBLE"
  | .taskNotFound .. => "TASK_NOT_FOUND"
  | .taskFailed .. => "TASK_FAILED"
  | .stateRefused .. => "SET_STATE_FAILED"

/-- The wording of a failure. -/
def message : EngineError → String
  | .missingCapability => "entity does not implement the stateful capability"
  | .notAdmissible event state => "cannot fire '" ++ event ++ "' from state '" ++ state ++ "'"
  | .taskNotFound task hook => "task not found: " ++ task ++ " (hook '" ++ hook ++ "')"
  | .taskFailed task hook cause =>
    "task '" ++ task ++ "' failed during '" ++ hook ++ "': " ++ cause
  | .stateRefused state cause => "failed to set entity state to '" ++ state ++ "': " ++ cause

/-- The wording of what lies behind a failure. -/
def cause? : EngineError → Option String
  | .taskFailed _ _ cause => some cause
  | .stateRefused _ cause => some cause
  | _ => none

/-- True of the failures of hooks, which an error state may answer. -/
def isHookFailure : EngineError → Bool
  | .taskNotFound .. => true
  | .taskFailed .. => true
  | _ => false

end EngineError

end StateMarkup
