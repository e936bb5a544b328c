import StateMarkup.Diagnostic.Hint
import StateMarkup.Engine

/-!
# Diagnostics

A failure as it is shown to a reader: a message, where it belongs, the text to show a part of, and
advice. Every syntax error and every violation is a diagnostic of its own.
-/

namespace StateMarkup

/-- One failure for a reader. -/
structure Diagnostic where
  message : String
  span : Option Span
  file : Option String
  /-- the document that the span is in -/
  source : Option String
  hint : Option Hint
deriving DecidableEq, Repr

namespace Diagnostic

/-- The advice that goes with every syntax error. -/
def syntaxHelp : Hint :=
  .help "Every element needs a matching </name> and attributes look like name=\"value\""

/-- The diagnostic of a syntax error. -/
def ofSyntaxError (file source : String) (error : SyntaxError) : Diagnostic :=
  ⟨"Syntax error: " ++ error.message, error.span?, some file, some source, some syntaxHelp⟩

/-- The diagnostic of a message about a broken rule. -/
def ofViolationMessage (file message : String) : Diagnostic :=
  ⟨message, none, some file, none, Hint.ofMessage? message⟩

/-- The diagnostics of a document that was not compiled. -/
def ofCompileError (file source : String) : CompileError → List Diagnostic
  | .syntaxErrors errors => errors.map (ofSyntaxError file source)
  | .violations found => found.map fun v => ofViolationMessage file v.message
  | .unreadable error =>
    [⟨"Failed to read " ++ file ++ ": " ++ error.message, none, none, none, none⟩]

/-- What can be done about an event that was not fired. -/
def engineHint? (engine : Engine) : EngineError → Option Hint
  | .notAdmissible _ state =>
    match engine.transitions.eventsFrom state with
    | [] => some (.help ("State '" ++ state ++ "' has no outgoing events"))
    | events =>
      some (.help ("Events available from '" ++ state ++ "': " ++ ", ".intercalate events))
  | .taskNotFound task _ =>
    some (.suggestion ("Register a task named '" ++ task ++ "' before triggering"))
  | _ => none

/-- The diagnostic of an event that was not fired. -/
def ofEngineError (engine : Engine) (error : EngineError) : Diagnostic :=
  ⟨error.message, none, none, none, engineHint? engine error⟩

end Diagnostic

end StateMarkup
