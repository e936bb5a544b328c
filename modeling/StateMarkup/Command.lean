import StateMarkup.Command.Help
import StateMarkup.Command.Log
import StateMarkup.Engine.Artifacts
import StateMarkup.Simulation

/-!
# The command

`Command.respond` is the whole program but for the outside world: from the arguments and what
surrounds it, it makes a `Report` of all that is written to the two outputs, in order, and of the
exit code. Exit code 2 means wrong arguments and 1 any other failure.
-/

namespace StateMarkup

/-- Something that is written. -/
inductive Emission where
  /-- text on the standard output -/
  | out (text : String)
  /-- text on the standard error output -/
  | err (text : String)
  /-- a log line on the standard error output -/
  | log (level : Level) (text : String)
deriving DecidableEq, Repr

/-- All that the program does. -/
structure Report where
  exit : Nat
  emissions : List Emission
  /-- why the settings file was passed over, if it was -/
  settingsError : Option SettingsError
deriving DecidableEq, Repr

namespace Report

/-- What is written to the standard output. -/
def stdout (r : Report) : String :=
  String.join (r.emissions.map fun
    | .out text => text
    | _ => "")

/-- What is written to the standard error output, if every log line has the given time. -/
def stderr (time : String) (r : Report) : String :=
  String.join (r.emissions.map fun
    | .out _ => ""
    | .err text => text
    | .log level text => logLine time level text)

end Report

/-- What surrounds the program. -/
structure Surroundings where
  /-- what is found under a path -/
  read : String → Except ReadError ByteArray
  /-- the path of the home directory, if there is one -/
  home : Option String
  /-- whether the terminal takes colours -/
  color : Bool
  /-- the log filter from outside -/
  logFilter : Option String

/-- How the program writes. -/
structure Manner where
  settings : Settings
  brush : Brush
  filter : LogFilter

/-- What a command does: what it writes and whether it fails. -/
structure Doing where
  emissions : List Emission
  failed : Bool

namespace Manner

/-- The log lines of notices. -/
def logged (m : Manner) (notices : List Notice) : List Emission :=
  (notices.filter m.filter.shows).map fun n => .log n.level n.message

/-- A line on the standard output. -/
def sayLine (text : String) : Emission := .out (line text)

/-- The diagnostics of a document that was not compiled, and a last line about the whole. -/
def reportFailure (m : Manner) (file source : String) (error : CompileError) : List Emission :=
  (Diagnostic.ofCompileError file source error).map
      (fun d => .err (d.render m.brush ++ line "")) ++
    [.err (line (m.brush.paint (.bright .red) "✗" ++ " " ++
      m.brush.paint .faint (error.code ++ " (" ++ file ++ ")")))]

/-- Says that a document could not be read. -/
def reportUnreadable (file : String) (error : ReadError) : List Emission :=
  [.err (line ("Error: Failed to read document from " ++ Text.quote file) ++ line "" ++
    line "Caused by:" ++ line ("    " ++ error.message))]

/-- Compiles a document and goes on with its engine. -/
def withEngine (m : Manner) (file : String) (found : Except ReadError ByteArray)
    (next : Engine → Doing) : Doing :=
  match ReadError.text found with
  | .error error => ⟨reportUnreadable file error, true⟩
  | .ok source =>
    let compilation := Engine.compile m.settings.engine source
    let logged := m.logged compilation.log
    match compilation.result with
    | .error error => ⟨logged ++ m.reportFailure file source error, true⟩
    | .ok engine =>
      let rest := next engine
      ⟨logged ++ rest.emissions, rest.failed⟩

/-- Says that a document has no fault. -/
def check (m : Manner) (file : String) (engine : Engine) : Doing :=
  let counts := toString engine.states.size ++ " states, " ++ toString engine.transitions.size ++
    " transitions, " ++ toString engine.hooks.size ++ " hooks"
  ⟨[sayLine (m.brush.paint (.bright .green) "✓" ++ " " ++ m.brush.paint .strong file ++ " " ++
    m.brush.paint .faint counts)], false⟩

/-- A transition as a line. -/
def transitionLine (m : Manner) (t : Transition) : String :=
  let arrow := t.source ++ " --" ++ t.event ++ "--> " ++ t.target
  match t.kind, t.errorState with
  | .fallback, _ =>
    "  " ++ m.brush.paint (.plain .yellow) arrow ++ " " ++ m.brush.paint .faint "(fallback)"
  | .regular, some state =>
    "  " ++ arrow ++ " " ++ m.brush.paint .faint ("(on failure: " ++ state ++ ")")
  | .regular, none => "  " ++ arrow

/-- The line above a part of the output. -/
def heading (m : Manner) (text : String) : Emission :=
  sayLine (m.brush.paint (.bright .cyan) text)

/-- Prints the states, transitions and hooks of an engine. -/
def inspect (m : Manner) (engine : Engine) : Doing :=
  let states := engine.schema.states.map fun s =>
    sayLine ("  " ++ m.brush.paint (.plain .green) "o" ++ " " ++ s.name)
  let transitions := engine.transitions.toList.map fun t => sayLine (m.transitionLine t)
  let hooks := if engine.hooks.isEmpty then [sayLine ("  " ++ m.brush.paint .faint "none")]
    else engine.hooks.toList.map fun (key, tasks) =>
      sayLine ("  " ++ m.brush.paint .strong (padRight 24 key) ++ " " ++ ", ".intercalate tasks)
  ⟨m.heading "States:" :: states ++ sayLine "" :: m.heading "Transitions:" :: transitions ++
    sayLine "" :: m.heading "Hooks:" :: hooks, false⟩

/-- Prints what an engine was compiled to. -/
def inspectJson (engine : Engine) : Doing := ⟨[sayLine (engine.toJson.pretty 0)], false⟩

/-- What is said of one event of a simulation. -/
def simulatedEvent (m : Manner) (engine : Engine) (e : SimulatedEvent) : List Emission :=
  m.logged e.log ++
    match e.result with
    | .ok outcome =>
      let arrow := outcome.source ++ " -> " ++ outcome.target
      let said := if outcome.fellBack then
          m.brush.paint (.plain .yellow) arrow ++ " " ++ m.brush.paint .faint "(fallback)"
        else m.brush.paint (.plain .green) arrow
      sayLine (m.brush.paint .strong e.event ++ " " ++ said) ::
        if e.tasks.isEmpty then []
        else [sayLine ("  " ++ m.brush.paint .faint "tasks:" ++ " " ++ ", ".intercalate e.tasks)]
    | .error error => [.err ((Diagnostic.ofEngineError engine error).render m.brush)]

/-- Simulates events. -/
def simulate (m : Manner) (state : String) (events : List String) (engine : Engine) : Doing :=
  match Simulation.run engine state events with
  | .error error => ⟨[.err (line ("Error: " ++ error.message))], true⟩
  | .ok simulation =>
    ⟨simulation.events.flatMap (m.simulatedEvent engine) ++
      [sayLine "", sayLine (m.brush.paint (.bright .cyan) "Final state:" ++ " " ++
        m.brush.paint .strong simulation.state)], simulation.failed⟩

/-- Does what a command asks for. -/
def run (m : Manner) (read : String → Except ReadError ByteArray) (command : Command) : Doing :=
  m.withEngine command.file (read command.file) fun engine =>
    match command with
    | .check file => m.check file engine
    | .inspect _ true => inspectJson engine
    | .inspect _ false => m.inspect engine
    | .simulate _ state events => m.simulate state events engine

end Manner

namespace Command

/-- The name and version of the program. -/
def version : String := "fsml 0.0.1"

/-- The line about a settings file with faults. -/
def reportSettings (color : Bool) : Except SettingsError Settings → List Emission
  | .ok _ => []
  | .error error =>
    [.err (line ((Brush.mk color).paint (.bright .yellow) "⚠" ++ " Failed to load config: " ++
      error.report))]

/-- Does what an invocation asks for. A settings file with faults is passed over. -/
def invoke (around : Surroundings) (invocation : Invocation) : Report :=
  let loaded := Settings.loadFirst around.read (Settings.places around.home)
  let settings := (loaded.toOption.getD .default).withFlags invocation.flags
  let manner : Manner :=
    ⟨settings, ⟨around.color && settings.colored⟩,
      .choose around.logFilter settings.verbose⟩
  let doing := manner.run around.read invocation.command
  ⟨if doing.failed then 1 else 0, reportSettings around.color loaded ++ doing.emissions,
    match loaded with
    | .ok _ => none
    | .error error => some error⟩

/-- The program: from its arguments and what surrounds it to all that it does. -/
def respond (around : Surroundings) (arguments : List String) : Report :=
  match Invocation.ofArguments arguments with
  | .ok invocation => invoke around invocation
  | .error .usage => ⟨2, [.err (HelpTopic.program.page.render ⟨around.color⟩)], none⟩
  | .error (.help topic) => ⟨0, [.out (topic.page.render ⟨around.color⟩)], none⟩
  | .error .version => ⟨0, [.out (line version)], none⟩

end Command

end StateMarkup
