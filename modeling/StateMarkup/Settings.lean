import StateMarkup.Engine
import StateMarkup.Toml.Reader

/-!
# Settings

Four switches, from a file in TOML and from the command line. In the file each may be missing, and
names that mean nothing here are passed over. A flag only ever turns its switch one way.
-/

namespace StateMarkup

/-- How the program behaves. -/
structure Settings where
  colored : Bool
  verbose : Bool
  engine : EngineOptions
deriving DecidableEq, Repr

/-- Why a settings file was not used. -/
inductive SettingsError where
  /-- it could not be read -/
  | unreadable (path : String) (error : ReadError)
  /-- it is no TOML, or a switch in it is no truth value -/
  | invalid (path : String)
deriving DecidableEq, Repr

namespace SettingsError

/-- The wording of a failure, without what lies behind it. -/
def message : SettingsError → String
  | .unreadable path _ => "Failed to read config from " ++ Text.quote path
  | .invalid path => "Invalid config in " ++ Text.quote path

/-- The wording of a failure with what lies behind it, as far as that is known. -/
def report (e : SettingsError) : String :=
  match e with
  | .unreadable _ error => e.message ++ ": " ++ error.message
  | .invalid _ => e.message

end SettingsError

/-- The flags that change settings. -/
structure SettingsFlags where
  strict : Bool
  noFallback : Bool
  verbose : Bool
  noColor : Bool
deriving DecidableEq, Repr

namespace Settings

/-- The settings without a file and flags. -/
def default : Settings := ⟨true, false, .default⟩

/-- The name of a settings file. -/
def fileName : String := ".fsmlrc"

/-- A switch of a document; none if it is there and no truth value. -/
def switch? (entries : Toml.Entries) (name : String) (otherwise : Bool) : Option Bool :=
  match entries.lookup name with
  | none => some otherwise
  | some (.boolean b) => some b
  | some _ => none

/-- The settings of a document. -/
def ofToml? (source : String) : Option Settings :=
  match Toml.read? source with
  | none => none
  | some entries =>
    match switch? entries "colored" default.colored, switch? entries "verbose" default.verbose,
        switch? entries "strict" default.engine.strict,
        switch? entries "fallback" default.engine.fallback with
    | some colored, some verbose, some strict, some fallback =>
      some ⟨colored, verbose, ⟨strict, fallback⟩⟩
    | _, _, _, _ => none

/-- The settings of what was found under a path. -/
def load (path : String) (found : Except ReadError ByteArray) : Except SettingsError Settings :=
  match ReadError.text found with
  | .error error => .error (.unreadable path error)
  | .ok source =>
    match ofToml? source with
    | some settings => .ok settings
    | none => .error (.invalid path)

/-- Where settings may stand: in the working directory, else in the home directory. -/
def places (home : Option String) : List String :=
  fileName ::
    (home.map fun dir => (if dir.endsWith "/" then dir else dir ++ "/") ++ fileName).toList

/-- The settings of the first place where there is something. -/
def loadFirst (read : String → Except ReadError ByteArray) :
    List String → Except SettingsError Settings
  | [] => .ok default
  | path :: rest =>
    match read path with
    | .error error => if error.isAbsence then loadFirst read rest else load path (.error error)
    | .ok bytes => load path (.ok bytes)

/-- The settings with flags applied. -/
def withFlags (s : Settings) (flags : SettingsFlags) : Settings :=
  ⟨s.colored && !flags.noColor, s.verbose || flags.verbose,
    ⟨s.engine.strict || flags.strict, s.engine.fallback && !flags.noFallback⟩⟩

end Settings

end StateMarkup
