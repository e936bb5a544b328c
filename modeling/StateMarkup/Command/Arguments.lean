import StateMarkup.Settings

/-!
# The arguments of the command

`fsml` has three subcommands. Four flags may stand before the subcommand or behind its name, each at
most once in either place; what else may stand behind the name depends on the subcommand. Behind
`--` everything is an operand. Arguments are read from left to right, and the first that is wrong or
asks for help or the version ends it.
-/

namespace StateMarkup

/-- What the program is asked to do. -/
inductive Command where
  /-- compile a document and report any errors -/
  | check (file : String)
  /-- print what a document is compiled to -/
  | inspect (file : String) (json : Bool)
  /-- fire events against an entity -/
  | simulate (file state : String) (events : List String)
deriving DecidableEq, Repr

/-- The document of a command. -/
def Command.file : Command → String
  | .check file => file
  | .inspect file _ => file
  | .simulate file _ _ => file

/-- A command and the flags that go with it. -/
structure Invocation where
  command : Command
  flags : SettingsFlags
deriving DecidableEq, Repr

/-- The subcommands. -/
inductive Subcommand where
  | check
  | inspect
  | simulate
deriving DecidableEq, Repr

/-- What a question for help is about. -/
inductive HelpTopic where
  /-- the program as a whole -/
  | program
  | subcommand (sub : Subcommand)
  /-- asking for help -/
  | help
deriving DecidableEq, Repr

/-- Why arguments are no invocation. -/
inductive Refusal where
  /-- something is wrong with them -/
  | usage
  /-- they ask for help -/
  | help (topic : HelpTopic)
  /-- they ask for the version -/
  | version
deriving DecidableEq, Repr

/-- The name of a subcommand. -/
def Subcommand.name : Subcommand → String
  | .check => "check"
  | .inspect => "inspect"
  | .simulate => "simulate"

/-- The subcommand of a name. -/
def Subcommand.ofName? : String → Option Subcommand
  | "check" => some .check
  | "inspect" => some .inspect
  | "simulate" => some .simulate
  | _ => none

/-- A subcommand is found under its name. -/
@[simp] theorem Subcommand.ofName?_name (sub : Subcommand) : ofName? sub.name = some sub := by
  cases sub <;> rfl

namespace Arguments

/-- No flag is set. -/
def noFlags : SettingsFlags := ⟨false, false, false, false⟩

/-- The flags set in either of two places. -/
def anyFlags (a b : SettingsFlags) : SettingsFlags :=
  ⟨a.strict || b.strict, a.noFallback || b.noFallback, a.verbose || b.verbose,
    a.noColor || b.noColor⟩

/-- Sets a flag by its long name. A flag that is set already, or that is none, is wrong; the one for
help asks about the topic. -/
def setFlag (topic : HelpTopic) (flags : SettingsFlags) (name : String) :
    Except Refusal SettingsFlags :=
  match name with
  | "strict" => if flags.strict then .error .usage else .ok { flags with strict := true }
  | "no-fallback" =>
    if flags.noFallback then .error .usage else .ok { flags with noFallback := true }
  | "verbose" => if flags.verbose then .error .usage else .ok { flags with verbose := true }
  | "no-color" => if flags.noColor then .error .usage else .ok { flags with noColor := true }
  | "help" => .error (.help topic)
  | _ => .error .usage

/-- Sets the flags of a run of letters behind one hyphen. Only the program as a whole has a
version. -/
def setLetters (topic : HelpTopic) (flags : SettingsFlags) :
    List Char → Except Refusal SettingsFlags
  | [] => .ok flags
  | 'v' :: rest =>
    match setFlag topic flags "verbose" with
    | .ok flags => setLetters topic flags rest
    | .error refusal => .error refusal
  | 'h' :: _ => .error (.help topic)
  | 'V' :: _ => .error (if topic = .program then .version else .usage)
  | _ :: _ => .error .usage

/-- One argument by its form. -/
inductive Form where
  /-- everything behind it is an operand -/
  | escape
  /-- a name behind two hyphens, perhaps with a value behind an equals sign -/
  | long (name : String) (value : Option String)
  /-- letters behind one hyphen -/
  | letters (cs : List Char)
  | operand
deriving DecidableEq, Repr

/-- The form of an argument. A hyphen alone is an operand. -/
def Form.of (argument : String) : Form :=
  match argument.toList with
  | ['-', '-'] => .escape
  | '-' :: '-' :: rest =>
    let name := String.ofList (rest.takeWhile (· != '='))
    match rest.dropWhile (· != '=') with
    | _ :: value => .long name (some (String.ofList value))
    | [] => .long name none
  | '-' :: c :: rest => .letters (c :: rest)
  | _ => .operand

/-- What has been read behind the name of a subcommand. -/
structure Collected where
  flags : SettingsFlags
  json : Bool
  state : Option String
  /-- the newest first -/
  operands : List String
deriving DecidableEq, Repr

namespace Collected

/-- Adds an operand. The first is the document, which has a name; only a simulation takes more. -/
def operand (c : Collected) (sub : Subcommand) (text : String) : Except Refusal Collected :=
  if c.operands.isEmpty then
    if text.isEmpty then .error .usage else .ok { c with operands := [text] }
  else if sub = .simulate then .ok { c with operands := text :: c.operands }
  else .error .usage

/-- Adds several operands. -/
def operandAll (c : Collected) (sub : Subcommand) : List String → Except Refusal Collected
  | [] => .ok c
  | text :: rest =>
    match c.operand sub text with
    | .ok c => c.operandAll sub rest
    | .error refusal => .error refusal

/-- Sets the state of a simulation, once. -/
def setState (c : Collected) (state : String) : Except Refusal Collected :=
  if c.state.isSome then .error .usage else .ok { c with state := some state }

/-- Reads the arguments behind the name of a subcommand. -/
def read (c : Collected) (sub : Subcommand) : List String → Except Refusal Collected
  | [] => .ok c
  | argument :: rest =>
    match Form.of argument with
    | .escape => c.operandAll sub rest
    | .operand =>
      match c.operand sub argument with
      | .ok c => c.read sub rest
      | .error refusal => .error refusal
    | .letters cs =>
      match setLetters (.subcommand sub) c.flags cs with
      | .ok flags => { c with flags := flags }.read sub rest
      | .error refusal => .error refusal
    | .long name value =>
      if name = "state" && sub = .simulate then
        match value, rest with
        | some state, rest =>
          match c.setState state with
          | .ok c => c.read sub rest
          | .error refusal => .error refusal
        | none, state :: rest =>
          match Form.of state, c.setState state with
          | .operand, .ok c => c.read sub rest
          | _, _ => .error .usage
        | none, [] => .error .usage
      else if value.isSome then .error .usage
      else if name = "json" && sub = .inspect then
        if c.json then .error .usage else { c with json := true }.read sub rest
      else match setFlag (.subcommand sub) c.flags name with
        | .ok flags => { c with flags := flags }.read sub rest
        | .error refusal => .error refusal

/-- The command of what has been read, if nothing is missing. -/
def command (c : Collected) (sub : Subcommand) : Except Refusal Command :=
  match sub, c.operands.reverse, c.state with
  | .check, [file], _ => .ok (.check file)
  | .inspect, [file], _ => .ok (.inspect file c.json)
  | .simulate, file :: event :: events, some state => .ok (.simulate file state (event :: events))
  | _, _, _ => .error .usage

end Collected

/-- Reads the arguments behind the name of a subcommand, with the flags before it. -/
def readSubcommand (before : SettingsFlags) (sub : Subcommand) (arguments : List String) :
    Except Refusal Invocation :=
  match Collected.read ⟨noFlags, false, none, []⟩ sub arguments with
  | .error refusal => .error refusal
  | .ok c =>
    match c.command sub with
    | .ok command => .ok ⟨command, anyFlags before c.flags⟩
    | .error refusal => .error refusal

/-- Reads what stands behind a question for help: at most the name of a subcommand. -/
def readHelp : List String → Refusal
  | [] => .help .program
  | ["help"] => .help .help
  | [name] =>
    match Subcommand.ofName? name with
    | some sub => .help (.subcommand sub)
    | none => .usage
  | _ => .usage

/-- Reads all arguments, with some flags set already. -/
def read (flags : SettingsFlags) : List String → Except Refusal Invocation
  | [] => .error .usage
  | argument :: rest =>
    match Form.of argument with
    | .escape => .error .usage
    | .operand =>
      match Subcommand.ofName? argument with
      | some sub => readSubcommand flags sub rest
      | none =>
        if argument = "help" then .error (readHelp rest) else .error .usage
    | .letters cs =>
      match setLetters .program flags cs with
      | .ok flags => read flags rest
      | .error refusal => .error refusal
    | .long name value =>
      if value.isSome then .error .usage
      else if name = "version" then .error .version
      else match setFlag .program flags name with
        | .ok flags => read flags rest
        | .error refusal => .error refusal

end Arguments

/-- The invocation of the arguments of the command. -/
def Invocation.ofArguments (arguments : List String) : Except Refusal Invocation :=
  Arguments.read Arguments.noFlags arguments

end StateMarkup
