import StateMarkup.Command.Arguments
import StateMarkup.Diagnostic.Render

/-!
# Help

What the program says of itself: on a page, what it or one of its subcommands does, how it is used,
and its parts in sections, with their descriptions in one column. `HelpTopic.page` is the page as
data and `HelpPage.render` its text, in which headings and the words to be typed may be painted.
-/

namespace StateMarkup

/-- A piece of a help text. -/
inductive HelpPiece where
  /-- a word to be typed as it stands -/
  | typed (text : String)
  /-- any other text -/
  | other (text : String)
deriving DecidableEq, Repr

/-- A part of the program, by how it is written and what it does. -/
structure HelpEntry where
  term : List HelpPiece
  about : String
deriving DecidableEq, Repr

/-- Parts of one kind under a title. -/
structure HelpSection where
  title : String
  entries : List HelpEntry
deriving DecidableEq, Repr

/-- All that is said on a topic. -/
structure HelpPage where
  about : String
  usage : List HelpPiece
  sections : List HelpSection
deriving DecidableEq, Repr

/-- A piece as it is shown. -/
def HelpPiece.render (brush : Brush) : HelpPiece → String
  | .typed text => brush.paint .strong text
  | .other text => text

/-- Pieces as they are shown. -/
def renderPieces (brush : Brush) (pieces : List HelpPiece) : String :=
  String.join (pieces.map (·.render brush))

/-- A heading, bold and underlined. -/
def helpHeading (brush : Brush) (text : String) : String :=
  if brush.on then Style.strong.start ++ "\x1b[4m" ++ text ++ Style.reset else text

namespace HelpEntry

/-- How many characters the term has. -/
def width (e : HelpEntry) : Nat := (renderPieces ⟨false⟩ e.term).length

/-- An entry whose description begins in some column. -/
def render (brush : Brush) (column : Nat) (e : HelpEntry) : String :=
  line ("  " ++ renderPieces brush e.term ++ padRight (column - e.width) "" ++ e.about)

/-- A subcommand. -/
def subcommand (name about : String) : HelpEntry := ⟨[.typed name], about⟩

/-- Operands, of which nothing is said. -/
def operand (name : String) : HelpEntry := ⟨[.other name], ""⟩

/-- An option with a long name only. -/
def long (name about : String) : HelpEntry := ⟨[.other "    ", .typed ("--" ++ name)], about⟩

/-- An option with a letter and a long name. -/
def short (letter name about : String) : HelpEntry :=
  ⟨[.typed ("-" ++ letter), .other ", ", .typed ("--" ++ name)], about⟩

end HelpEntry

/-- A section, with all descriptions two columns behind the longest term. -/
def HelpSection.render (brush : Brush) (s : HelpSection) : String :=
  let column := (s.entries.map (·.width)).foldl max 0 + 2
  line "" ++ line (helpHeading brush (s.title ++ ":")) ++
    String.join (s.entries.map (·.render brush column))

/-- The text of a page. -/
def HelpPage.render (brush : Brush) (page : HelpPage) : String :=
  line page.about ++ line "" ++
    line (helpHeading brush "Usage:" ++ " " ++ renderPieces brush page.usage) ++
    String.join (page.sections.map (·.render brush))

namespace Subcommand

/-- What a subcommand does. -/
def about : Subcommand → String
  | .check => "Compile a document and report any errors"
  | .inspect => "Print states, transitions and hooks"
  | .simulate => "Fire events against an entity that starts in STATE"

/-- How a subcommand is used, behind its name. -/
def usage : Subcommand → List HelpPiece
  | .check => [.other " [OPTIONS] <FILE>"]
  | .inspect => [.other " [OPTIONS] <FILE>"]
  | .simulate =>
    [.other " [OPTIONS] ", .typed "--state", .other " <STATE> <FILE> <EVENTS>..."]

/-- The operands of a subcommand. -/
def operands : Subcommand → List HelpEntry
  | .check => [.operand "<FILE>"]
  | .inspect => [.operand "<FILE>"]
  | .simulate => [.operand "<FILE>", .operand "<EVENTS>..."]

/-- The options that a subcommand alone has. -/
def ownOptions : Subcommand → List HelpEntry
  | .check => []
  | .inspect => [.long "json" "Print the compiled tables as JSON"]
  | .simulate => [⟨[.other "    ", .typed "--state", .other " <STATE>"], ""⟩]

end Subcommand

namespace HelpTopic

/-- The flags that may stand anywhere. -/
def flags : List HelpEntry :=
  [.long "strict" "Reject mismatched closing tags and undeclared target states",
    .long "no-fallback" "Do not fall back to an event's errorState when its hooks fail",
    .short "v" "verbose" "Log every hook and task",
    .long "no-color" "",
    .short "h" "help" "Print help"]

/-- What asking for help does. -/
def aboutHelp : String := "Print this message or the help of the given subcommand(s)"

/-- What is said on a topic. -/
def page : HelpTopic → HelpPage
  | .program =>
    ⟨"Compile, inspect and simulate FSML state machines",
      [.typed "fsml", .other " [OPTIONS] <COMMAND>"],
      [⟨"Commands", [Subcommand.check, .inspect, .simulate].map
          (fun sub => .subcommand sub.name sub.about) ++ [.subcommand "help" aboutHelp]⟩,
        ⟨"Options", flags ++ [.short "V" "version" "Print version"]⟩]⟩
  | .subcommand sub =>
    ⟨sub.about, .typed ("fsml " ++ sub.name) :: sub.usage,
      [⟨"Arguments", sub.operands⟩, ⟨"Options", sub.ownOptions ++ flags⟩]⟩
  | .help =>
    ⟨aboutHelp, [.typed "fsml help", .other " [COMMAND]..."],
      [⟨"Arguments", [⟨[.other "[COMMAND]..."], "Print help for the subcommand(s)"⟩]⟩]⟩

end HelpTopic

end StateMarkup
