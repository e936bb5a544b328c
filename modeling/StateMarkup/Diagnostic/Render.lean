import StateMarkup.Diagnostic
import StateMarkup.Diagnostic.Excerpt
import StateMarkup.Paint

/-!
# Diagnostics on a terminal

The message, the file with the position in it, the excerpt and the advice, each part set off from
the one before it by an empty line.
-/

namespace StateMarkup

/-- A text behind as many spaces as it needs to be of the width. -/
def padLeft (width : Nat) (text : String) : String :=
  String.ofList (List.replicate (width - text.length) ' ') ++ text

/-- A text before as many spaces as it needs to be of the width. -/
def padRight (width : Nat) (text : String) : String :=
  text ++ String.ofList (List.replicate (width - text.length) ' ')

/-- A line of output. -/
def line (text : String) : String := text ++ "\n"

/-- A row of an excerpt as a line. -/
def ExcerptRow.render (brush : Brush) (width : Nat) : ExcerptRow → String
  | .context number text =>
    line (brush.paint .faint (padLeft width (toString number)) ++ " " ++
      brush.paint (.bright .blue) "|" ++ " " ++ text)
  | .marked number text =>
    line (brush.paint (.bright .blue) (padLeft width (toString number)) ++ " " ++
      brush.paint (.bright .blue) "|" ++ " " ++ text)
  | .carets margin count =>
    line (padLeft width "" ++ " " ++ brush.paint (.bright .blue) "|" ++ " " ++
      String.ofList (List.replicate margin ' ') ++
      brush.paint (.bright .red) (String.ofList (List.replicate count '^')))

/-- An excerpt, below an empty line. -/
def Excerpt.render (brush : Brush) (excerpt : Excerpt) : String :=
  String.join (excerpt.rows.map (·.render brush excerpt.width))

/-- Advice, below an empty line. -/
def Hint.render (brush : Brush) : Hint → String
  | .suggestion text =>
    line "" ++ line (brush.paint (.bright .green) "suggestion:" ++ " " ++ text)
  | .help text => line "" ++ line (brush.paint (.bright .cyan) "help:" ++ " " ++ text)

namespace Diagnostic

/-- The line that says where a diagnostic belongs. -/
def renderPlace (brush : Brush) (d : Diagnostic) : String :=
  match d.file with
  | none => ""
  | some file =>
    let place := match d.span with
      | some span => file ++ ":" ++ toString span.line ++ ":" ++ toString span.col
      | none => file
    line ("  " ++ brush.paint (.bright .blue) "-->" ++ " " ++ place)

/-- The excerpt of a diagnostic that has a span and a source. -/
def renderExcerpt (brush : Brush) (d : Diagnostic) : String :=
  match d.source, d.span with
  | some source, some span =>
    line "" ++
      match Excerpt.ofSource? source span with
      | some excerpt => excerpt.render brush
      | none => ""
  | _, _ => ""

/-- A diagnostic as lines of output. -/
def render (brush : Brush) (d : Diagnostic) : String :=
  line (brush.paint (.bright .red) "error:" ++ " " ++ brush.paint .strong d.message) ++
    d.renderPlace brush ++ d.renderExcerpt brush ++
    match d.hint with
    | some hint => hint.render brush
    | none => ""

end Diagnostic

end StateMarkup
