/-!
# Coloured text

Terminals are told by escape sequences how to show text. A `Style` is what they are told, and
`Brush.paint` puts a text between the sequence that turns the style on and the one that turns all
styles off; if the text itself turns all off, the style is turned on again behind that. A brush that
is off paints nothing.
-/

namespace StateMarkup

/-- The colours in use. -/
inductive Colour where
  | red
  | green
  | yellow
  | blue
  | cyan
deriving DecidableEq, Repr

/-- How a text is shown. -/
structure Style where
  bold : Bool
  dimmed : Bool
  colour : Option Colour
deriving DecidableEq, Repr

/-- The number of a colour in an escape sequence. -/
def Colour.code : Colour → String
  | .red => "31"
  | .green => "32"
  | .yellow => "33"
  | .blue => "34"
  | .cyan => "36"

namespace Style

/-- Bold, in the terminal's own colour. -/
def strong : Style := ⟨true, false, none⟩

/-- Less visible. -/
def faint : Style := ⟨false, true, none⟩

/-- In a colour. -/
def plain (c : Colour) : Style := ⟨false, false, some c⟩

/-- Bold, in a colour. -/
def bright (c : Colour) : Style := ⟨true, false, some c⟩

/-- The sequence that turns a style on. -/
def start (s : Style) : String :=
  let codes := (if s.bold then ["1"] else []) ++ (if s.dimmed then ["2"] else []) ++
    (match s.colour with
      | some c => [c.code]
      | none => [])
  "\x1b[" ++ ";".intercalate codes ++ "m"

/-- The sequence that turns all styles off. -/
def reset : String := "\x1b[0m"

/-- Puts a text behind each `reset` in a list of characters. -/
def resume (again : List Char) : List Char → List Char
  | '\x1b' :: '[' :: '0' :: 'm' :: rest => reset.toList ++ again ++ resume again rest
  | c :: rest => c :: resume again rest
  | [] => []

end Style

/-- Whether text is painted at all. -/
structure Brush where
  on : Bool
deriving DecidableEq, Repr

/-- Whether a program paints, by what its user has said in the environment for all programs: to
paint in any case, not to paint, or whether to paint on a terminal. "0" says no, and whatever else
yes; but not to paint is said by any text at all. -/
def Brush.isWanted (forced refused wished : Option String) (terminal : Bool) : Bool :=
  if forced.any (· ≠ "0") then true
  else if refused.isSome then false
  else wished.all (· ≠ "0") && terminal

/-- A text in a style. -/
def Brush.paint (brush : Brush) (style : Style) (text : String) : String :=
  if brush.on then
    style.start ++ String.ofList (Style.resume style.start.toList text.toList) ++ Style.reset
  else text

/-- A brush that is off leaves text as it is. -/
@[simp] theorem Brush.paint_off (style : Style) (text : String) :
    (Brush.mk false).paint style text = text := rfl

end StateMarkup
