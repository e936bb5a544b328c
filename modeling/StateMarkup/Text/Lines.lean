/-!
# The lines of a text

A line ends before a line feed, and before the carriage return in front of it if there is one. What
stands behind the last line feed is a line if it is not empty.
-/

namespace StateMarkup.Text

/-- The lines of a text with the ends that line feeds give them; the characters of the line that is
being read come with the newest first. -/
def splitLines (line : List Char) : List Char → List (List Char)
  | [] => if line.isEmpty then [] else [line.reverse]
  | c :: rest =>
    if c = '\n' then
      (match line with
        | '\r' :: line => line.reverse
        | line => line.reverse) :: splitLines [] rest
    else splitLines (c :: line) rest

/-- The lines of a text. -/
def lines (text : String) : List String := (splitLines [] text.toList).map String.ofList

end StateMarkup.Text
