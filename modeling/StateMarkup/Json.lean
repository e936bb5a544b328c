/-!
# JSON

The values that a compiled document is written with, and their layout over several lines: two spaces
for each level, an empty list or object on one line.
-/

namespace StateMarkup

/-- A JSON value; there are no numbers here. -/
inductive Json where
  | null
  | string (text : String)
  | list (items : List Json)
  | object (fields : List (String × Json))
deriving Repr

namespace Json

/-- A digit of a hexadecimal number. -/
def hexDigit (n : Nat) : Char := if n < 10 then Char.ofNat (48 + n) else Char.ofNat (87 + n)

/-- How a character is written in a string. -/
def escapeChar (c : Char) : String :=
  if c = '"' then "\\\""
  else if c = '\\' then "\\\\"
  else if c = '\x08' then "\\b"
  else if c = '\x0c' then "\\f"
  else if c = '\n' then "\\n"
  else if c = '\r' then "\\r"
  else if c = '\t' then "\\t"
  else if c < ' ' then
    "\\u00" ++ String.ofList [hexDigit (c.toNat / 16), hexDigit (c.toNat % 16)]
  else c.toString

/-- A string between quotes. -/
def quote (text : String) : String := "\"" ++ String.join (text.toList.map escapeChar) ++ "\""

/-- The start of a line. -/
def indent (level : Nat) : String := String.ofList (List.replicate (2 * level) ' ')

/-- Items on lines of their own between two brackets. -/
def block (level : Nat) (opening closing : String) (items : List String) : String :=
  if items.isEmpty then opening ++ closing
  else
    opening ++ "\n" ++ ",\n".intercalate (items.map (indent (level + 1) ++ ·)) ++ "\n" ++
      indent level ++ closing

mutual

/-- A value whose first line is already indented. -/
def pretty (level : Nat) : Json → String
  | .null => "null"
  | .string text => quote text
  | .list items => block level "[" "]" (prettyItems (level + 1) items)
  | .object fields => block level "\x7b" "\x7d" (prettyFields (level + 1) fields)

/-- The values of a list. -/
def prettyItems (level : Nat) : List Json → List String
  | [] => []
  | item :: rest => pretty level item :: prettyItems level rest

/-- The names and values of an object. -/
def prettyFields (level : Nat) : List (String × Json) → List String
  | [] => []
  | (name, value) :: rest => (quote name ++ ": " ++ pretty level value) :: prettyFields level rest

end

/-- A list of strings. -/
def strings (items : List String) : Json := .list (items.map .string)

/-- A string or nothing. -/
def ofOption : Option String → Json
  | some text => .string text
  | none => .null

end Json

end StateMarkup
