import StateMarkup.Toml.Quoted
import StateMarkup.Toml.Scalar

/-!
# Reading TOML

A document is a sequence of lines: empty ones, comments, headers, and keys with values. Arrays and
tables between braces nest up to `maxNesting`; on the way down the room that is left is the measure
of the recursion. `Toml.read?` gives the entries of a document, or nothing if there is any fault.
-/

namespace StateMarkup.Toml

/-- How deep arrays and tables between braces may nest. -/
def maxNesting : Nat := 79

/-- How many parts a dotted key may have. -/
def maxKeyParts : Nat := 79

/-- The text behind space and tabs. -/
def skipSpace (cs : List Char) : List Char := cs.dropWhile isSpace

/-- The text behind a comment, if one begins here. -/
def skipComment (cs : List Char) : List Char :=
  match cs with
  | '#' :: rest => rest.dropWhile isTextChar
  | _ => cs

/-- The text behind the end of the line: space and a comment may stand before it. -/
def endLine? (cs : List Char) : Option (List Char) :=
  match skipComment (skipSpace cs) with
  | [] => some []
  | cs => dropLineEnd? cs

/-- The text behind space, comments and line ends, in a bounded number of steps; a comment ends with
its line. -/
def skipFiller? : Nat → List Char → Option (List Char)
  | 0, cs => some cs
  | steps + 1, cs =>
    let cs := skipSpace cs
    match dropLineEnd? (skipComment cs), cs with
    | some rest, _ => skipFiller? steps rest
    | none, '#' :: _ => none
    | none, _ => some cs

/-- The text behind space, comments and line ends. -/
def skipAllFiller? (cs : List Char) : Option (List Char) := skipFiller? (cs.length + 1) cs

/-! ## Keys -/

/-- A character of a key without quotes. -/
def isKeyChar (c : Char) : Bool := c.isAlphanum || c == '_' || c == '-'

/-- One part of a key. -/
def keyPart? (cs : List Char) : Read :=
  match cs.takeWhile isKeyChar with
  | [] => readQuoted? cs
  | part => some (String.ofList part, cs.dropWhile isKeyChar)

/-- The parts of a key with dots between them, in a bounded number of steps, and the text behind
it. -/
def keyParts? : Nat → List Char → Option (List String × List Char)
  | 0, _ => none
  | steps + 1, cs =>
    match keyPart? (skipSpace cs) with
    | none => none
    | some (part, rest) =>
      match skipSpace rest with
      | '.' :: rest =>
        match keyParts? steps rest with
        | some (parts, rest) => some (part :: parts, rest)
        | none => none
      | rest => some ([part], rest)

/-- A key. -/
structure Key where
  /-- the parts before the last -/
  path : List String
  /-- the last part -/
  name : String
deriving DecidableEq, Repr

/-- The key of its parts. -/
def Key.ofParts? : List String → Option Key
  | [] => none
  | [name] => some ⟨[], name⟩
  | part :: rest => (ofParts? rest).map fun key => ⟨part :: key.path, key.name⟩

/-- A key, and the text behind it. -/
def readKey? (cs : List Char) : Option (Key × List Char) :=
  match keyParts? maxKeyParts cs with
  | some (parts, rest) => (Key.ofParts? parts).map fun key => (key, rest)
  | none => none

/-! ## Values -/

/-- How a value is read. -/
abbrev ValueReader := List Char → Option (Value × List Char)

/-- A key, an equals sign and a value. -/
def readPair? (value? : ValueReader) (cs : List Char) : Option ((Key × Value) × List Char) :=
  match readKey? cs with
  | some (key, '=' :: rest) =>
    match value? (skipSpace rest) with
    | some (value, rest) => some ((key, value), rest)
    | none => none
  | _ => none

/-- The items of an array up to its closing bracket, in a bounded number of steps. -/
def readItems? (value? : ValueReader) : Nat → List Char → Option (List Value × List Char)
  | 0, _ => none
  | steps + 1, cs =>
    match skipAllFiller? cs with
    | none => none
    | some (']' :: rest) => some ([], rest)
    | some cs =>
      match value? cs with
      | none => none
      | some (value, rest) =>
        match skipAllFiller? rest with
        | some (']' :: rest) => some ([value], rest)
        | some (',' :: rest) =>
          match readItems? value? steps rest with
          | some (values, rest) => some (value :: values, rest)
          | none => none
        | _ => none

/-- The pairs of a table up to its closing brace, in a bounded number of steps, put into a table
that has some entries already. -/
def readPairs? (value? : ValueReader) : Nat → Entries → List Char → Option (Entries × List Char)
  | 0, _, _ => none
  | steps + 1, entries, cs =>
    match readPair? value? cs with
    | none => none
    | some ((key, value), rest) =>
      match entries.insert? key.path key.name value .braces with
      | none => none
      | some entries =>
        match skipSpace rest with
        | '\x7d' :: rest => some (entries, rest)
        | ',' :: rest => readPairs? value? steps entries rest
        | _ => none

/-- A value with so much room for nesting. -/
def readValue? : Nat → ValueReader
  | room, cs =>
    match cs with
    | '"' :: _ => (readString? cs).map fun (text, rest) => (.string text, rest)
    | '\'' :: _ => (readString? cs).map fun (text, rest) => (.string text, rest)
    | '[' :: rest =>
      match room with
      | 0 => none
      | room + 1 =>
        (readItems? (readValue? room) (rest.length + 1) rest).map fun (items, rest) =>
          (.array items, rest)
    | '\x7b' :: rest =>
      match room with
      | 0 => none
      | room + 1 =>
        match skipSpace rest with
        | '\x7d' :: rest => some (.table .braces [], rest)
        | _ =>
          (readPairs? (readValue? room) (rest.length + 1) [] rest).map fun (entries, rest) =>
            (.table .braces entries, rest)
    | _ => readRun? cs

/-! ## Documents -/

/-- The entries of a document so far, and the header that the next keys belong to. -/
structure Reading where
  entries : Entries
  header : Option Key
deriving Repr

namespace Reading

/-- Adds a key with its value to the table of the last header. -/
def insert? (r : Reading) (key : Key) (value : Value) : Option Reading :=
  let add := fun origin entries => Entries.insert? key.path key.name value origin entries
  (match r.header with
    | none => add .header r.entries
    | some header => r.entries.modify? false add .header (header.path ++ [header.name])).map
    fun entries => ⟨entries, r.header⟩

/-- Begins the table of a header. -/
def open? (r : Reading) (key : Key) : Option Reading :=
  (r.entries.open? key.path key.name).map fun entries => ⟨entries, some key⟩

/-- Begins one more table of a header between double brackets. -/
def push? (r : Reading) (key : Key) : Option Reading :=
  (r.entries.push? key.path key.name).map fun entries => ⟨entries, some key⟩

/-- Reads one line that is not empty, and gives the text behind its end. -/
def line? (r : Reading) (cs : List Char) : Option (Reading × List Char) :=
  let finish (next : Option Reading) (rest : List Char) : Option (Reading × List Char) :=
    match next, endLine? rest with
    | some next, some rest => some (next, rest)
    | _, _ => none
  match cs with
  | '[' :: '[' :: rest =>
    match readKey? rest with
    | some (key, ']' :: ']' :: rest) => finish (r.push? key) rest
    | _ => none
  | '[' :: rest =>
    match readKey? rest with
    | some (key, ']' :: rest) => finish (r.open? key) rest
    | _ => none
  | _ =>
    match readPair? (readValue? maxNesting) cs with
    | some ((key, value), rest) => finish (r.insert? key value) rest
    | none => none

/-- Reads lines to the end, in a bounded number of steps. -/
def lines? : Nat → Reading → List Char → Option Reading
  | 0, _, _ => none
  | steps + 1, r, cs =>
    match skipSpace cs with
    | [] => some r
    | cs =>
      match endLine? cs with
      | some rest => lines? steps r rest
      | none =>
        match r.line? cs with
        | some (r, rest) => lines? steps r rest
        | none => none

end Reading

/-- The entries of a document; a byte order mark before it is skipped. -/
def read? (source : String) : Option Entries :=
  let cs := match source.toList with
    | '\ufeff' :: rest => rest
    | cs => cs
  (Reading.lines? (cs.length + 1) ⟨[], none⟩ cs).map Reading.entries

end StateMarkup.Toml
