/-!
# TOML strings

Text between double quotes may hold escapes, text between single quotes is taken as it is. Three
quotes of a kind begin a text over several lines; a line feed right behind them is no part of it.
Such a text ends with the first three quotes, and up to two more quotes in front of these are part
of it.
-/

namespace StateMarkup.Toml

/-- A text and what stands behind it. -/
abbrev Read := Option (String × List Char)

/-- A character that may stand in a text as it is: a tab, or no control. -/
def isTextChar (c : Char) : Bool := c == '\t' || ' ' ≤ c && c ≠ '\x7f'

/-- Space and tab. -/
def isSpace (c : Char) : Bool := c == ' ' || c == '\t'

/-- The text behind one line end, if there is one. -/
def dropLineEnd? : List Char → Option (List Char)
  | '\n' :: rest => some rest
  | '\r' :: '\n' :: rest => some rest
  | _ => none

/-- The value of hexadecimal digits. -/
def hexValue? (cs : List Char) : Option Nat :=
  cs.foldl (fun value c =>
    match value with
    | none => none
    | some value =>
      if c.isDigit then some (value * 16 + (c.toNat - '0'.toNat))
      else if 'a' ≤ c && c ≤ 'f' then some (value * 16 + (c.toNat - 'a'.toNat + 10))
      else if 'A' ≤ c && c ≤ 'F' then some (value * 16 + (c.toNat - 'A'.toNat + 10))
      else none) (some 0)

/-- The character whose code point the next digits give, and the text behind them. -/
def codePoint? (count : Nat) (cs : List Char) : Option (Char × List Char) :=
  if cs.length < count then none
  else match hexValue? (cs.take count) with
    | some n => if n.isValidChar then some (Char.ofNat n, cs.drop count) else none
    | none => none

/-- The character of an escape, whose backslash has been read, and the text behind it. -/
def escape? : List Char → Option (Char × List Char)
  | 'b' :: rest => some ('\x08', rest)
  | 't' :: rest => some ('\t', rest)
  | 'n' :: rest => some ('\n', rest)
  | 'f' :: rest => some ('\x0c', rest)
  | 'r' :: rest => some ('\r', rest)
  | '"' :: rest => some ('"', rest)
  | '\\' :: rest => some ('\\', rest)
  | 'u' :: rest => codePoint? 4 rest
  | 'U' :: rest => codePoint? 8 rest
  | _ => none

/-- The rest of a text on one line, behind what has been read of it (the newest first). The first
argument bounds the number of steps. -/
def readLine? (quote : Char) : Nat → List Char → List Char → Read
  | 0, _, _ => none
  | _, _, [] => none
  | steps + 1, text, c :: rest =>
    if c = quote then some (String.ofList text.reverse, rest)
    else if c = '\\' && quote = '"' then
      match escape? rest with
      | some (d, rest) => readLine? quote steps (d :: text) rest
      | none => none
    else if isTextChar c then readLine? quote steps (c :: text) rest
    else none

/-- The text behind a backslash at the end of a line: all space and line ends are skipped. -/
def skipLineEnds? (cs : List Char) : Option (List Char) :=
  match dropLineEnd? (cs.dropWhile isSpace) with
  | none => none
  | some rest => some (go rest.length rest)
where
  /-- Skips space and line ends, in a bounded number of steps. -/
  go : Nat → List Char → List Char
    | 0, cs => cs
    | steps + 1, cs =>
      let cs := cs.dropWhile isSpace
      match dropLineEnd? cs with
      | some rest => go steps rest
      | none => cs

/-- The rest of a text over several lines, behind what has been read of it (the newest first). The
first argument bounds the number of steps. -/
def readLines? (quote : Char) : Nat → List Char → List Char → Read
  | 0, _, _ => none
  | _, _, [] => none
  | steps + 1, text, c :: rest =>
    if c = quote then
      let quotes := ((c :: rest).takeWhile (· == quote)).length
      if quotes < 3 then readLines? quote steps (c :: text) rest
      else
        let inside := min quotes 5 - 3
        some (String.ofList (List.replicate inside quote ++ text).reverse,
          (c :: rest).drop (inside + 3))
    else if c = '\\' && quote = '"' then
      match escape? rest with
      | some (d, rest) => readLines? quote steps (d :: text) rest
      | none =>
        match skipLineEnds? rest with
        | some rest => readLines? quote steps text rest
        | none => none
    else match dropLineEnd? (c :: rest) with
      | some rest => readLines? quote steps ('\n' :: text) rest
      | none => if isTextChar c then readLines? quote steps (c :: text) rest else none

/-- The text between quotes on one line at the start of a text. -/
def readQuoted? : List Char → Read
  | [] => none
  | c :: rest => if c = '"' || c = '\'' then readLine? c (rest.length + 1) [] rest else none

/-- The text between quotes at the start of a text, on one line or several. -/
def readString? (cs : List Char) : Read :=
  match cs with
  | a :: b :: c :: rest =>
    if a = b && b = c && (a = '"' || a = '\'') then
      let rest := (dropLineEnd? rest).getD rest
      readLines? a (rest.length + 1) [] rest
    else readQuoted? cs
  | _ => readQuoted? cs

end StateMarkup.Toml
