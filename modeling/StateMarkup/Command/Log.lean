import StateMarkup.Diagnostic.Render
import StateMarkup.Engine.Notice
import StateMarkup.Text.Blank

/-!
# Log lines

Which notices are shown, and how. A filter may come from outside as a list of rules with commas
between them: the name or the number of a level for all notices, the start of the name of a part of
the program for the notices of that part, or both with an equals sign between them. The rule that
says most about where a notice comes from decides about it. Without a filter from outside the
program shows all notices if it is asked to tell more, and warnings otherwise.

Control characters with which a text could steer a terminal are written out.
-/

namespace StateMarkup

/-- How much a level matters, as a number. -/
def Level.rank : Level → Nat
  | .debug => 0
  | .info => 1
  | .warn => 2

/-- The part of the program that a notice comes from, as filters call it. Tasks speak for the
command that runs them, and all else is said by the engine. -/
def Notice.origin : Notice → String
  | .spoken _ _ => "fsml"
  | _ => "fsml_engine::engine"

/-- Which notices a rule of a filter is about. -/
inductive LogScope where
  /-- all of them -/
  | all
  /-- those of the parts whose names start like this -/
  | part (start : String)
  /-- those made during a stretch of work that has a name; this program names none -/
  | span
deriving DecidableEq, Repr

namespace LogScope

/-- Whether a scope has the notices of a part of the program. -/
def covers (scope : LogScope) (origin : String) : Bool :=
  match scope with
  | all => true
  | part start => start.toList.isPrefixOf origin.toList
  | span => false

/-- How much a scope says about where its notices come from. -/
def closeness : LogScope → Nat
  | all => 0
  | part start => start.utf8ByteSize + 1
  | span => 0

end LogScope

/-- One rule of a filter. -/
structure LogRule where
  scope : LogScope
  /-- the least level that is shown; none shows nothing -/
  least : Option Level
deriving DecidableEq, Repr

namespace LogRule

/-- Whether a rule shows a level. -/
def shows (rule : LogRule) (level : Level) : Bool :=
  match rule.least with
  | some least => least.rank ≤ level.rank
  | none => false

/-- What a level's name shows, in letters of either case. No notice is an error, and none matters
less than those for debugging. -/
def ofName? (name : String) : Option (Option Level) :=
  match name.toLower with
  | "trace" => some (some .debug)
  | "debug" => some (some .debug)
  | "info" => some (some .info)
  | "warn" => some (some .warn)
  | "error" => some none
  | "off" => some none
  | _ => none

/-- What a level's number shows, from 0 for nothing to 5 for all. Zeros before it count for nothing,
and there may be a plus sign before them. -/
def ofNumber? (cs : List Char) : Option (Option Level) :=
  let digits := if cs.head? = some '+' then cs.tail else cs
  if digits.isEmpty || !digits.all Char.isDigit then none
  else match digits.dropWhile (· = '0') with
    | [] => some none
    | ['1'] => some none
    | ['2'] => some (some .warn)
    | ['3'] => some (some .info)
    | ['4'] => some (some .debug)
    | ['5'] => some (some .debug)
    | _ => none

/-- What a level shows that is given by its number or its name. -/
def ofLevel? (text : String) : Option (Option Level) :=
  (ofNumber? text.toList).orElse fun _ => ofName? text

/-- Whether a rule may start with a character: with a letter, a digit or one of three signs. Beyond
ASCII all characters count as letters. -/
def mayStart (c : Char) : Bool :=
  c.isAlphanum || c = '-' || c = ':' || c = '_' || '\x7f' < c

/-- The rule of a text, if it is one. It may start only as rules do, but for white space before it.
Without an equals sign it is a level, if it is one to the letter, and else it shows all of a part of
the program. With one it is the name of a part and a level, of which the second may be missing; a
level that is no level makes the whole no rule, and so does white space before the name. What has a
bracket in the name is about stretches of work. -/
def ofText? (text : String) : Option LogRule :=
  let cs := text.toList
  let name := cs.takeWhile (· ≠ '=')
  match Text.trimChars cs with
  | [] => none
  | first :: _ =>
    if first = '[' then some ⟨.span, none⟩
    else if !mayStart first then none
    else if name.contains '[' then some ⟨.span, none⟩
    else match cs.dropWhile (· ≠ '=') with
      | [] => some <|
        match ofLevel? text with
        | some least => ⟨.all, least⟩
        | none => ⟨.part text, some .debug⟩
      | _ :: level =>
        if name.head? ≠ some first then none
        else
          let least := if level.isEmpty then some (some .debug) else ofLevel? (String.ofList level)
          least.map fun least => ⟨.part (String.ofList name), least⟩

end LogRule

/-- Which notices are shown, as the rules say. -/
structure LogFilter where
  rules : List LogRule
deriving DecidableEq, Repr

namespace LogFilter

/-- The rule that decides about a part of the program: of those about it the one that says most, and
of several that say as much the last. -/
def deciding (filter : LogFilter) (origin : String) : Option LogRule :=
  (filter.rules.filter (·.scope.covers origin)).foldl
    (fun best rule =>
      match best with
      | some other => if other.scope.closeness ≤ rule.scope.closeness then some rule else best
      | none => some rule)
    none

/-- Whether a filter shows a notice. Where no rule decides nothing is shown. -/
def shows (filter : LogFilter) (notice : Notice) : Bool :=
  match filter.deciding notice.origin with
  | some rule => rule.shows notice.level
  | none => false

/-- The filter that a text asks for: its rules, with commas between them. One that is none makes the
whole text no filter. -/
def ofText? (text : String) : Option LogFilter :=
  (((text.splitOn ",").filter (!·.isEmpty)).mapM LogRule.ofText?).map (⟨·⟩)

/-- The filter in force. -/
def choose (fromOutside : Option String) (verbose : Bool) : LogFilter :=
  (fromOutside.bind ofText?).getD ⟨[⟨.all, if verbose then some .debug else some .warn⟩]⟩

end LogFilter

/-- How a character is written in a log line. -/
def escapeLogChar (c : Char) : String :=
  if c = '\x1b' then "\\x1b"
  else if c = '\x07' then "\\x07"
  else if c = '\x08' then "\\x08"
  else if c = '\x0c' then "\\x0c"
  else if c = '\x7f' then "\\x7f"
  else if '\x80' ≤ c && c ≤ '\u009f' then Text.codePoint c
  else c.toString

/-- A log line behind its time. -/
def logLine (time : String) (level : Level) (text : String) : String :=
  line (time ++ " " ++ padLeft 5 level.name ++ " " ++ String.join (text.toList.map escapeLogChar))

end StateMarkup
