/-!
# TOML values and the building of tables

A document and every table in it is a list of entries under different names. Tables come about in
four ways, and which one it was decides whether and how they may grow later (`Origin`): a table
written between braces is closed for good; one with a header of its own takes no dotted keys from
outside; one that was only passed through by a header may still get its own; one made by a dotted
key takes more dotted keys and nothing else.

`Entries.insert?` adds a key with its value, `Entries.open?` and `Entries.push?` are the two kinds
of headers. Each fails if the rules forbid it.
-/

namespace StateMarkup.Toml

/-- How a table came about. -/
inductive Origin where
  /-- between braces -/
  | braces
  /-- by a header of its own -/
  | header
  /-- on the path of a header -/
  | path
  /-- on the path of a dotted key -/
  | dotted
deriving DecidableEq, Repr

/-- True of tables that nothing has named as its own. -/
def Origin.isImplicit : Origin → Bool
  | .path => true
  | .dotted => true
  | _ => false

/-- A value; numbers with a fraction and dates are kept as they are written. -/
inductive Value where
  | boolean (b : Bool)
  | integer (n : Int)
  | float (text : String)
  | date (text : String)
  | string (text : String)
  | array (items : List Value)
  | table (origin : Origin) (entries : List (String × Value))
  /-- the tables of all headers of one name between double brackets, the last one first -/
  | tables (items : List (List (String × Value)))
deriving Repr

/-- The entries of a table. -/
abbrev Entries := List (String × Value)

namespace Entries

/-- Gives a name another value. -/
def replace (entries : Entries) (name : String) (value : Value) : Entries :=
  entries.map fun e => if e.1 == name then (name, value) else e

/-- Changes the table that a path leads to; tables missing on the way are made. Through the tables
of double brackets the path leads to the last one. -/
def modify? (dotted : Bool) (change : Origin → Entries → Option Entries) :
    Origin → List String → Entries → Option Entries
  | origin, [], entries => change origin entries
  | _, name :: path, entries =>
    match entries.lookup name with
    | none =>
      let made : Origin := if dotted then .dotted else .path
      match modify? dotted change made path [] with
      | some inner => some (entries ++ [(name, .table made inner)])
      | none => none
    | some (.table origin inner) =>
      if origin = .braces || dotted && !origin.isImplicit then none
      else match modify? dotted change origin path inner with
        | some inner => some (replace entries name (.table origin inner))
        | none => none
    | some (.tables (last :: older)) =>
      match modify? dotted change .header path last with
      | some last => some (replace entries name (.tables (last :: older)))
      | none => none
    | some _ => none

/-- Adds a key with its value to a table that was found by the path before it. A table of dotted
keys takes only these, and they go to no other table. -/
def add? (path : List String) (name : String) (value : Value) (origin : Origin)
    (entries : Entries) : Option Entries :=
  if (origin == .dotted) == path.isEmpty then none
  else if (entries.lookup name).isSome then none
  else some (entries ++ [(name, value)])

/-- Adds a key, which may be dotted, with its value to a table. -/
def insert? (path : List String) (name : String) (value : Value) (origin : Origin)
    (entries : Entries) : Option Entries :=
  entries.modify? true (add? path name value) origin path

/-- Opens the table of a header in the table before it. -/
def openIn? (name : String) (_ : Origin) (entries : Entries) : Option Entries :=
  match entries.lookup name with
  | none => some (entries ++ [(name, .table .header [])])
  | some (.table .path inner) => some (replace entries name (.table .header inner))
  | some _ => none

/-- Opens one more table of a header between double brackets in the table before it. -/
def pushIn? (name : String) (_ : Origin) (entries : Entries) : Option Entries :=
  match entries.lookup name with
  | none => some (entries ++ [(name, .tables [[]])])
  | some (.tables items) => some (replace entries name (.tables ([] :: items)))
  | some _ => none

/-- Opens the table of a header. -/
def open? (path : List String) (name : String) (entries : Entries) : Option Entries :=
  entries.modify? false (openIn? name) .header path

/-- Opens one more table of a header between double brackets. -/
def push? (path : List String) (name : String) (entries : Entries) : Option Entries :=
  entries.modify? false (pushIn? name) .header path

end Entries

end StateMarkup.Toml
