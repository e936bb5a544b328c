import StateMarkup.Text.Search

/-!
# Hints

What to do about a broken rule. The hint is found by the wording of the message: the forms are tried
one after the other, and the first that fits gives the hint.
-/

namespace StateMarkup

/-- Advice that goes with a message. -/
inductive Hint where
  /-- something to do -/
  | suggestion (text : String)
  /-- something to know -/
  | help (text : String)
deriving DecidableEq, Repr

/-- The advice of a suggestion. -/
def Hint.suggestion? : Hint → Option String
  | .suggestion text => some text
  | .help _ => none

/-- The advice of a help. -/
def Hint.help? : Hint → Option String
  | .suggestion _ => none
  | .help text => some text

/-- How a message is recognised. -/
inductive Wording where
  | exactly (text : String)
  | startsWith (text : String)
  | holds (text : String)
deriving DecidableEq, Repr

/-- Whether a message has the form. -/
def Wording.fits (message : String) : Wording → Bool
  | .exactly text => message == text
  | .startsWith text => Text.startsWith message text
  | .holds text => Text.holds message text

namespace Hint

/-- The forms of messages and the advice that goes with them, in the order in which they are
tried. -/
def byWording : List (Wording × Hint) :=
  [(.startsWith "root node is not",
      .suggestion "Wrap the whole document in <Schema> ... </Schema>"),
   (.exactly "missing Schema node",
      .suggestion "Wrap the whole document in <Schema> ... </Schema>"),
   (.exactly "missing States node",
      .suggestion "Declare states as children of <States> directly under <Schema>"),
   (.startsWith "Events node",
      .suggestion "Move <Events> inside the state that fires them"),
   (.startsWith "default events",
      .help <| "OnBeforeEvent, OnAfterEvent and OnStateSet may appear under <Schema> or " ++
        "directly under a state"),
   (.holds "undeclared state",
      .suggestion "Declare the state under <States> or fix the spelling"),
   (.holds "has no targetState",
      .suggestion "Add targetState=\"...\" to the event"),
   (.startsWith "mismatched closing tag",
      .help "Close each element with a tag of the same name, or drop --strict"),
   (.holds "shares its hook key",
      .help <| "Events named 'event' and states named 'state' collide with the global hooks; " ++
        "rename them"),
   (.holds "reserved tag name",
      .help <| "Schema, States, Events, Task, OnBeforeEvent, OnAfterEvent and OnStateSet " ++
        "cannot name a state")]

/-- The advice that goes with a message. -/
def ofMessage? (message : String) : Option Hint :=
  (byWording.find? (·.1.fits message)).map (·.2)

end Hint

end StateMarkup
