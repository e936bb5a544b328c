/-!
# Hook keys

Tasks are scheduled under keys: three that every event passes, and three kinds that are made of the
name of an event or a state. `fallbackEvent` names the transition that is fired when the hooks of an
event fail.
-/

namespace StateMarkup

namespace HookKey

/-- The key that every event passes first. -/
def beforeEvent : String := "before_event"

/-- The key that every event passes last. -/
def afterEvent : String := "after_event"

/-- The key passed when any state is entered. -/
def enterState : String := "enter_state"

/-- The key passed before the event. -/
def before (event : String) : String := "before_" ++ event

/-- The key passed after the event. -/
def after (event : String) : String := "after_" ++ event

/-- The key passed when the state is entered. -/
def enter (state : String) : String := "enter_" ++ state

end HookKey

/-- The event fired in place of one whose hooks failed. -/
def fallbackEvent (event : String) : String := event ++ "_failed"

end StateMarkup
