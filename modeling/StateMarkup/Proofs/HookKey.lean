import StateMarkup.Machine

/-!
# Hook keys are told apart

Keys are texts, and events and states may be called anything; still a key says what it is for. Two
keys of one kind are equal only if they are made of one name, keys of different kinds never are, and
the three keys that every event passes are those of an event named `event` and a state named
`state`. So a transition leaves out a phase in these two cases only (`Transition.hooks_eq`).
-/

namespace StateMarkup

namespace HookKey

variable {a b : String}

/-- The key that all events share is no key of its own kind: it is what an event named `event` has
anyway. So are the next two, and all that can go wrong with shared keys comes from these three
equations. -/
theorem beforeEvent_eq : beforeEvent = before "event" := by decide

theorem afterEvent_eq : afterEvent = after "event" := by decide

theorem enterState_eq : enterState = enter "state" := by decide

/-- The key of an event tells its name, because only what stands before the name is the same in all
keys of the kind. The same goes for the two other kinds. -/
@[simp] theorem before_inj : before a = before b ↔ a = b := String.append_right_inj _

@[simp] theorem after_inj : after a = after b ↔ a = b := String.append_right_inj _

@[simp] theorem enter_inj : enter a = enter b ↔ a = b := String.append_right_inj _

/-- Texts that begin differently are different, whatever follows. One differing character suffices,
so keys of two kinds are told apart by the first letter of what stands before the name. -/
theorem append_ne_append {s t : String} {c d : Char} (hs : s.toList.head? = some c)
    (ht : t.toList.head? = some d) (hne : c ≠ d) (a b : String) : s ++ a ≠ t ++ b := by
  intro heq
  have heads := congrArg (fun text => text.toList.head?) heq
  simp only [String.toList_append, List.head?_append, hs, ht, Option.some_or] at heads
  exact hne (Option.some.inj heads)

/-- Keys of different kinds are never equal, whatever the names. The three pairs are stated in both
directions, so that `simp` decides every comparison of two keys. -/
@[simp] theorem before_ne_after : before a ≠ after b :=
  append_ne_append (c := 'b') (d := 'a') rfl rfl (by decide) a b

@[simp] theorem before_ne_enter : before a ≠ enter b :=
  append_ne_append (c := 'b') (d := 'e') rfl rfl (by decide) a b

@[simp] theorem after_ne_enter : after a ≠ enter b :=
  append_ne_append (c := 'a') (d := 'e') rfl rfl (by decide) a b

@[simp] theorem after_ne_before : after a ≠ before b := before_ne_after.symm

@[simp] theorem enter_ne_before : enter a ≠ before b := before_ne_enter.symm

@[simp] theorem enter_ne_after : enter a ≠ after b := after_ne_enter.symm

end HookKey

/-! ## The names of answers -/

/-- The name of an answer tells which event it answers. -/
@[simp] theorem fallbackEvent_inj {a b : String} : fallbackEvent a = fallbackEvent b ↔ a = b :=
  String.append_left_inj _

/-- The name of an answer is longer than that of its event. That is all the next two lemmas need:
two texts of different length are not equal. -/
theorem length_fallbackEvent (event : String) :
    (fallbackEvent event).length = event.length + 7 := by
  rw [fallbackEvent, String.length_append]
  rfl

/-- No event is its own answer, so the two transitions of an event are found under different
names. -/
@[simp] theorem fallbackEvent_ne_self {event : String} : fallbackEvent event ≠ event := by
  intro h
  have := congrArg String.length h
  rw [length_fallbackEvent] at this
  omega

/-- The name of an answer is too long for `event`, so an answer never shares its keys with all
events. -/
theorem fallbackEvent_ne_event {event : String} : fallbackEvent event ≠ "event" := by
  intro h
  have := congrArg String.length h
  rw [length_fallbackEvent] at this
  have : "event".length = 5 := rfl
  omega

/-! ## The hooks of a transition -/

/-- **The hooks of a transition**: six, but for an event named `event` and a target named `state`,
whose own keys are those of all events and of all states. Keys that are equal stand next to each
other in the order of the phases, so what is skipped is always the second of a pair. -/
theorem Transition.hooks_eq (t : Transition) :
    t.hooks = [t.hook .beforeEvent] ++ (if t.event = "event" then [] else [t.hook .before]) ++
      [t.hook .enter] ++ (if t.target = "state" then [] else [t.hook .enterState]) ++
      [t.hook .after] ++ (if t.event = "event" then [] else [t.hook .afterEvent]) := by
  rw [hooks, Phase.order]
  simp only [List.map_cons, List.map_nil, skipRepeats, hook, Phase.key, HookKey.beforeEvent_eq,
    HookKey.afterEvent_eq, HookKey.enterState_eq, Option.some.injEq]
  by_cases event : t.event = "event"
  · by_cases target : t.target = "state" <;> simp [event, target]
  · by_cases target : t.target = "state" <;> simp [event, Ne.symm event, target]

/-- The keys of a transition in the order of the phases, each where it comes first. -/
def Transition.keys (t : Transition) : List String :=
  (Phase.order.map fun phase => phase.key t.event t.target).eraseDups

/-- Each key of a transition has one hook. Repetitions are skipped only next to each other, while
`Transition.keys` drops them wherever they stand; both give the same because a key comes twice in
neighbouring phases only. -/
theorem Transition.map_key_hooks (t : Transition) : t.hooks.map Hook.key = t.keys := by
  rw [hooks_eq, keys, Phase.order]
  simp only [hook, Phase.key, HookKey.beforeEvent_eq, HookKey.afterEvent_eq, HookKey.enterState_eq,
    List.map_cons, List.map_nil, List.eraseDups_cons]
  by_cases event : t.event = "event"
  · by_cases target : t.target = "state"
    · simp [event, target, List.eraseDups_cons]
    · simp [event, target, Ne.symm target, List.eraseDups_cons]
  · by_cases target : t.target = "state"
    · simp [event, Ne.symm event, target, List.eraseDups_cons]
    · simp [event, Ne.symm event, target, Ne.symm target, List.eraseDups_cons]

end StateMarkup
