import StateMarkup.Proofs.HookKey
import StateMarkup.Proofs.TransitionTable
import StateMarkup.Schema.Tables

/-!
# The declaration that counts

The transition table of a schema is read back from the document: what is found under a name in a
state comes from the last event of the state that has a transition of that name
(`Schema.get?_transitionTable_eq_some_iff`). An event with an error state has two, one of its own
name and one of the name of its answer, so the last event for the one need not be the last for the
other.
-/

namespace StateMarkup

/-! ## The last of a list -/

/-- Of the elements of a list that have a property `c` is the last, and `post` is what follows. -/
inductive LastOf {α : Type} (p : α → Prop) : List α → α → List α → Prop where
  | here {c : α} {post : List α} : p c → (∀ a ∈ post, ¬ p a) → LastOf p (c :: post) c post
  | later {a c : α} {rest post : List α} : LastOf p rest c post → LastOf p (a :: rest) c post

namespace LastOf

variable {α : Type} {p q : α → Prop} {xs post post' : List α} {c c' : α}

/-- The last element with a property has it. -/
theorem holds (h : LastOf p xs c post) : p c := by
  induction h with
  | here hc _ => exact hc
  | later _ ih => exact ih

/-- It is one of the elements. -/
theorem mem (h : LastOf p xs c post) : c ∈ xs := by
  induction h with
  | here _ _ => exact List.mem_cons_self
  | later _ ih => exact List.mem_cons_of_mem _ ih

/-- None of the elements behind it has the property. -/
theorem not_after (h : LastOf p xs c post) : ∀ a ∈ post, ¬ p a := by
  induction h with
  | here _ after => exact after
  | later _ ih => exact ih

/-- There is one last element, and it stands at one place. So two facts about the last declaration
of an event are about the same declaration. -/
theorem unique (h : LastOf p xs c post) (h' : LastOf p xs c' post') : c = c' ∧ post = post' := by
  induction h with
  | here _ after =>
    cases h' with
    | here _ _ => exact ⟨rfl, rfl⟩
    | later other => exact absurd other.holds (after _ other.mem)
  | later last ih =>
    cases h' with
    | here _ after => exact absurd last.holds (after _ last.mem)
    | later other => exact ih other

/-- The last element for one property is that for another if it has it and none after it has. Two
transitions of one declaration are so compared without looking at what stands before it. -/
theorem of_not_after (h : LastOf p xs c post) (hc : q c) (after : ∀ a ∈ post, ¬ q a) :
    LastOf q xs c post := by
  induction h with
  | here _ _ => exact .here hc after
  | later _ ih => exact .later (ih hc after)

/-- If any element has the property, then there is a last one. The induction asks first whether
there is one later. -/
theorem exists_of_mem {a : α} (ha : a ∈ xs) (hp : p a) : ∃ c post, LastOf p xs c post := by
  induction xs generalizing a with
  | nil => cases ha
  | cons x rest ih =>
    by_cases later : ∃ b ∈ rest, p b
    · obtain ⟨b, hb, hpb⟩ := later
      obtain ⟨c, post, last⟩ := ih hb hpb
      exact ⟨c, post, .later last⟩
    · rcases List.mem_cons.mp ha with rfl | ha
      · exact ⟨a, rest, .here hp fun b hb hpb => later ⟨b, hb, hpb⟩⟩
      · exact absurd ⟨a, ha, hp⟩ later

end LastOf

/-! ## The transitions of one event -/

namespace Event

variable {event : Event} {source name : String} {t : Transition}

/-- The names of an event's transitions: its own, and that of its answer if it has an error
state. -/
def Writes (event : Event) (name : String) : Prop :=
  event.name = name ∨ event.errorState.isSome = true ∧ fallbackEvent event.name = name

/-- The regular transition of an event and the one to its error state. What an event adds to a table
is known through this lemma only. -/
theorem mem_transitions_iff :
    t ∈ event.transitions source ↔
      t = ⟨event.name, source, event.target, event.errorState, .regular⟩ ∨
        ∃ target, event.errorState = some target ∧
          t = ⟨fallbackEvent event.name, source, target, none, .fallback⟩ := by
  rw [transitions, List.mem_cons]
  cases event.errorState with
  | none => simp
  | some target => simp

/-- An event of a state has transitions from this state only. -/
theorem source_of_mem_transitions (h : t ∈ event.transitions source) : t.source = source := by
  rcases mem_transitions_iff.mp h with rfl | ⟨_, _, rfl⟩
  · rfl
  · rfl

/-- The names of an event's transitions are those that it has a transition under. -/
theorem writes_iff : event.Writes name ↔ ∃ t ∈ event.transitions source, t.event = name := by
  simp only [mem_transitions_iff, Writes, Option.isSome_iff_exists]
  constructor
  · rintro (own | ⟨⟨target, answered⟩, answer⟩)
    · exact ⟨_, .inl rfl, own⟩
    · exact ⟨_, .inr ⟨target, answered, rfl⟩, answer⟩
  · rintro ⟨t, rfl | ⟨target, answered, rfl⟩, named⟩
    · exact .inl named
    · exact .inr ⟨⟨target, answered⟩, named⟩

/-- Another state has nothing of an event. So its declarations can be left out when something is
looked up in this state. -/
theorem get?_transitions_of_ne {other : String} (ne : other ≠ source) :
    (TransitionTable.ofList (event.transitions other)).get? name source = none := by
  rw [Option.eq_none_iff_forall_not_mem]
  intro t found
  rw [Option.mem_def] at found
  have := source_of_mem_transitions (TransitionTable.mem_of_get?_ofList found)
  exact ne (this.symm.trans (TransitionTable.key_of_get? found).2)

/-- What is found among the transitions of an event is the one of the name. There are two at most,
and no answer has the name of its event. -/
theorem get?_transitions_eq_some_iff :
    (TransitionTable.ofList (event.transitions source)).get? name source = some t ↔
      t ∈ event.transitions source ∧ t.event = name := by
  constructor
  · intro found
    exact ⟨TransitionTable.mem_of_get?_ofList found, (TransitionTable.key_of_get? found).1⟩
  · rintro ⟨ht, rfl⟩
    rcases mem_transitions_iff.mp ht with rfl | ⟨target, answered, rfl⟩
    · cases answered : event.errorState with
      | none => simp [transitions, TransitionTable.ofList, TransitionTable.get?_insert, answered,
          Transition.key]
      | some target => simp [transitions, TransitionTable.ofList, TransitionTable.get?_insert,
          answered, Transition.key, Ne.symm fallbackEvent_ne_self]
    · simp [transitions, TransitionTable.ofList, TransitionTable.get?_insert, answered,
        Transition.key]

/-- Nothing is found exactly if the event has no transition of the name. -/
theorem get?_transitions_eq_none_iff :
    (TransitionTable.ofList (event.transitions source)).get? name source = none ↔
      ¬ event.Writes name := by
  rw [@writes_iff event source, Option.eq_none_iff_forall_ne_some]
  simp only [ne_eq, get?_transitions_eq_some_iff, not_exists]

/-! ## The transitions of several events of a state -/

variable {events : List Event}

/-- The first of several events counts only if none of the others has the name. The two lemmas below
are inductions with this step. -/
theorem get?_flatMap_transitions_cons (event : Event) (events : List Event) :
    (TransitionTable.ofList ((event :: events).flatMap (·.transitions source))).get? name source =
      ((TransitionTable.ofList (events.flatMap (·.transitions source))).get? name source).or
        ((TransitionTable.ofList (event.transitions source)).get? name source) := by
  rw [List.flatMap_cons, TransitionTable.get?_ofList_append]

/-- Nothing is found under a name exactly if none of the events has a transition of it. -/
theorem get?_flatMap_transitions_eq_none_iff :
    (TransitionTable.ofList (events.flatMap (·.transitions source))).get? name source = none ↔
      ∀ event ∈ events, ¬ event.Writes name := by
  induction events with
  | nil => simp [TransitionTable.ofList]
  | cons event rest ih =>
    rw [get?_flatMap_transitions_cons, Option.or_eq_none_iff, ih, get?_transitions_eq_none_iff,
      List.forall_mem_cons, and_comm]

/-- What is found under a name is the transition of the last event that has one of the name. Either
it is found further behind already, or nothing is and the first event is the last that counts; this
is how `LastOf` is made. -/
theorem get?_flatMap_transitions_eq_some_iff :
    (TransitionTable.ofList (events.flatMap (·.transitions source))).get? name source = some t ↔
      ∃ event post, LastOf (·.Writes name) events event post ∧
        t ∈ event.transitions source ∧ t.event = name := by
  induction events with
  | nil =>
    constructor
    · rintro ⟨⟩
    · rintro ⟨_, _, ⟨⟩, _⟩
  | cons first rest ih =>
    rw [get?_flatMap_transitions_cons, Option.or_eq_some_iff, ih,
      get?_flatMap_transitions_eq_none_iff, get?_transitions_eq_some_iff]
    -- what the later events have counts first, and the first event only if they have nothing
    constructor
    · rintro (⟨event, post, last, ht, named⟩ | ⟨after, ht, named⟩)
      · exact ⟨event, post, .later last, ht, named⟩
      · exact ⟨first, rest, .here (writes_iff.mpr ⟨t, ht, named⟩) after, ht, named⟩
    · rintro ⟨event, post, last | last, ht, named⟩
      · exact .inr ⟨‹_›, ht, named⟩
      · exact .inl ⟨event, post, last, ht, named⟩

end Event

namespace Schema

variable (schema : Schema)

/-- The events of all states of the name, in the order of the document. -/
def eventsIn (state : String) : List Event :=
  (schema.events.filter (·.1.name = state)).map (·.2)

variable {schema}

/-- The transitions of a schema are those of its events. -/
theorem mem_transitions_iff {t : Transition} :
    t ∈ schema.transitions ↔
      ∃ declared ∈ schema.events, t ∈ declared.2.transitions declared.1.name :=
  List.mem_flatMap

/-- Only the events of a state matter for what is found in it. All others may be dropped one by one,
since they write nothing that has this source. -/
theorem get?_transitionTable (name state : String) :
    schema.transitionTable.get? name state =
      (TransitionTable.ofList ((schema.eventsIn state).flatMap (·.transitions state))).get? name
        state := by
  rw [transitionTable, transitions, eventsIn]
  induction schema.events with
  | nil => rfl
  | cons declared rest ih =>
    obtain ⟨owner, event⟩ := declared
    rw [List.flatMap_cons, TransitionTable.get?_ofList_append, ih, List.filter_cons]
    dsimp only
    by_cases own : owner.name = state
    · rw [if_pos (decide_eq_true own), List.map_cons, Event.get?_flatMap_transitions_cons, own]
    · rw [if_neg (by simpa using own), Event.get?_transitions_of_ne own, Option.or_none]

/-- **The declaration that counts.** What is found under a name in a state is the transition of the
last event of the state that has one of the name. All that an engine looks up comes from here. -/
theorem get?_transitionTable_eq_some_iff {name state : String} {t : Transition} :
    schema.transitionTable.get? name state = some t ↔
      ∃ event post, LastOf (·.Writes name) (schema.eventsIn state) event post ∧
        t ∈ event.transitions state ∧ t.event = name := by
  rw [get?_transitionTable, Event.get?_flatMap_transitions_eq_some_iff]

end Schema

end StateMarkup
