/-!
# Transitions

A transition is fired by an event in a state. A `TransitionTable` lists transitions in the order of
their insertion and finds the one of an event and a state through an index of positions, which a
table can only have if it is right (`TransitionTable.indexed`). Of several transitions with the same
event and state the last one inserted is found (`get?_insert`), and all stay in the listing
(`toList_insert`).
-/

namespace StateMarkup

/-- What a transition is there for. -/
inductive TransitionKind where
  /-- stands in the document and may be fired by the host -/
  | regular
  /-- is fired only after the hooks of another have failed -/
  | fallback
deriving DecidableEq, Repr

/-- One transition. -/
structure Transition where
  event : String
  source : String
  target : String
  errorState : Option String
  kind : TransitionKind
deriving DecidableEq, Repr

/-- True of the transitions that are there for failures. -/
def Transition.isFallback (t : Transition) : Bool := t.kind == .fallback

/-- The event and the state that a transition is found by. -/
def Transition.key (t : Transition) : String × String := (t.event, t.source)

/-- Transitions in order, and for an event and a state the position of the one that counts. -/
structure TransitionTable where
  entries : Array Transition
  /-- positions, the newest first -/
  index : List ((String × String) × Nat)
  /-- at every position of the index stands a transition that is found by it -/
  indexed : ∀ entry ∈ index, (entries[entry.2]?).map Transition.key = some entry.1
deriving DecidableEq

namespace TransitionTable

/-- The table without transitions. -/
def empty : TransitionTable := ⟨#[], [], by simp⟩

/-- A transition behind the others moves none of them. -/
theorem getElem?_push_of_key {entries : Array Transition} {t : Transition} {position : Nat}
    {key : String × String} (h : (entries[position]?).map Transition.key = some key) :
    ((entries.push t)[position]?).map Transition.key = some key := by
  cases hp : entries[position]? with
  | none => simp [hp] at h
  | some found =>
    obtain ⟨hlt, hfound⟩ := Array.getElem?_eq_some_iff.mp hp
    rw [Array.getElem?_push_lt hlt, hfound]
    rwa [hp] at h

/-- The table with one more transition, which counts from now on. -/
def insert (table : TransitionTable) (t : Transition) : TransitionTable where
  entries := table.entries.push t
  index := (t.key, table.entries.size) :: table.index
  indexed := by
    intro entry hentry
    rcases List.mem_cons.mp hentry with rfl | hentry
    · simp
    · exact getElem?_push_of_key (table.indexed entry hentry)

/-- The table of several transitions. -/
def ofList (ts : List Transition) : TransitionTable := ts.foldl insert empty

/-- All transitions, in the order of insertion. -/
def toList (table : TransitionTable) : List Transition := table.entries.toList

/-- The transition of an event in a state. -/
def get? (table : TransitionTable) (event source : String) : Option Transition :=
  match table.index.lookup (event, source) with
  | some position => table.entries[position]?
  | none => none

/-- The number of transitions. -/
def size (table : TransitionTable) : Nat := table.entries.size

/-- The events that the host may fire in a state, in the order of insertion. -/
def eventsFrom (table : TransitionTable) (source : String) : List String :=
  (table.toList.filter fun t => t.source == source && !t.isFallback).map (·.event)

/-- The transition of an event in a state, if the host may fire it. -/
def admissible? (table : TransitionTable) (event source : String) : Option Transition :=
  (table.get? event source).filter (!·.isFallback)

@[simp] theorem toList_insert (table : TransitionTable) (t : Transition) :
    (table.insert t).toList = table.toList ++ [t] := by
  simp [toList, insert]

/-- What the index gives for a key stands at a position of that key. -/
theorem lookup_index {table : TransitionTable} {key : String × String} {position : Nat}
    (h : table.index.lookup key = some position) :
    (table.entries[position]?).map Transition.key = some key := by
  have found : ∀ index : List ((String × String) × Nat), index.lookup key = some position →
      (key, position) ∈ index := by
    intro index
    induction index with
    | nil => intro h; cases h
    | cons entry rest ih =>
      intro h
      by_cases he : key = entry.1
      · subst he
        rw [List.lookup_cons_self] at h
        cases h
        exact List.mem_cons_self
      · rw [List.lookup_cons, beq_eq_false_iff_ne.mpr he] at h
        exact List.mem_cons_of_mem _ (ih h)
  exact table.indexed _ (found _ h)

/-- What is found is of the event and the state. -/
theorem key_of_get? {table : TransitionTable} {event source : String} {t : Transition}
    (h : table.get? event source = some t) : t.event = event ∧ t.source = source := by
  unfold get? at h
  split at h
  · rename_i position hposition
    have := lookup_index hposition
    rw [h] at this
    simpa [Transition.key] using this
  · cases h

@[simp] theorem get?_empty (event source : String) : empty.get? event source = none := rfl

/-- The last transition inserted for an event and a state is found, and others as before. -/
theorem get?_insert (table : TransitionTable) (t : Transition) (event source : String) :
    (table.insert t).get? event source =
      if (event, source) = t.key then some t else table.get? event source := by
  by_cases h : (event, source) = t.key
  · simp [get?, insert, h]
  · rw [if_neg h]
    unfold get? insert
    simp only [List.lookup_cons, beq_eq_false_iff_ne.mpr h]
    cases hl : table.index.lookup (event, source) with
    | none => rfl
    | some position =>
      have := lookup_index hl
      cases hp : table.entries[position]? with
      | none => simp [hp] at this
      | some found =>
        obtain ⟨hlt, hfound⟩ := Array.getElem?_eq_some_iff.mp hp
        simp [Array.getElem?_push_lt hlt, hfound, hp]

end TransitionTable

end StateMarkup
