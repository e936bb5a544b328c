import Mathlib.Data.List.Induction
import StateMarkup.Transition

/-!
# What is found in a table

Of what a table finds the host may fire what is regular. A table made of a list is seen from its
end: the last transition of an event and a state is what is found for them.

A table keeps its transitions twice, as a listing and through an index of positions. One insertion
keeps them in step (`Indexes.insert`), so after any insertions the index leads to the last position
of every key and nowhere else (`TransitionTable.indexed_after_any_insertions`).
-/

namespace StateMarkup

namespace Transition

variable {t : Transition}

/-- A transition answers a failure exactly if that is its kind. -/
theorem isFallback_iff : t.isFallback = true ↔ t.kind = .fallback := beq_iff_eq

/-- There are two kinds, so what answers no failure is regular. -/
theorem isFallback_eq_false_iff : t.isFallback = false ↔ t.kind = .regular := by
  rw [isFallback]
  cases t.kind <;> decide

end Transition

namespace TransitionTable

variable {table : TransitionTable} {ts : List Transition} {t : Transition} {event source : String}

/-- What the host may fire is what is found, if it is regular. A transition that answers a failure
hides a regular one of its key, and then nothing may be fired. -/
theorem admissible?_eq_some_iff :
    table.admissible? event source = some t ↔
      table.get? event source = some t ∧ t.kind = .regular := by
  rw [admissible?, Option.filter_eq_some_iff, Bool.not_eq_true', Transition.isFallback_eq_false_iff]

/-- What is found is in the listing. -/
theorem mem_of_get? (h : table.get? event source = some t) : t ∈ table.toList := by
  unfold get? at h
  split at h
  · exact Array.mem_toList_iff.mpr (Array.mem_of_getElem? h)
  · cases h

/-! ## Tables made of lists -/

/-- A table of a list is that of all but the last, with the last inserted. So facts about tables of
lists are proved from the last transition on, as the table has grown. -/
theorem ofList_concat (ts : List Transition) (t : Transition) :
    ofList (ts ++ [t]) = (ofList ts).insert t := by
  rw [ofList, List.foldl_append]
  rfl

/-- The listing of a table is the list that it is made of. -/
theorem toList_ofList (ts : List Transition) : (ofList ts).toList = ts := by
  induction ts using List.reverseRecOn with
  | nil => rfl
  | append_singleton ts last ih => rw [ofList_concat, toList_insert, ih]

/-- The last transition of a list hides those before it that have its event and its state. -/
theorem get?_ofList_concat (ts : List Transition) (t : Transition) (event source : String) :
    (ofList (ts ++ [t])).get? event source =
      if (event, source) = t.key then some t else (ofList ts).get? event source := by
  rw [ofList_concat, get?_insert]

/-- What is found in two lists is found in the second, or else in the first. A list made in groups
can so be looked up group by group. -/
theorem get?_ofList_append (ts us : List Transition) (event source : String) :
    (ofList (ts ++ us)).get? event source =
      ((ofList us).get? event source).or ((ofList ts).get? event source) := by
  induction us using List.reverseRecOn with
  | nil =>
    rw [List.append_nil]
    rfl
  | append_singleton us last ih =>
    rw [← List.append_assoc, get?_ofList_concat, get?_ofList_concat, ih]
    split
    · rw [Option.some_or]
    · rfl

/-- What is found is in the list that the table is made of. -/
theorem mem_of_get?_ofList (h : (ofList ts).get? event source = some t) : t ∈ ts :=
  toList_ofList ts ▸ mem_of_get? h

/-! ## The listing and the index -/

/-- The position is that of the last transition of the key. This is said of the list alone: the
index has no part in it. -/
structure LastAt (ts : List Transition) (key : String × String) (position : Nat) : Prop where
  here : ∃ t, ts[position]? = some t ∧ t.key = key
  not_later : ∀ later t, position < later → ts[later]? = some t → t.key ≠ key

/-- **A table that is in step with what was inserted**, in this order. The index may hold several
entries of a key, of which only the newest is ever looked up, so all of them are asked to lead to a
transition of the key and only the newest to the last one. -/
structure Indexes (table : TransitionTable) (ts : List Transition) : Prop where
  /-- the listing is what was inserted -/
  listed : table.toList = ts
  /-- every entry of the index leads to a transition of its key -/
  inside : ∀ entry ∈ table.index, ∃ t, ts[entry.2]? = some t ∧ t.key = entry.1
  /-- the entry that counts leads to the last one -/
  newest : ∀ key position, table.index.lookup key = some position ↔ LastAt ts key position
  /-- there is none exactly if nothing was inserted for the key -/
  unlisted : ∀ key, table.index.lookup key = none ↔ ∀ t ∈ ts, t.key ≠ key

variable {key : String × String} {position : Nat}

/-- A transition behind the others is the last one of its own key. -/
theorem lastAt_concat_self (ts : List Transition) (t : Transition) :
    LastAt (ts ++ [t]) t.key position ↔ position = ts.length := by
  constructor
  · rintro ⟨⟨u, there, -⟩, not_later⟩
    obtain ⟨inside, -⟩ := List.getElem?_eq_some_iff.mp there
    rw [List.length_append, List.length_singleton] at inside
    by_contra other
    exact not_later ts.length t (by omega) List.getElem?_concat_length rfl
  · rintro rfl
    refine ⟨⟨t, List.getElem?_concat_length, rfl⟩, fun later u after there => ?_⟩
    obtain ⟨inside, -⟩ := List.getElem?_eq_some_iff.mp there
    rw [List.length_append, List.length_singleton] at inside
    omega

/-- A transition behind the others is the last one of no other key, so for other keys the positions
stay. -/
theorem lastAt_concat_of_ne (ts : List Transition) {t : Transition} (other : key ≠ t.key) :
    LastAt (ts ++ [t]) key position ↔ LastAt ts key position := by
  have same (position : Nat) (u : Transition) (own : u.key = key) :
      (ts ++ [t])[position]? = some u ↔ ts[position]? = some u := by
    rcases Nat.lt_trichotomy position ts.length with before | rfl | after
    · rw [List.getElem?_append_left before]
    · rw [List.getElem?_concat_length, List.getElem?_eq_none (Nat.le_refl _)]
      exact ⟨fun last => absurd (Option.some.inj last ▸ own.symm) other, nofun⟩
    · have behind : (ts ++ [t]).length ≤ position := by
        rw [List.length_append, List.length_singleton]
        exact after
      rw [List.getElem?_eq_none (Nat.le_of_lt after), List.getElem?_eq_none behind]
  constructor
  · rintro ⟨⟨u, there, own⟩, not_later⟩
    exact ⟨⟨u, (same position u own).mp there, own⟩, fun later w after there own =>
      not_later later w after ((same later w own).mpr there) own⟩
  · rintro ⟨⟨u, there, own⟩, not_later⟩
    exact ⟨⟨u, (same position u own).mpr there, own⟩, fun later w after there own =>
      not_later later w after ((same later w own).mp there) own⟩

/-- The next free position is the length of the listing. -/
theorem size_entries (table : TransitionTable) : table.entries.size = table.toList.length := by
  rw [toList, Array.length_toList]

/-- An insertion writes one entry into the index: its key leads behind all that was listed so
far. -/
theorem lookup_insert (table : TransitionTable) (t : Transition) (key : String × String) :
    (table.insert t).index.lookup key =
      if key = t.key then some table.toList.length else table.index.lookup key := by
  rw [insert, List.lookup_cons, size_entries]
  by_cases own : key = t.key
  · simp [own]
  · simp [own, beq_eq_false_iff_ne.mpr own]

namespace Indexes

/-- An empty table is in step with no insertions. -/
theorem empty : TransitionTable.empty.Indexes [] where
  listed := rfl
  inside := nofun
  newest key position := ⟨nofun, fun ⟨⟨_, there, _⟩, _⟩ => by cases there⟩
  unlisted key := ⟨nofun, fun _ => rfl⟩

/-- **One more insertion keeps the listing and the index in step.** Old entries still lead where
they led, since the listing grows at its end; the new entry leads to the new end and hides those of
its key. -/
theorem insert (indexes : table.Indexes ts) (t : Transition) :
    (table.insert t).Indexes (ts ++ [t]) where
  listed := by rw [toList_insert, indexes.listed]
  inside := by
    intro entry hentry
    rcases List.mem_cons.mp hentry with rfl | hentry
    · refine ⟨t, ?_, rfl⟩
      rw [size_entries, indexes.listed]
      exact List.getElem?_concat_length
    · obtain ⟨u, there, own⟩ := indexes.inside entry hentry
      obtain ⟨inside, -⟩ := List.getElem?_eq_some_iff.mp there
      exact ⟨u, (List.getElem?_append_left inside).trans there, own⟩
  newest key position := by
    rw [lookup_insert, indexes.listed]
    split
    · rename_i own
      rw [own, lastAt_concat_self, Option.some.injEq, eq_comm]
    · rename_i other
      rw [lastAt_concat_of_ne ts other, indexes.newest]
  unlisted key := by
    rw [lookup_insert, List.forall_mem_append, List.forall_mem_singleton, ← indexes.unlisted]
    split
    · rename_i own
      simp [own]
    · rename_i other
      simp [Ne.symm other]

/-- After any insertions they are in step, one insertion after the other. -/
theorem ofList (ts : List Transition) : (TransitionTable.ofList ts).Indexes ts := by
  induction ts using List.reverseRecOn with
  | nil => exact .empty
  | append_singleton ts last ih =>
    rw [ofList_concat]
    exact ih.insert last

variable (indexes : table.Indexes ts)

include indexes

/-- What is found stands in the listing where the index says. From here on the index is only spoken
of through `Indexes`. -/
theorem get?_eq :
    table.get? event source = (table.index.lookup (event, source)).bind (ts[·]?) := by
  rw [get?, ← indexes.listed]
  cases table.index.lookup (event, source) with
  | none => rfl
  | some position => exact (Array.getElem?_toList ..).symm

/-- What is found is the last transition of the event and the state. -/
theorem get?_eq_some_iff :
    table.get? event source = some t ↔
      ∃ position, LastAt ts (event, source) position ∧ ts[position]? = some t := by
  simp only [indexes.get?_eq, Option.bind_eq_some_iff, indexes.newest]

/-- Nothing is found exactly if nothing was inserted for the event and the state. An entry always
leads inside the listing, so a look-up never fails for another reason. -/
theorem get?_eq_none_iff :
    table.get? event source = none ↔ ∀ t ∈ ts, t.key ≠ (event, source) := by
  rw [← indexes.unlisted, indexes.get?_eq]
  cases led : table.index.lookup (event, source) with
  | none => simp
  | some position =>
    obtain ⟨⟨t, there, -⟩, -⟩ := (indexes.newest _ _).mp led
    simp [there]

end Indexes

/-- **The listing and the index of a table are never out of step**, whatever was inserted. The
listing is what was inserted, all entries of the index lead to transitions of their keys, and what
is found is the last transition of the event and the state, if there is any. Tables of the same
insertions are the same, and no others are. -/
theorem indexed_after_any_insertions (ts : List Transition) :
    (ofList ts).Indexes ts ∧
    (∀ event source t, (ofList ts).get? event source = some t ↔
      ∃ position, LastAt ts (event, source) position ∧ ts[position]? = some t) ∧
    (∀ event source, (ofList ts).get? event source = none ↔ ∀ t ∈ ts, t.key ≠ (event, source)) ∧
    ∀ us, ofList us = ofList ts ↔ us = ts := by
  have indexes := Indexes.ofList ts
  refine ⟨indexes, fun _ _ _ => indexes.get?_eq_some_iff, fun _ _ => indexes.get?_eq_none_iff,
    fun us => ⟨fun same => ?_, fun same => congrArg ofList same⟩⟩
  rw [← toList_ofList us, same, toList_ofList]

/-- The third transition hides the first, and all three stay in the listing. -/
example :
    let first : Transition := ⟨"Go", "a", "b", none, .regular⟩
    let third : Transition := ⟨"Go", "a", "c", none, .regular⟩
    let table := ofList [first, ⟨"Go", "b", "a", none, .regular⟩, third]
    table.get? "Go" "a" = some third ∧ table.toList.length = 3 := by decide

end TransitionTable

end StateMarkup
