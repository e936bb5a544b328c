/-!
# Finite maps from names

A `NameMap` holds a value for each of finitely many names. Its entries stand in strictly increasing
order of their names, code point by code point, so a map has one form only: which entries there are
decides everything, and the order in which they came does not show.

`get?` is the view through which the operations are known: `get?_update`, `get?_insert` and
`get?_erase` say what each of them does to it. A `NameSet` is a map whose values tell nothing.
-/

namespace StateMarkup

universe u

/-- Entries whose names strictly increase. -/
structure NameMap (α : Type u) where
  entries : List (String × α)
  increasing : entries.Pairwise fun a b => a.1 < b.1

namespace NameMap

variable {α : Type u}

/-! ## Lists of entries -/

/-- Changes the value of a name in a list of entries; a new name goes before the first larger
one. -/
def updateEntries (name : String) (change : Option α → α) : List (String × α) → List (String × α)
  | [] => [(name, change none)]
  | (other, value) :: rest =>
    if name < other then (name, change none) :: (other, value) :: rest
    else if name = other then (name, change (some value)) :: rest
    else (other, value) :: updateEntries name change rest

/-- The names after a change are the names before it and the changed one. -/
theorem mem_updateEntries {name : String} {change : Option α → α} {entries : List (String × α)}
    {e : String × α} (h : e ∈ updateEntries name change entries) :
    e.1 = name ∨ e ∈ entries := by
  induction entries with
  | nil => simp_all [updateEntries]
  | cons head rest ih =>
    obtain ⟨other, value⟩ := head
    unfold updateEntries at h
    split at h
    · rcases List.mem_cons.mp h with rfl | h
      · exact .inl rfl
      · exact .inr h
    · split at h
      · rcases List.mem_cons.mp h with rfl | h
        · exact .inl rfl
        · exact .inr (List.mem_cons_of_mem _ h)
      · rcases List.mem_cons.mp h with rfl | h
        · exact .inr List.mem_cons_self
        · exact (ih h).imp_right (List.mem_cons_of_mem _)

/-- A name that is neither smaller than another nor equal to it is larger. -/
theorem lt_of_not_lt_of_ne {a b : String} (h : ¬ a < b) (hne : a ≠ b) : b < a := by
  rcases Decidable.em (b < a) with hlt | hlt
  · exact hlt
  · exact absurd (String.le_antisymm hlt h) hne

/-- A change keeps the names in order. -/
theorem increasing_updateEntries (name : String) (change : Option α → α)
    {entries : List (String × α)} (h : entries.Pairwise fun a b => a.1 < b.1) :
    (updateEntries name change entries).Pairwise fun a b => a.1 < b.1 := by
  induction entries with
  | nil => simp [updateEntries]
  | cons head rest ih =>
    obtain ⟨other, value⟩ := head
    obtain ⟨hhead, hrest⟩ := List.pairwise_cons.mp h
    unfold updateEntries
    split
    · rename_i hlt
      refine List.pairwise_cons.mpr ⟨?_, h⟩
      intro e he
      rcases List.mem_cons.mp he with rfl | he
      · exact hlt
      · exact String.lt_trans hlt (hhead e he)
    · split
      · rename_i heq
        subst heq
        exact List.pairwise_cons.mpr ⟨hhead, hrest⟩
      · rename_i hlt hne
        refine List.pairwise_cons.mpr ⟨?_, ih hrest⟩
        intro e he
        rcases mem_updateEntries he with hname | he
        · exact hname ▸ lt_of_not_lt_of_ne hlt hne
        · exact hhead e he

/-! ## Operations -/

/-- The map without names. -/
def empty : NameMap α := ⟨[], .nil⟩

/-- The names, in increasing order. -/
def names (m : NameMap α) : List String := m.entries.map (·.1)

/-- The values, in the order of their names. -/
def values (m : NameMap α) : List α := m.entries.map (·.2)

/-- The number of names. -/
def size (m : NameMap α) : Nat := m.entries.length

/-- True of the map without names. -/
def isEmpty (m : NameMap α) : Bool := m.entries.isEmpty

/-- The value of a name, if it has one. -/
def get? (m : NameMap α) (name : String) : Option α := m.entries.lookup name

/-- Whether a name has a value. -/
def contains (m : NameMap α) (name : String) : Bool := (m.get? name).isSome

/-- Gives a name the value that `change` makes of the value it had. -/
def update (m : NameMap α) (name : String) (change : Option α → α) : NameMap α :=
  ⟨updateEntries name change m.entries, increasing_updateEntries name change m.increasing⟩

/-- Gives a name a value. -/
def insert (m : NameMap α) (name : String) (value : α) : NameMap α := m.update name fun _ => value

/-- Takes a name away. -/
def erase (m : NameMap α) (name : String) : NameMap α :=
  ⟨m.entries.filter (·.1 != name), m.increasing.filter _⟩

/-! ## The view -/

@[simp] theorem get?_empty (name : String) : (empty : NameMap α).get? name = none := rfl

/-- What is found first is the entry of that name. -/
theorem lookup_entry_cons (name other : String) (value : α) (rest : List (String × α)) :
    ((other, value) :: rest).lookup name =
      if name = other then some value else rest.lookup name := by
  rw [List.lookup_cons]
  by_cases h : name = other
  · simp [h]
  · simp [h, beq_eq_false_iff_ne.mpr h]

/-- A name before all others is not found. -/
theorem lookup_eq_none_of_lt {name : String} {entries : List (String × α)}
    (h : ∀ e ∈ entries, name < e.1) : entries.lookup name = none := by
  refine List.lookup_eq_none_iff.mpr fun e he => ?_
  refine bne_iff_ne.mpr ?_
  rintro rfl
  exact String.lt_irrefl _ (h e he)

theorem lookup_updateEntries (name other : String) (change : Option α → α)
    {entries : List (String × α)} (h : entries.Pairwise fun a b => a.1 < b.1) :
    (updateEntries name change entries).lookup other =
      if other = name then some (change (entries.lookup name)) else entries.lookup other := by
  induction entries with
  | nil => simp [updateEntries, lookup_entry_cons]
  | cons head rest ih =>
    obtain ⟨key, value⟩ := head
    obtain ⟨hhead, hrest⟩ := List.pairwise_cons.mp h
    unfold updateEntries
    split
    · rename_i hlt
      have absent : ((key, value) :: rest).lookup name = none :=
        lookup_eq_none_of_lt fun e he => by
          rcases List.mem_cons.mp he with rfl | he
          · exact hlt
          · exact String.lt_trans hlt (hhead e he)
      rw [absent, lookup_entry_cons]
    · split
      · rename_i heq
        subst heq
        simp only [lookup_entry_cons]
        split <;> rfl
      · rename_i hne
        simp only [lookup_entry_cons, ih hrest, hne, if_false]
        split
        · rename_i ho
          rw [if_neg (ho ▸ Ne.symm hne)]
        · rfl

/-- A change shows at its name only. -/
theorem get?_update (m : NameMap α) (name other : String) (change : Option α → α) :
    (m.update name change).get? other =
      if other = name then some (change (m.get? name)) else m.get? other :=
  lookup_updateEntries name other change m.increasing

/-- The last value given to a name is its value. -/
theorem get?_insert (m : NameMap α) (name other : String) (value : α) :
    (m.insert name value).get? other = if other = name then some value else m.get? other :=
  get?_update m name other _

/-- A name that is taken away has no value, and no other name is touched. -/
theorem get?_erase (m : NameMap α) (name other : String) :
    (m.erase name).get? other = if other = name then none else m.get? other := by
  show (m.entries.filter _).lookup other = _
  unfold get?
  generalize m.entries = entries
  induction entries with
  | nil => simp
  | cons head rest ih =>
    obtain ⟨key, value⟩ := head
    by_cases hk : key = name
    · subst hk
      simp only [bne_self_eq_false, Bool.false_eq_true, not_false_eq_true, List.filter_cons_of_neg,
        ih, lookup_entry_cons]
      split <;> simp_all
    · have keep : (key != name) = true := by simpa using hk
      simp only [keep, List.filter_cons_of_pos, ih, lookup_entry_cons]
      split
      · rename_i ho
        rw [if_neg (ho ▸ hk)]
      · rfl

/-- An entry is what is found under its name. -/
theorem get?_eq_some_iff {m : NameMap α} {name : String} {value : α} :
    m.get? name = some value ↔ (name, value) ∈ m.entries := by
  obtain ⟨entries, h⟩ := m
  simp only [get?]
  induction entries with
  | nil => simp
  | cons head rest ih =>
    obtain ⟨key, v⟩ := head
    obtain ⟨hhead, hrest⟩ := List.pairwise_cons.mp h
    have ih := ih hrest
    rw [lookup_entry_cons, List.mem_cons, Prod.mk.injEq]
    by_cases hk : name = key
    · subst hk
      have absent : (name, value) ∉ rest := fun he => String.lt_irrefl _ (hhead (name, value) he)
      simp [absent, eq_comm]
    · simp [ih, hk]

end NameMap

/-- A set of names. -/
abbrev NameSet := NameMap Unit

namespace NameSet

/-- The set with one more name. -/
def add (s : NameSet) (name : String) : NameSet := s.insert name ()

/-- The set with several more names. -/
def addAll (s : NameSet) (names : List String) : NameSet := names.foldl add s

/-- The set of the names in a list. -/
def ofList (names : List String) : NameSet := addAll .empty names

/-- A name is in the set once it has been added, and not before. -/
theorem contains_addAll (s : NameSet) (names : List String) (name : String) :
    (s.addAll names).contains name = (names.contains name || s.contains name) := by
  induction names generalizing s with
  | nil => simp [addAll]
  | cons head rest ih =>
    have := ih (s.add head)
    simp only [addAll, List.foldl_cons] at this ⊢
    rw [this]
    by_cases h : name = head
    · simp [NameMap.contains, add, NameMap.get?_insert, h]
    · simp [NameMap.contains, add, NameMap.get?_insert, h]

end NameSet

end StateMarkup
