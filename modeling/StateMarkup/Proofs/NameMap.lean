import Mathlib.Data.List.Nodup
import StateMarkup.NameMap

/-!
# Maps as their views

The names of a map strictly increase, so they are those that have a value, each once. And a map is
nothing but what is found in it (`NameMap.eq_of_get?_eq`): there is one order in which its entries
can stand.
-/

namespace StateMarkup

universe u

namespace NameMap

variable {α : Type u} {m m' : NameMap α} {name : String}

/-- The names of a map strictly increase. This is the invariant that maps carry, seen from their
names. -/
theorem pairwise_names (m : NameMap α) : m.names.Pairwise (· < ·) :=
  List.pairwise_map.mpr m.increasing

/-- Each name stands in a map once: what strictly increases does not repeat. -/
theorem nodup_names (m : NameMap α) : m.names.Nodup := by
  refine m.pairwise_names.imp fun lt same => ?_
  rw [same] at lt
  exact String.lt_irrefl _ lt

/-- A name is in a map exactly if something is found under it. -/
theorem contains_iff : m.contains name = true ↔ ∃ value, m.get? name = some value :=
  Option.isSome_iff_exists

/-- The names of a map are those that have a value. With `contains_iff` this leads from a listing to
a look-up and back. -/
theorem mem_names_iff : name ∈ m.names ↔ m.contains name = true := by
  rw [contains_iff, names, List.mem_map]
  constructor
  · rintro ⟨⟨_, value⟩, hentry, rfl⟩
    exact ⟨value, get?_eq_some_iff.mpr hentry⟩
  · rintro ⟨value, found⟩
    exact ⟨(name, value), get?_eq_some_iff.mp found, rfl⟩

/-- **A map is what is found in it.** Maps with the same values have the same entries, and entries
that increase can stand in one order only; so two such lists are equal and not only permutations of
each other. -/
theorem eq_of_get?_eq (same : ∀ name, m.get? name = m'.get? name) : m = m' := by
  obtain ⟨entries, increasing⟩ := m
  obtain ⟨entries', increasing'⟩ := m'
  have distinct : entries.Nodup := .of_map _ (nodup_names ⟨entries, increasing⟩)
  have distinct' : entries'.Nodup := .of_map _ (nodup_names ⟨entries', increasing'⟩)
  have perm : entries.Perm entries' := by
    refine (List.perm_ext_iff_of_nodup distinct distinct').mpr ?_
    rintro ⟨name, value⟩
    have found := same name
    rw [← get?_eq_some_iff (m := ⟨entries, increasing⟩), found, get?_eq_some_iff]
  -- two entries that each come before the other would be smaller than themselves
  have order : entries = entries' :=
    perm.eq_of_pairwise (fun _ _ _ _ lt gt => absurd (String.lt_trans lt gt) (String.lt_irrefl _))
      increasing increasing'
  subst order
  rfl

end NameMap

namespace NameSet

/-- Sets of the same names are equal, since a set is a map to nothing in particular. -/
theorem eq_of_contains_iff {s s' : NameSet}
    (same : ∀ name, s.contains name = true ↔ s'.contains name = true) : s = s' := by
  refine NameMap.eq_of_get?_eq fun name => ?_
  have same := same name
  simp only [NameMap.contains] at same
  cases found : s.get? name <;> cases found' : s'.get? name <;> simp_all

/-- The set of a list has the names in it. -/
theorem mem_names_ofList {names : List String} {name : String} :
    name ∈ (ofList names).names ↔ name ∈ names := by
  rw [NameMap.mem_names_iff, ofList, contains_addAll]
  simp [NameMap.contains]

end NameSet

end StateMarkup
