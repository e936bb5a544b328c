import StateMarkup.Proofs.HookKey
import StateMarkup.Proofs.Node.Visits
import StateMarkup.Schema.Placement
import StateMarkup.Schema.References

/-!
# What the checks of a tree find

A survey only grows: it knows a name as a state once it has met a node that declares it
(`Survey.contains_visitAll`), and each node adds its violations behind those found before. So the
states of a valid tree are the elements in its `States` nodes, wherever these stand
(`Node.contains_validate_iff`).
-/

namespace StateMarkup

/-! ## A result or all violations -/

section

variable {α : Type} {a b : α} {violations found : List Violation}

/-- Both checks of a tree end alike: with a result if nothing has been found, else with all that has
been found. This is the first half, for success; `α` is the set of declared states for the one check
and `Unit` for the other. -/
theorem Violation.ok_iff_of_isEmpty :
    (if violations.isEmpty then Except.ok a else .error violations) = .ok b ↔
      violations = [] ∧ a = b := by
  cases violations <;> simp

/-- The second half: an error is never empty, and it holds everything that has been found. Whatever
is said below about an error of a check is said through this lemma. -/
theorem Violation.error_iff_of_isEmpty :
    (if violations.isEmpty then Except.ok a else .error violations) = .error found ↔
      found ≠ [] ∧ violations = found := by
  cases violations with
  | nil => simp [eq_comm]
  | cons first rest =>
    simp only [List.isEmpty_cons, Bool.false_eq_true, if_false, Except.error.injEq]
    refine (and_iff_right_of_imp ?_).symm
    rintro rfl
    exact List.cons_ne_nil first rest

end

/-! ## What is declared -/

namespace Survey

variable {strict : Bool} {s : Survey}

/-- A walk meets its first node and then, with what that one has declared, the others. All
inductions over a walk go by this equation. -/
theorem visitAll_cons (strict : Bool) (s : Survey) (v : Visit) (visits : List Visit) :
    s.visitAll strict (v :: visits) = (s.visit strict v).visitAll strict visits := rfl

/-- A walk can be cut anywhere: the second part of it starts with what is declared and found after
the first. -/
theorem visitAll_append (strict : Bool) (s : Survey) (before after : List Visit) :
    s.visitAll strict (before ++ after) = (s.visitAll strict before).visitAll strict after :=
  List.foldl_append

/-- Nodes that break no rule once some names are declared only add to what is declared. The rules of
a node depend on what is declared when it is met, so the induction carries along that the names stay
declared; what else has been declared by then does not matter to a clean node. -/
theorem visitAll_eq {names : List String} {visits : List Visit}
    (known : ∀ name ∈ names, s.declared.contains name = true)
    (clean : ∀ v ∈ visits, ∀ declared : NameSet, (∀ name ∈ names, declared.contains name = true) →
      v.violations strict declared = []) :
    s.visitAll strict visits =
      ⟨s.declared.addAll (visits.flatMap Visit.declares), s.violations⟩ := by
  induction visits generalizing s with
  | nil => rfl
  | cons v visits ih =>
    obtain ⟨first, others⟩ := List.forall_mem_cons.mp clean
    have still_known : ∀ name ∈ names, (s.visit strict v).declared.contains name = true := by
      intro name hname
      rw [visit, NameSet.contains_addAll, known name hname, Bool.or_true]
    rw [visitAll_cons, ih still_known others, visit, first _ known, List.append_nil,
      List.flatMap_cons, NameSet.addAll, NameSet.addAll, NameSet.addAll, List.foldl_append]

/-- A name is declared at the end of a walk if it was declared before, or by one of the nodes that
are met. The induction is on the nodes: each adds the names of its own children (`Visit.declares`),
and none takes a name away. -/
theorem contains_visitAll {visits : List Visit} {name : String} :
    (s.visitAll strict visits).declared.contains name = true ↔
      s.declared.contains name = true ∨ ∃ v ∈ visits, name ∈ v.declares := by
  induction visits generalizing s with
  | nil => simp [visitAll]
  | cons v visits ih =>
    simp only [visitAll_cons, ih, visit, NameSet.contains_addAll, Bool.or_eq_true,
      List.contains_iff_mem, List.mem_cons, exists_eq_or_imp, or_assoc, or_left_comm]

/-- What a walk has found was found before it or at one of its nodes, with whatever was declared by
then. This is all one needs to know of the walk where a kind of violation cannot occur at any node,
however much is declared. -/
theorem mem_violations_visitAll {visits : List Visit} {broken : Violation}
    (h : broken ∈ (s.visitAll strict visits).violations) :
    broken ∈ s.violations ∨ ∃ v ∈ visits, ∃ declared, broken ∈ v.violations strict declared := by
  induction visits generalizing s with
  | nil => exact .inl h
  | cons v visits ih =>
    rcases ih h with before | ⟨later, mem, found⟩
    · rcases List.mem_append.mp before with before | here
      · exact .inl before
      · exact .inr ⟨v, List.mem_cons_self, s.declared, here⟩
    · exact .inr ⟨later, List.mem_cons_of_mem v mem, found⟩

end Survey

/-- A node declares names only if it is named `States`, and then it declares the names of its
element children. Its kind plays no part in this. -/
theorem Visit.mem_declares_iff {v : Visit} {name : String} :
    name ∈ v.declares ↔
      v.node.name = Tag.states ∧ ∃ child ∈ v.node.elementChildren, child.name = name := by
  rw [declares]
  split
  · rename_i states
    simp [states]
  · rename_i other
    simp [other]

namespace Node

variable {root : Node} {strict : Bool}

/-- A tree is valid if its survey has found nothing, and the answer is then what the survey has
declared. -/
theorem validate_eq_ok_iff {states : NameSet} :
    root.validate strict = .ok states ↔
      (root.survey strict).violations = [] ∧ (root.survey strict).declared = states :=
  Violation.ok_iff_of_isEmpty

/-- A tree is refused with all that its survey has found, in the order in which it was found. -/
theorem validate_eq_error_iff {violations : List Violation} :
    root.validate strict = .error violations ↔
      violations ≠ [] ∧ (root.survey strict).violations = violations :=
  Violation.error_iff_of_isEmpty

/-- A tree declares a name as a state: the name of an element in a node `States`, wherever that
stands. -/
def Declares (root : Node) (name : String) : Prop :=
  ∃ n, root.Within n ∧ n.name = Tag.states ∧ ∃ child ∈ n.elementChildren, child.name = name

/-- What a tree declares is declared by a node that the walk meets. The walk goes by visits, which
know their parents; here it is brought back to the nodes within the tree, which is how
`Node.Declares` speaks. -/
theorem declares_iff {name : String} :
    root.Declares name ↔ ∃ v ∈ root.breadthFirst, name ∈ v.declares := by
  simp only [Visit.mem_declares_iff, Declares, ← exists_mem_breadthFirst_iff]
  constructor
  · rintro ⟨_, ⟨v, hv, rfl⟩, declares⟩
    exact ⟨v, hv, declares⟩
  · rintro ⟨v, hv, declares⟩
    exact ⟨v.node, ⟨v, hv, rfl⟩, declares⟩

/-- At the end of the walk the declared states are the names that the tree declares, in either mode
and also if rules are broken. -/
theorem contains_survey_iff {name : String} :
    (root.survey strict).declared.contains name = true ↔ root.Declares name := by
  have nothing : Survey.init.declared.contains name = false := rfl
  rw [survey, Survey.contains_visitAll, nothing, declares_iff]
  simp

/-- The states of a valid tree are the names that it declares. So what is known as a state does not
depend on the order of the walk, though the violations do. -/
theorem contains_validate_iff {states : NameSet} {name : String}
    (valid : root.validate strict = .ok states) :
    states.contains name = true ↔ root.Declares name := by
  obtain ⟨-, rfl⟩ := validate_eq_ok_iff.mp valid
  exact contains_survey_iff

end Node

/-! ## What names refer to -/

/-- The states that an event may lead to: its target, and its error state if it has one. -/
def Event.LeadsTo (event : Event) (target : String) : Prop :=
  event.target = target ∨ event.errorState = some target

/-- A state is clean if its name is no structural word and is not `state`: hooks of a state so named
would be kept under the keys that every state shares. -/
theorem State.referenceViolations_eq_nil_iff {state : State} :
    state.referenceViolations = [] ↔
      Tag.isStructural state.name = false ∧ state.name ≠ "state" := by
  simp [referenceViolations, HookKey.enterState_eq]

/-- An event is clean if its name is not `event`, for the same reason as with states, and if it has
a target and leads to declared states only. An event without an error state leads nowhere but to its
target. -/
theorem Event.referenceViolations_eq_nil_iff {event : Event} {state : String} {declared : NameSet} :
    event.referenceViolations state declared = [] ↔
      event.name ≠ "event" ∧ event.target ≠ "" ∧
        ∀ target, event.LeadsTo target → declared.contains target = true := by
  have named : (if HookKey.before event.name = HookKey.beforeEvent then
      [Violation.eventSharesKeys event.name state] else []) = [] ↔ event.name ≠ "event" := by
    simp [HookKey.beforeEvent_eq]
  have leads : (if event.target = "" then [Violation.noTarget event.name state]
      else if declared.contains event.target then []
      else [.undeclaredTarget event.name state event.target]) = [] ↔
        event.target ≠ "" ∧ declared.contains event.target = true := by
    by_cases nowhere : event.target = "" <;> simp [nowhere]
  rw [referenceViolations, List.append_eq_nil_iff, List.append_eq_nil_iff, named, leads]
  cases answer : event.errorState with
  | none => simp [LeadsTo, answer]
  | some target => simp [LeadsTo, answer, or_imp, forall_and, and_assoc]

namespace Schema

variable {schema : Schema} {declared : NameSet}

/-- The check of the references succeeds if no reference is wrong. -/
theorem checkReferences_eq_ok_iff :
    schema.checkReferences declared = .ok () ↔ schema.referenceViolations declared = [] :=
  Violation.ok_iff_of_isEmpty.trans (and_iff_left rfl)

/-- The check of the references fails with all the wrong ones, in the order of the document. -/
theorem checkReferences_eq_error_iff {violations : List Violation} :
    schema.checkReferences declared = .error violations ↔
      violations ≠ [] ∧ schema.referenceViolations declared = violations :=
  Violation.error_iff_of_isEmpty

/-- When nothing is wrong with the references: every state and every event is clean. An event is
looked at together with the state that tells of it, since its violations name this state. -/
theorem referenceViolations_eq_nil_iff :
    schema.referenceViolations declared = [] ↔
      (∀ state ∈ schema.states, Tag.isStructural state.name = false ∧ state.name ≠ "state") ∧
        ∀ told ∈ schema.events, told.2.name ≠ "event" ∧ told.2.target ≠ "" ∧
          ∀ target, told.2.LeadsTo target → declared.contains target = true := by
  simp only [referenceViolations, List.append_eq_nil_iff, List.flatMap_eq_nil_iff,
    State.referenceViolations_eq_nil_iff, Event.referenceViolations_eq_nil_iff]

/-- The strict rules let events lead to declared states only. -/
theorem contains_of_checkReferences (valid : schema.checkReferences declared = .ok ())
    {state : State} {event : Event} (hevent : (state, event) ∈ schema.events) {target : String}
    (leads : event.LeadsTo target) : declared.contains target = true := by
  have none_found := referenceViolations_eq_nil_iff.mp (checkReferences_eq_ok_iff.mp valid)
  exact (none_found.2 (state, event) hevent).2.2 target leads

end Schema

end StateMarkup
