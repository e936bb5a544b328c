import StateMarkup.Proofs.Engine.Compiled
import StateMarkup.Proofs.Schema.CloseTags

/-!
# What strict mode changes

In strict mode the walk over a tree has one more rule, about close tags, and the schema is checked
once more at the end. No rule looks at what others have found, so the walk without the additional
rule finds the same less what that rule finds (`Node.lenient_survey`). Thus strict mode rejects more
documents, and reports more about those that are rejected anyway, and is no different for all others
(`Engine.strict_only_rejects_more`).
-/

namespace StateMarkup

/-! ## Less the rule about close tags -/

/-- Where nothing is said about close tags there is nothing to take away. -/
theorem Violation.filter_eq_self {found : List Violation} (h : found.filterMap mismatch? = []) :
    found.filter (·.mismatch?.isNone) = found := by
  refine List.filter_eq_self.mpr fun violation hviolation => ?_
  rw [List.filterMap_eq_nil_iff.mp h violation hviolation]
  rfl

/-- Of what the additional rule finds nothing is left. -/
theorem Visit.filter_checkClosed (v : Visit) : v.checkClosed.filter (·.mismatch?.isNone) = [] := by
  unfold checkClosed
  split <;> rfl

/-- What is known but for what the rule about close tags has found. Taking that away commutes with
each step of the walk, and this is the whole argument. -/
def Survey.lenient (s : Survey) : Survey := ⟨s.declared, s.violations.filter (·.mismatch?.isNone)⟩

namespace Survey

variable (s : Survey)

/-- One step: the names that are declared do not depend on what has been found, and so the other
rules find the same in both modes. -/
theorem lenient_visit (v : Visit) : (s.visit true v).lenient = s.lenient.visit false v := by
  have others := Violation.filter_eq_self (v.mismatches_violations_false s.declared)
  rw [visit, visit, lenient, List.filter_append, Visit.violations_true, List.filter_append,
    Visit.filter_checkClosed, others, List.append_nil]
  rfl

theorem lenient_visitAll (visits : List Visit) :
    (s.visitAll true visits).lenient = s.lenient.visitAll false visits := by
  induction visits generalizing s with
  | nil => rfl
  | cons v visits ih => rw [visitAll_cons, visitAll_cons, ih, lenient_visit]

end Survey

namespace Node

variable {root : Node}

/-- **A walk without the strict rule** declares the same states, and finds what a walk with the rule
finds, in the same order, except for the wrong close tags. -/
theorem lenient_survey (root : Node) : (root.survey true).lenient = root.survey false := by
  have walked := Survey.lenient_visitAll .init root.breadthFirst
  obtain ⟨declared, violations⟩ := Survey.mk.inj walked
  have missing := Violation.filter_eq_self (mismatches_missingNodes root.breadthFirst)
  rw [survey, survey, Survey.lenient, List.filter_append, missing, declared, violations]
  rfl

/-- A tree that is valid in strict mode is valid, with the same states: if nothing is found in
strict mode then neither is less than that. -/
theorem validate_false_of_true {states : NameSet} (valid : root.validate true = .ok states) :
    root.validate false = .ok states := by
  obtain ⟨none_found, rfl⟩ := validate_eq_ok_iff.mp valid
  rw [validate_eq_ok_iff, ← lenient_survey, Survey.lenient, none_found]
  exact ⟨rfl, rfl⟩

/-- A tree that breaks rules breaks them in strict mode too, with the wrong close tags between. -/
theorem exists_validate_true_of_false {found : List Violation}
    (invalid : root.validate false = .error found) :
    ∃ all, root.validate true = .error all ∧ all.filter (·.mismatch?.isNone) = found := by
  obtain ⟨some_found, rfl⟩ := validate_eq_error_iff.mp invalid
  rw [← lenient_survey, Survey.lenient] at some_found ⊢
  refine ⟨_, validate_eq_error_iff.mpr ⟨?_, rfl⟩, rfl⟩
  intro none_found
  rw [none_found] at some_found
  exact some_found rfl

end Node

/-! ## More is rejected -/

namespace Engine

variable {root : Node} {fallback other : Bool}

/-- A tree of which an engine is made in strict mode gives the same engine without. The references
are not looked at then, and the tables never depend on the mode. -/
theorem ofNode_false_of_true {engine : Engine} (made : ofNode ⟨true, fallback⟩ root = .ok engine) :
    ofNode ⟨false, other⟩ root = .ok { engine with options := ⟨false, other⟩ } := by
  obtain ⟨states, valid, -, rfl⟩ := ofNode_eq_ok_iff.mp made
  refine ofNode_eq_ok_iff.mpr ⟨states, Node.validate_false_of_true valid, ?_, rfl⟩
  intro strict
  cases strict

/-- A tree of which no engine is made gives none in strict mode, for the same reasons and the wrong
close tags. -/
theorem exists_ofNode_true_of_false {found : List Violation}
    (failed : ofNode ⟨false, other⟩ root = .error found) :
    ∃ all, ofNode ⟨true, fallback⟩ root = .error all ∧
      all.filter (·.mismatch?.isNone) = found := by
  rcases ofNode_eq_error_iff.mp failed with invalid | ⟨_, _, strict, _⟩
  · obtain ⟨all, invalid, less⟩ := Node.exists_validate_true_of_false invalid
    exact ⟨all, ofNode_eq_error_iff.mpr (.inl invalid), less⟩
  · cases strict

/-- **Strict mode only rejects more.** What compiles in strict mode compiles without it, to the same
engine. What cannot be read without it cannot be read in strict mode either, with the same errors.
What breaks rules without it breaks them in strict mode too: all that is found without it is found
there in the same order, between wrong close tags and nothing else. -/
theorem strict_only_rejects_more (source : String) (fallback other : Bool) :
    (∀ engine, (compile ⟨true, fallback⟩ source).result = .ok engine →
      (compile ⟨false, other⟩ source).result = .ok { engine with options := ⟨false, other⟩ }) ∧
    (∀ errors, (compile ⟨false, other⟩ source).result = .error (.syntaxErrors errors) →
      (compile ⟨true, fallback⟩ source).result = .error (.syntaxErrors errors)) ∧
    ∀ found, (compile ⟨false, other⟩ source).result = .error (.violations found) →
      ∃ all, (compile ⟨true, fallback⟩ source).result = .error (.violations all) ∧
        all.filter (·.mismatch?.isNone) = found ∧
        (found.map Violation.message).Sublist (all.map Violation.message) := by
  refine ⟨fun engine compiled => ?_, fun errors failed => ?_, fun found failed => ?_⟩
  · obtain ⟨document, parsed, made⟩ := compile_eq_ok_iff.mp compiled
    exact compile_eq_ok_iff.mpr ⟨document, parsed, ofNode_false_of_true made⟩
  · exact compile_eq_syntaxErrors_iff.mpr (compile_eq_syntaxErrors_iff.mp failed)
  · cases parsed : Document.parse source with
    | error errors =>
      -- what cannot be read is not found to break rules
      have broken := failed.symm.trans (compile_eq_syntaxErrors_iff.mpr parsed)
      cases broken
    | ok document =>
      have unmade := (compile_eq_violations_iff parsed).mp failed
      obtain ⟨all, unmade, rfl⟩ := exists_ofNode_true_of_false unmade
      exact ⟨all, (compile_eq_violations_iff parsed).mpr unmade, rfl, List.filter_sublist.map _⟩

/-- A document that compiles, an empty one, and one with a wrong close tag between two other
faults. -/
theorem strict_only_rejects_more_of_three :
    let valid := "<Schema><States><a></a></States></Schema>"
    let invalid := "<Schema><Events></Other></Schema>"
    (∃ engine, (compile ⟨true, true⟩ valid).result = .ok engine ∧
      (compile ⟨false, true⟩ valid).result = .ok { engine with options := ⟨false, true⟩ }) ∧
    (compile ⟨true, true⟩ "").result = .error (.syntaxErrors [.emptyDocument]) ∧
    (compile ⟨false, true⟩ invalid).result =
      .error (.violations [.misplacedEvents, .missingNode "States"]) ∧
    ∃ all, (compile ⟨true, true⟩ invalid).result = .error (.violations all) ∧
      all.filter (·.mismatch?.isNone) = [.misplacedEvents, .missingNode "States"] ∧
      .mismatchedTag "Events" ∈ all := by
  intro valid invalid
  have compiles : ∃ engine, (compile ⟨true, true⟩ valid).result = .ok engine ∧
      engine.states.contains "a" = true := exists_of_compile_any (by decide +kernel)
  have unreadable : (compile ⟨false, true⟩ "").result = .error (.syntaxErrors [.emptyDocument]) :=
    eq_error_of_map_unit (by decide +kernel)
  have fails : (compile ⟨false, true⟩ invalid).result =
      .error (.violations [.misplacedEvents, .missingNode "States"]) :=
    eq_error_of_map_unit (by decide +kernel)
  have fails_strictly : (compile ⟨true, true⟩ invalid).result =
      .error (.violations [.misplacedEvents, .mismatchedTag "Events", .missingNode "States"]) :=
    eq_error_of_map_unit (by decide +kernel)
  obtain ⟨engine, compiled, -⟩ := compiles
  obtain ⟨all, found, less, -⟩ := (strict_only_rejects_more invalid true true).2.2 _ fails
  refine ⟨⟨engine, compiled, (strict_only_rejects_more valid true true).1 _ compiled⟩,
    (strict_only_rejects_more "" true true).2.1 _ unreadable, fails, all, found, less, ?_⟩
  rw [fails_strictly] at found
  cases found
  decide

end Engine

end StateMarkup
