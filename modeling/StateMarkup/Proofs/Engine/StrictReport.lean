import StateMarkup.Proofs.Engine.Compiled
import StateMarkup.Proofs.NameMap
import StateMarkup.Proofs.Schema.Walk

/-!
# What strict mode reports

Strict mode has two groups of rules: those about the tree, and those about what the names in its
schema refer to. The rules are obeyed exactly if nothing is found in either of them
(`Node.obeysStrictRules_iff`), and a document compiles in strict mode exactly if it obeys them. But
the second group is only looked at if the first finds nothing, so a document that breaks rules of
both is told about the first alone (`Engine.reported_in_full_iff`).
-/

namespace StateMarkup

/-! ## The strict rules -/

/-- A node stands right below the root, or in a node of its kind. -/
def Visit.InRoot (v : Visit) : Prop := ∃ parent, v.parent = some parent ∧ parent.kind = .root

/-- A node stands in an element whose name was declared before: a node `States` has been met with
an element of this name in it. -/
def Visit.InDeclared (v : Visit) (before : List Visit) : Prop :=
  ∃ parent, v.parent = some parent ∧ parent.kind = .element ∧
    ∃ w ∈ before, w.node.name = Tag.states ∧
      ∃ child ∈ w.node.elementChildren, child.name = parent.name

/-- **The strict rules**, those about the tree first, then those about names. What was declared
before is said by the nodes that were met before, without the checks and their sets of names. -/
structure Node.ObeysStrictRules (root : Node) : Prop where
  roots : ∀ n, root.Within n → n.kind = .root → n.name = Tag.schema
  hooks : ∀ before v after, root.breadthFirst = before ++ v :: after → v.node.kind = .element →
    ∀ kind : HookKind, v.node.name = kind.tag → v.InRoot ∨ v.InDeclared before
  events : ∀ before v after, root.breadthFirst = before ++ v :: after →
    v.node.name = Tag.events → v.InDeclared before
  closed : ∀ n, root.Within n → n.kind ≠ .unknown
  has_schema : ∃ n, root.Within n ∧ n.name = Tag.schema
  has_states : ∃ n, root.Within n ∧ n.name = Tag.states
  state_names : ∀ state ∈ (Schema.ofNode root).states,
    Tag.isStructural state.name = false ∧ state.name ≠ "state"
  event_names : ∀ told ∈ (Schema.ofNode root).events, told.2.name ≠ "event"
  targets : ∀ told ∈ (Schema.ofNode root).events, told.2.target ≠ "" ∧
    ∀ target, told.2.LeadsTo target → root.Declares target

/-- What a check has found. -/
def Violation.foundBy {α : Type} : Except (List Violation) α → List Violation
  | .error found => found
  | .ok _ => []

/-- A check has found what it would have failed with. -/
theorem Violation.foundBy_of_isEmpty {α : Type} {a : α} (found : List Violation) :
    foundBy (if found.isEmpty then .ok a else .error found) = found := by
  cases found <;> rfl

namespace Node

variable {root : Node} {strict : Bool}

/-- The names that a tree declares as states, whatever else is in it. -/
def declaredNames (root : Node) : NameSet :=
  .ofList (root.breadthFirst.flatMap Visit.declares)

/-- All that the strict rules find in a tree itself. -/
def treeViolations (root : Node) : List Violation := Violation.foundBy (root.validate true)

/-- All that the strict rules find in what the names of its schema refer to. -/
def nameViolations (root : Node) : List Violation :=
  Violation.foundBy ((Schema.ofNode root).checkReferences root.declaredNames)

/-- What a tree is told in strict mode: all that is found in it, or, if that is nothing, all that is
found about its names. -/
def firstViolations (root : Node) : List Violation :=
  if root.treeViolations = [] then root.nameViolations else root.treeViolations

/-- These are the names that the tree declares. -/
theorem contains_declaredNames_iff {name : String} :
    root.declaredNames.contains name = true ↔ root.Declares name := by
  rw [← NameMap.mem_names_iff, declaredNames, NameSet.mem_names_ofList, List.mem_flatMap,
    declares_iff]

/-- The walk ends with all names that are declared. -/
theorem declared_survey (root : Node) (strict : Bool) :
    (root.survey strict).declared = root.declaredNames :=
  NameSet.eq_of_contains_iff fun _ => contains_survey_iff.trans contains_declaredNames_iff.symm

/-- What is found in a tree is what its survey has found. -/
theorem treeViolations_eq (root : Node) : root.treeViolations = (root.survey true).violations :=
  Violation.foundBy_of_isEmpty _

/-- What is found about names is what the references break. -/
theorem nameViolations_eq (root : Node) :
    root.nameViolations = (Schema.ofNode root).referenceViolations root.declaredNames :=
  Violation.foundBy_of_isEmpty _

/-- Nothing is told exactly if there is nothing in either group. -/
theorem firstViolations_eq_nil_iff :
    root.firstViolations = [] ↔ root.treeViolations = [] ∧ root.nameViolations = [] := by
  rw [firstViolations]
  split <;> simp_all

/-- If one of the groups is empty, what is told is both of them. -/
theorem firstViolations_eq_append
    (one_group : root.treeViolations = [] ∨ root.nameViolations = []) :
    root.firstViolations = root.treeViolations ++ root.nameViolations := by
  rw [firstViolations]
  split <;> simp_all

/-- A node that is met stands in a declared state exactly if what was met before declares that. -/
theorem isInState_visitAll_iff {v : Visit} {before : List Visit} :
    v.isInState (Survey.init.visitAll strict before).declared = true ↔ v.InDeclared before := by
  have nothing : Survey.init.declared.contains = fun _ => false := rfl
  simp [Visit.isInState_iff, Visit.InDeclared, Survey.contains_visitAll, nothing,
    Visit.mem_declares_iff]

/-- The rules about the tree are obeyed exactly if nothing is found in it. -/
theorem treeViolations_eq_nil_iff :
    root.treeViolations = [] ↔
      (∀ before v after, root.breadthFirst = before ++ v :: after →
        v.violations true (Survey.init.visitAll true before).declared = []) ∧
      (∃ n, root.Within n ∧ n.name = Tag.schema) ∧ ∃ n, root.Within n ∧ n.name = Tag.states := by
  rw [treeViolations_eq, ← exists_validate_iff]
  simp [validate_eq_ok_iff]

/-- **The strict rules are obeyed exactly if nothing is found.** Each field of the rules is a part
of one of the two equivalences, for the tree and for the references, so the proof only sorts
them. -/
theorem obeysStrictRules_iff :
    root.ObeysStrictRules ↔ root.treeViolations = [] ∧ root.nameViolations = [] := by
  rw [treeViolations_eq_nil_iff, nameViolations_eq, Schema.referenceViolations_eq_nil_iff]
  simp only [Visit.violations_eq_nil_iff, Visit.isBelowRoot_iff, isInState_visitAll_iff,
    contains_declaredNames_iff]
  constructor
  · intro obeys
    refine ⟨⟨fun before v after split => ?_, obeys.has_schema, obeys.has_states⟩,
      obeys.state_names, fun told htold => ⟨obeys.event_names told htold, obeys.targets told htold⟩⟩
    have met : v ∈ root.breadthFirst := split ▸ List.mem_append_right _ List.mem_cons_self
    have within : root.Within v.node := exists_mem_breadthFirst_iff.mp ⟨v, met, rfl⟩
    exact ⟨obeys.roots _ within, obeys.hooks before v after split,
      obeys.events before v after split, fun _ => obeys.closed _ within⟩
  · rintro ⟨⟨clean, has_schema, has_states⟩, state_names, events⟩
    -- what is in the tree is met at some moment of the walk, and is clean then
    have each (n : Node) (within : root.Within n) :
        (n.kind = .root → n.name = Tag.schema) ∧ n.kind ≠ .unknown := by
      obtain ⟨v, met, rfl⟩ := exists_mem_breadthFirst_iff.mpr within
      obtain ⟨before, after, split⟩ := List.append_of_mem met
      obtain ⟨roots, -, -, closed⟩ := clean before v after split
      exact ⟨roots, closed trivial⟩
    exact ⟨fun n within => (each n within).1,
      fun before v after split => (clean before v after split).2.1,
      fun before v after split => (clean before v after split).2.2.1,
      fun n within => (each n within).2, has_schema, has_states, state_names,
      fun told htold => (events told htold).1, fun told htold => (events told htold).2⟩

end Node

/-! ## The two groups of messages -/

namespace Violation

/-- True of the second group. -/
def isAboutNames : Violation → Bool
  | .reservedState _ | .stateSharesKey _ | .eventSharesKeys _ _ | .noTarget _ _
  | .undeclaredTarget _ _ _ | .undeclaredErrorState _ _ _ => true
  | _ => false

/-- True of the wording of the second group: it starts with a state or an event. -/
def startsWithOwner (text : String) : Bool :=
  text.toList.head? == some 's' || text.toList.head? == some 'e'

/-- The two groups can be told apart by the first character of a message, whatever names are in
it. -/
theorem startsWithOwner_message (v : Violation) : startsWithOwner v.message = v.isAboutNames := by
  unfold startsWithOwner message
  cases v with
  | rootNotSchema => rfl
  | misplacedHooks => rfl
  | misplacedEvents => rfl
  | _ =>
    simp only [describeEvent, String.toList_append]
    rfl

/-- The wordings of the two groups differ. So a violation of one group cannot be told by a message
of the other. -/
theorem message_ne {tree name : Violation} (first : tree.isAboutNames = false)
    (second : name.isAboutNames = true) : tree.message ≠ name.message := by
  intro same
  rw [← startsWithOwner_message, same, startsWithOwner_message, second] at first
  cases first

end Violation

/-- What is found at a node is of the first group. -/
theorem Visit.not_isAboutNames_of_mem {v : Visit} {strict : Bool} {declared : NameSet}
    {broken : Violation} (found : broken ∈ v.violations strict declared) :
    broken.isAboutNames = false := by
  unfold violations checkRoot checkHooks checkEvents checkClosed at found
  grind [Violation.isAboutNames]

/-- What is wrong with a reference is of the second. -/
theorem Schema.isAboutNames_of_mem {schema : Schema} {declared : NameSet} {broken : Violation}
    (found : broken ∈ schema.referenceViolations declared) : broken.isAboutNames = true := by
  rcases List.mem_append.mp found with found | found
  · obtain ⟨state, -, found⟩ := List.mem_flatMap.mp found
    unfold State.referenceViolations at found
    grind [Violation.isAboutNames]
  · obtain ⟨⟨state, event⟩, -, found⟩ := List.mem_flatMap.mp found
    simp only [Event.referenceViolations] at found
    grind [Violation.isAboutNames]

namespace Node

variable {root : Node} {broken : Violation}

/-- All that is found in a tree is of the first group. -/
theorem not_isAboutNames_of_mem (found : broken ∈ root.treeViolations) :
    broken.isAboutNames = false := by
  rw [treeViolations_eq, survey, List.mem_append] at found
  rcases found with found | missing
  · obtain before | ⟨v, -, declared, found⟩ := Survey.mem_violations_visitAll found
    · cases before
    · exact Visit.not_isAboutNames_of_mem found
  · obtain ⟨name, -, rfl⟩ := List.mem_map.mp missing
    rfl

/-- All that is found about its names is of the second. -/
theorem isAboutNames_of_mem (found : broken ∈ root.nameViolations) :
    broken.isAboutNames = true := by
  rw [nameViolations_eq] at found
  exact Schema.isAboutNames_of_mem found

end Node

/-! ## What is reported -/

/-- A compilation fails, and among its messages are those of all the violations. -/
def Compilation.ListsAll (c : Compilation) (violations : List Violation) : Prop :=
  ∃ found, c.result = .error (.violations found) ∧
    ∀ violation ∈ violations, violation.message ∈ found.map Violation.message

namespace Engine

variable {options : EngineOptions} {source : String} {document : Document} {root : Node}

/-- In strict mode no engine is made of a tree in which something is found. If it is found in the
tree itself, names are not looked at. -/
theorem ofNode_strict_eq_error_iff (strict : options.strict = true) {found : List Violation} :
    ofNode options root = .error found ↔
      found ≠ [] ∧ root.firstViolations = found := by
  have invalid : root.validate true = .error found ↔ found ≠ [] ∧ root.treeViolations = found := by
    rw [Node.validate_eq_error_iff, Node.treeViolations_eq]
  have references : (∃ states, root.validate true = .ok states ∧
      (Schema.ofNode root).checkReferences states = .error found) ↔
        root.treeViolations = [] ∧ found ≠ [] ∧ root.nameViolations = found := by
    simp only [Node.validate_eq_ok_iff, Node.declared_survey, and_assoc, exists_and_left,
      exists_eq_left', Schema.checkReferences_eq_error_iff, Node.treeViolations_eq,
      Node.nameViolations_eq]
  rw [ofNode_eq_error_iff, strict, invalid]
  simp only [true_and, references, Node.firstViolations]
  grind

/-- What breaks a strict rule fails, with the first of the two groups that has something in it. -/
theorem compile_strict_of_not_obeys (parsed : Document.parse source = .ok document)
    (strict : options.strict = true) (broken : ¬ document.root.ObeysStrictRules) :
    (compile options source).result = .error (.violations document.root.firstViolations) := by
  refine (compile_eq_error_iff parsed).mpr
    ⟨_, (ofNode_strict_eq_error_iff strict).mpr ⟨?_, rfl⟩, rfl⟩
  rwa [Ne, Node.firstViolations_eq_nil_iff, ← Node.obeysStrictRules_iff]

/-- If something is found about names, it is not told with what is found in the tree. -/
theorem exists_untold (second : root.nameViolations ≠ []) :
    ∃ violation ∈ root.nameViolations,
      violation.message ∉ root.treeViolations.map Violation.message := by
  obtain ⟨violation, hviolation⟩ := List.exists_mem_of_ne_nil _ second
  refine ⟨violation, hviolation, fun told => ?_⟩
  obtain ⟨other, hother, same⟩ := List.mem_map.mp told
  exact Violation.message_ne (Node.not_isAboutNames_of_mem hother)
    (Node.isAboutNames_of_mem hviolation) same

/-- **Strict mode fails for all that breaks a strict rule, and tells one group of violations.** A
document that can be read fails to compile in strict mode exactly if it breaks a strict rule. What
it is told is all that is found in its tree, or, if that is nothing, all that is found about its
names. So all that is wrong is listed exactly if one of the two groups is empty. -/
theorem reported_in_full_iff (parsed : Document.parse source = .ok document)
    (strict : options.strict = true) :
    ((∃ error, (compile options source).result = .error error) ↔
      ¬ document.root.ObeysStrictRules) ∧
    (∀ error, (compile options source).result = .error error →
      error = .violations document.root.firstViolations) ∧
    (¬ document.root.ObeysStrictRules →
      ((compile options source).ListsAll
          (document.root.treeViolations ++ document.root.nameViolations) ↔
        document.root.treeViolations = [] ∨ document.root.nameViolations = [])) := by
  have told (error : CompileError) (failed : (compile options source).result = .error error) :
      ¬ document.root.ObeysStrictRules := by
    obtain ⟨found, unmade, -⟩ := (compile_eq_error_iff parsed).mp failed
    obtain ⟨some_found, rfl⟩ := (ofNode_strict_eq_error_iff strict).mp unmade
    rwa [Node.obeysStrictRules_iff, ← Node.firstViolations_eq_nil_iff]
  refine ⟨⟨fun ⟨error, failed⟩ => told error failed, fun broken =>
    ⟨_, compile_strict_of_not_obeys parsed strict broken⟩⟩, fun error failed => ?_,
    fun broken => ⟨?_, fun one_group => ?_⟩⟩
  · have result := compile_strict_of_not_obeys parsed strict (told error failed)
    exact Except.error.inj (failed.symm.trans result)
  · rintro ⟨found, failed, all⟩
    -- if both groups have violations then one of the second has no message in the first
    by_contra both
    obtain ⟨first, second⟩ := not_or.mp both
    have result := compile_strict_of_not_obeys parsed strict broken
    rw [Node.firstViolations, if_neg first, failed] at result
    cases result
    obtain ⟨violation, hviolation, untold⟩ := exists_untold second
    exact untold (all violation (List.mem_append_right _ hviolation))
  · have result := compile_strict_of_not_obeys parsed strict broken
    rw [Node.firstViolations_eq_append one_group] at result
    exact ⟨_, result, fun violation => List.mem_map_of_mem⟩

/-- A state with a reserved name and an event without a target: both are told of. -/
theorem reported_in_full_of_names :
    let source := "<Schema><States><Task></Task><a><Events><Go></Go></Events></a></States></Schema>"
    ∃ document, Document.parse source = .ok document ∧ ¬ document.root.ObeysStrictRules ∧
      document.root.nameViolations = [.reservedState "Task", .noTarget "Go" "a"] ∧
      (∃ error, (compile ⟨true, true⟩ source).result = .error error) ∧
      (compile ⟨true, true⟩ source).ListsAll document.root.nameViolations := by
  intro source
  have reads : ∃ document, Document.parse source = .ok document ∧
      document.root.treeViolations = [] ∧
      document.root.nameViolations = [.reservedState "Task", .noTarget "Go" "a"] :=
    exists_of_toOption_any (by decide +kernel)
  obtain ⟨document, parsed, clean, names⟩ := reads
  have broken : ¬ document.root.ObeysStrictRules := by
    rw [Node.obeysStrictRules_iff, names]
    rintro ⟨-, ⟨⟩⟩
  obtain ⟨fails, -, lists⟩ := @reported_in_full_iff ⟨true, true⟩ source document parsed rfl
  have all := (lists broken).mpr (.inl clean)
  rw [clean, List.nil_append] at all
  exact ⟨document, parsed, broken, names, fails.mpr broken, all⟩

/-- Events out of place, and an event that leads to an undeclared state: only the first is told. -/
theorem names_untold :
    let source := "<Schema><Events></Events><States><a><Events>" ++
      "<Go targetState=\"b\"></Go></Events></a></States></Schema>"
    (∃ document, Document.parse source = .ok document ∧
      document.root.treeViolations = [.misplacedEvents] ∧
      document.root.nameViolations = [.undeclaredTarget "Go" "a" "b"]) ∧
    (compile ⟨true, true⟩ source).result = .error (.violations [.misplacedEvents]) ∧
    ¬ (compile ⟨true, true⟩ source).ListsAll
      ([.misplacedEvents] ++ [.undeclaredTarget "Go" "a" "b"]) := by
  intro source
  have fails : (compile ⟨true, true⟩ source).result = .error (.violations [.misplacedEvents]) :=
    eq_error_of_map_unit (by decide +kernel)
  refine ⟨exists_of_toOption_any (by decide +kernel), fails, ?_⟩
  rintro ⟨found, failed, all⟩
  obtain rfl : [.misplacedEvents] = found := by
    rw [fails] at failed
    cases failed
    rfl
  exact absurd (all (.undeclaredTarget "Go" "a" "b") (by simp)) (by decide +kernel)

end Engine

end StateMarkup
