import StateMarkup.Proofs.NameMap
import StateMarkup.Proofs.Node.Siblings
import StateMarkup.Proofs.Schema.Walk

/-!
# What the order of siblings decides

The walk declares states on its way, so the rules of place ask for what was declared above and, on
the same level, before. Where a level asks for a name that it declares itself, and no level above it
does, the order of siblings decides what is found (`Node.UnsettledAt`, `Node.siblings_decide`).
Everything else is found in any order, and a tree in which nothing is unsettled is as valid as any
other with the same siblings (`Node.validate_reordered`).
-/

namespace StateMarkup

/-- True of what is found about the place of a node. -/
def Violation.isAboutPlace : Violation → Bool
  | .misplacedHooks | .misplacedEvents => true
  | _ => false

/-! ## What the rules of place ask for -/

namespace Visit

variable {v w : Visit} {strict : Bool} {declared declared' : NameSet} {name : String}

/-- True of hooks and events. -/
def needsPlace (v : Visit) : Bool :=
  v.node.name == Tag.events || v.node.isElement && (HookKind.ofTag? v.node.name).isSome

/-- The name that must be that of a state: hooks and events in an element ask for its name. Below
the root and below nodes of other kinds nothing is asked, since no set of names could help there. -/
def asksFor? (v : Visit) : Option String :=
  (v.parent.filter fun parent => parent.isElement && v.needsPlace).map (·.name)

/-- What asks for a name needs a place and stands in an element of that name. -/
theorem asksFor?_eq_some_iff :
    v.asksFor? = some name ↔ v.needsPlace = true ∧
      ∃ parent, v.parent = some parent ∧ parent.isElement = true ∧ parent.name = name := by
  simp only [asksFor?, Option.map_eq_some_iff, Option.filter_eq_some_iff, Bool.and_eq_true]
  constructor
  · rintro ⟨parent, ⟨there, element, needs⟩, named⟩
    exact ⟨needs, parent, there, element, named⟩
  · rintro ⟨needs, parent, there, element, named⟩
    exact ⟨parent, ⟨there, element, needs⟩, named⟩

/-- What asks for a name stands in a state exactly if that has been declared. -/
theorem isInState_of_asksFor (asks : v.asksFor? = some name) (declared : NameSet) :
    v.isInState declared = declared.contains name := by
  obtain ⟨-, parent, there, element, rfl⟩ := asksFor?_eq_some_iff.mp asks
  simp [isInState, there, element]

/-- It does not stand right below the root, so being in a state is the only way to be in place. -/
theorem isBelowRoot_of_asksFor (asks : v.asksFor? = some name) : v.isBelowRoot = false := by
  obtain ⟨-, parent, there, element, -⟩ := asksFor?_eq_some_iff.mp asks
  simp [isBelowRoot, there, beq_iff_eq.mp element]

/-- What needs a place and asks for nothing stands in no state. -/
theorem isInState_eq_false (needs : v.needsPlace = true) (asks : v.asksFor? = none)
    (declared : NameSet) : v.isInState declared = false := by
  cases there : v.parent with
  | none => simp [isInState, there]
  | some parent =>
    cases element : parent.isElement with
    | false => simp [isInState, there, element]
    | true =>
      rw [asksFor?_eq_some_iff.mpr ⟨needs, parent, there, element, rfl⟩] at asks
      cases asks

/-- What declares states asks for nothing itself: a node `States` is neither a hook nor events. So a
node that comes first and declares a name has not asked for it. -/
theorem asksFor?_eq_none_of_declares (declares : name ∈ v.declares) : v.asksFor? = none := by
  have plain : (Tag.states == Tag.events) = false ∧
      (HookKind.ofTag? Tag.states).isSome = false := by decide
  have states := (mem_declares_iff.mp declares).1
  simp [asksFor?, needsPlace, states, plain]

/-- The rules look at a set of names only for the one that is asked for. All that follows about the
order of siblings rests on this. -/
theorem violations_congr
    (same : ∀ name ∈ v.asksFor?, declared.contains name = declared'.contains name) :
    v.violations strict declared = v.violations strict declared' := by
  have places : v.checkHooks declared = v.checkHooks declared' ∧
      v.checkEvents declared = v.checkEvents declared' := by
    by_cases needs : v.needsPlace = true
    · have inside : v.isInState declared = v.isInState declared' := by
        cases asks : v.asksFor? with
        | none => rw [isInState_eq_false needs asks, isInState_eq_false needs asks]
        | some name =>
          rw [isInState_of_asksFor asks, isInState_of_asksFor asks, same name asks]
      rw [checkHooks, checkHooks, checkEvents, checkEvents, inside]
      exact ⟨rfl, rfl⟩
    · simp only [needsPlace, Bool.or_eq_true, not_or, Bool.not_eq_true] at needs
      simp [checkHooks, checkEvents, needs]
  rw [violations, violations, places.1, places.2]

/-- What the rules find that is not about places. It does not depend on any names. -/
def others (v : Visit) (strict : Bool) : List Violation :=
  v.checkRoot ++ if strict then v.checkClosed else []

/-- What the rules find is about places or about other things. -/
theorem mem_violations_iff {fault : Violation} :
    fault ∈ v.violations strict declared ↔
      fault ∈ v.checkHooks declared ++ v.checkEvents declared ∨ fault ∈ v.others strict := by
  simp only [violations, others, List.mem_append]
  tauto

/-- What the rules about hooks and events find is about places. -/
theorem isAboutPlace_of_mem {fault : Violation}
    (found : fault ∈ v.checkHooks declared ++ v.checkEvents declared) :
    fault.isAboutPlace = true := by
  unfold checkHooks checkEvents at found
  grind [Violation.isAboutPlace]

theorem not_isAboutPlace_of_mem {fault : Violation} (found : fault ∈ v.others strict) :
    fault.isAboutPlace = false := by
  unfold others checkRoot checkClosed at found
  grind [Violation.isAboutPlace]

/-- So taking away what is about places leaves what the other rules find. -/
theorem filter_violations (strict : Bool) (declared : NameSet) :
    (v.violations strict declared).filter (!·.isAboutPlace) = v.others strict := by
  have places : (v.checkHooks declared ++ v.checkEvents declared).filter (!·.isAboutPlace) = [] :=
    List.filter_eq_nil_iff.mpr fun fault found => by simp [isAboutPlace_of_mem found]
  have others : (v.others strict).filter (!·.isAboutPlace) = v.others strict :=
    List.filter_eq_self.mpr fun fault found => by simp [not_isAboutPlace_of_mem found]
  rw [violations, List.append_assoc v.checkRoot, List.filter_append, List.filter_append, places,
    List.append_nil, ← List.filter_append]
  exact others

/-- What asks for a name is out of place exactly if that is not declared. -/
theorem exists_isAboutPlace_iff (asks : v.asksFor? = some name) (strict : Bool)
    (declared : NameSet) :
    (∃ fault ∈ v.violations strict declared, fault.isAboutPlace = true) ↔
      declared.contains name = false := by
  have inside := isInState_of_asksFor asks declared
  constructor
  · rintro ⟨fault, found, about⟩
    refine Bool.eq_false_iff.mpr fun known => ?_
    rcases mem_violations_iff.mp found with found | found
    · simp [checkHooks, checkEvents, inside, known] at found
    · rw [not_isAboutPlace_of_mem found] at about
      cases about
  · intro unknown
    rw [unknown] at inside
    have needs := (asksFor?_eq_some_iff.mp asks).1
    rw [needsPlace, Bool.or_eq_true] at needs
    rcases needs with events | hooks
    · refine ⟨.misplacedEvents, mem_violations_iff.mpr (.inl (List.mem_append_right _ ?_)), rfl⟩
      simp [checkEvents, events, inside]
    · refine ⟨.misplacedHooks, mem_violations_iff.mpr (.inl (List.mem_append_left _ ?_)), rfl⟩
      simp [checkHooks, hooks, inside, isBelowRoot_of_asksFor asks]

/-! ## Nodes that are alike -/

namespace Alike

/-- Of two alike nodes neither has a parent, or both have, of the same kind and name. -/
theorem parents (alike : v.Alike w) :
    v.parent = none ∧ w.parent = none ∨ ∃ parent parent', v.parent = some parent ∧
      w.parent = some parent' ∧ parent.kind = parent'.kind ∧ parent.name = parent'.name := by
  have labels := alike.parent
  cases hv : v.parent with
  | none =>
    rw [hv] at labels
    exact .inl ⟨rfl, Option.map_eq_none_iff.mp labels.symm⟩
  | some parent =>
    rw [hv] at labels
    obtain ⟨parent', hw, label⟩ := Option.map_eq_some_iff.mp labels.symm
    obtain ⟨kind, name⟩ := Prod.mk.inj label
    exact .inr ⟨parent, parent', rfl, hw, kind.symm, name.symm⟩

theorem isBelowRoot_eq (alike : v.Alike w) : v.isBelowRoot = w.isBelowRoot := by
  rcases alike.parents with ⟨hv, hw⟩ | ⟨parent, parent', hv, hw, kind, -⟩
  · simp [isBelowRoot, hv, hw]
  · simp [isBelowRoot, hv, hw, kind]

theorem isInState_eq (alike : v.Alike w) (declared : NameSet) :
    v.isInState declared = w.isInState declared := by
  rcases alike.parents with ⟨hv, hw⟩ | ⟨parent, parent', hv, hw, kind, name⟩
  · simp [isInState, hv, hw]
  · simp [isInState, Node.isElement, hv, hw, kind, name]

/-- The rules say the same of both. They look at the kind and the name of a node and of its parent,
and that is what alike nodes have in common. -/
theorem violations_eq (alike : v.Alike w) (strict : Bool) (declared : NameSet) :
    v.violations strict declared = w.violations strict declared := by
  unfold violations checkRoot checkHooks checkEvents checkClosed Node.isElement
  rw [alike.node.kind_eq, alike.node.name_eq, alike.isBelowRoot_eq, alike.isInState_eq]

theorem asksFor?_eq (alike : v.Alike w) : v.asksFor? = w.asksFor? := by
  have needs : v.needsPlace = w.needsPlace := by
    simp only [needsPlace, Node.isElement, alike.node.kind_eq, alike.node.name_eq]
  rcases alike.parents with ⟨hv, hw⟩ | ⟨parent, parent', hv, hw, kind, name⟩
  · simp [asksFor?, hv, hw]
  · simp only [asksFor?, Node.isElement, hv, hw, kind, needs, Option.filter_some]
    split <;> simp [name]

/-- Both declare the same names, if maybe in another order. -/
theorem declares_perm (alike : v.Alike w) : v.declares.Perm w.declares := by
  obtain ⟨between, each, perm⟩ := alike.node.children
  have elements : (v.node.elementChildren.map (·.name)) =
      (between.filter Node.isElement).map (·.name) := by
    clear perm
    rw [Node.elementChildren]
    generalize v.node.children = children at each
    induction each with
    | nil => rfl
    | cons reordered _ ih =>
      rw [List.filter_cons, List.filter_cons, Node.isElement, reordered.kind_eq, ← Node.isElement]
      split
      · rw [List.map_cons, List.map_cons, reordered.name_eq, ih]
      · exact ih
  rw [declares, declares, alike.node.name_eq]
  split
  · rw [elements]
    exact (perm.filter _).map _
  · exact .refl _

end Alike

end Visit

/-! ## What the walk finds -/

namespace Survey

variable {strict : Bool} {s : Survey} {visits : List Visit} {name : String}

/-- What the walk finds of some of the nodes that it meets. All nodes count as met, but only those
that are kept are told of. -/
def found (strict : Bool) (keep : Visit → Bool) (s : Survey) : List Visit → List Violation
  | [] => []
  | v :: visits =>
    (if keep v then v.violations strict s.declared else []) ++
      (s.visit strict v).found strict keep visits

/-- What a walk adds to what was found is what it finds of all nodes. -/
theorem violations_visitAll (strict : Bool) (s : Survey) (visits : List Visit) :
    (s.visitAll strict visits).violations =
      s.violations ++ s.found strict (fun _ => true) visits := by
  induction visits generalizing s with
  | nil => simp [visitAll, found]
  | cons v visits ih => rw [visitAll_cons, ih, found, if_pos rfl, visit, List.append_assoc]

/-- All that is not about places is found in any case, whatever has been declared. -/
theorem filter_found (strict : Bool) (s : Survey) (visits : List Visit) :
    (s.found strict (fun _ => true) visits).filter (!·.isAboutPlace) =
      visits.flatMap (·.others strict) := by
  induction visits generalizing s with
  | nil => rfl
  | cons v visits ih =>
    rw [found, if_pos rfl, List.filter_append, Visit.filter_violations, ih, List.flatMap_cons]

/-- Where what is asked for is not declared on the way, unless it was known before, the rules might
as well ask for what was known before. The first hypothesis is the invariant of the walk: for what
is asked, its names and those known before agree. -/
theorem found_eq {keep : Visit → Bool} {known : NameSet}
    (same : ∀ v ∈ visits, keep v = true → ∀ name ∈ v.asksFor?,
      s.declared.contains name = known.contains name)
    (settled : ∀ v ∈ visits, keep v = true → ∀ name ∈ v.asksFor?,
      (∃ w ∈ visits, name ∈ w.declares) → known.contains name = true) :
    s.found strict keep visits =
      visits.flatMap fun v => if keep v then v.violations strict known else [] := by
  induction visits generalizing s with
  | nil => rfl
  | cons v visits ih =>
    have later : (s.visit strict v).found strict keep visits =
        visits.flatMap fun v => if keep v then v.violations strict known else [] := by
      refine ih (fun w hw kept name asks => ?_) fun w hw kept name asks ⟨u, hu, declares⟩ =>
        settled w (.tail _ hw) kept name asks ⟨u, .tail _ hu, declares⟩
      -- a name that the first node declares and a later one asks for was known before
      rw [visit, NameSet.contains_addAll, same w (.tail _ hw) kept name asks]
      cases here : v.declares.contains name with
      | false => rw [Bool.false_or]
      | true =>
        rw [Bool.true_or, settled w (.tail _ hw) kept name asks
          ⟨v, .head _, List.contains_iff_mem.mp here⟩]
    rw [found, later, List.flatMap_cons]
    split
    · rename_i kept
      rw [Visit.violations_congr (same v (.head _) kept)]
    · rfl

/-- What is found of a walk is found at one node, with what was declared by the nodes before it. -/
theorem exists_of_mem_found {keep : Visit → Bool} {fault : Violation}
    (hfault : fault ∈ s.found strict keep visits) :
    ∃ before v after, visits = before ++ v :: after ∧ keep v = true ∧
      fault ∈ v.violations strict (s.visitAll strict before).declared := by
  induction visits generalizing s with
  | nil => cases hfault
  | cons v visits ih =>
    rw [found, List.mem_append] at hfault
    rcases hfault with here | later
    · split at here
      · rename_i kept
        exact ⟨[], v, visits, rfl, kept, here⟩
      · cases here
    · obtain ⟨before, w, after, rfl, kept, later⟩ := ih later
      exact ⟨v :: before, w, after, rfl, kept, later⟩

end Survey

/-! ## Trees in another order -/

/-- The same verdict, if maybe with the violations in another order. -/
inductive SameVerdict :
    Except (List Violation) NameSet → Except (List Violation) NameSet → Prop where
  | valid (states : NameSet) : SameVerdict (.ok states) (.ok states)
  | invalid {found found' : List Violation} : found.Perm found' →
      SameVerdict (.error found) (.error found')

namespace Node

variable {root root' : Node} {strict : Bool} {depth : Nat} {name : String}

/-- What is known when the walk comes to the level. -/
def surveyAbove (root : Node) (strict : Bool) (depth : Nat) : Survey :=
  Survey.init.visitAll strict (root.above depth)

/-- What the walk finds on a level of the nodes that ask for the name, or for none. -/
def foundAt (root : Node) (strict : Bool) (depth : Nat) (asked : Option String) : List Violation :=
  (root.surveyAbove strict depth).found strict (·.asksFor? == asked) (root.levelAt depth)

/-- **Unsettled**: a level asks for a name that it declares itself, and no level above it does. All
three parts are about the tree and not about the walk, and none of them depends on the order of
siblings. -/
structure UnsettledAt (root : Node) (depth : Nat) (name : String) : Prop where
  asked : ∃ v ∈ root.levelAt depth, name ∈ v.asksFor?
  declared : ∃ v ∈ root.levelAt depth, name ∈ v.declares
  unknown : ¬ ∃ v ∈ root.above depth, name ∈ v.declares

/-- Nothing is unsettled in a tree. -/
def Settled (root : Node) : Prop := ∀ depth name, ¬ root.UnsettledAt depth name

instance (root : Node) : Decidable root.Settled :=
  decidable_of_iff
    (∀ depth ∈ List.range root.levels.length, ∀ v ∈ root.levelAt depth,
      ∀ name ∈ v.asksFor?.toList, (∃ w ∈ root.levelAt depth, name ∈ w.declares) →
        ∃ w ∈ root.above depth, name ∈ w.declares) <| by
    constructor
    · rintro known depth name ⟨⟨v, hv, asks⟩, declared, unknown⟩
      refine unknown (known depth (List.mem_range.mpr ?_) v hv name
        (Option.mem_toList.mpr asks) declared)
      by_contra deep
      simp [levelAt, Nat.not_lt.mp deep] at hv
    · intro settled depth _ v hv name asks declared
      by_contra unknown
      exact settled depth name ⟨⟨v, hv, Option.mem_toList.mp asks⟩, declared, unknown⟩

/-- What is known when the walk comes to a level is what the levels above it declare. -/
theorem contains_surveyAbove :
    (root.surveyAbove strict depth).declared.contains name = true ↔
      ∃ v ∈ root.above depth, name ∈ v.declares := by
  have nothing : Survey.init.declared.contains name = false := rfl
  rw [surveyAbove, Survey.contains_visitAll, nothing]
  simp

/-- The violations up to a level and those of the level make up those of the next. -/
theorem violations_surveyAbove_succ (root : Node) (strict : Bool) (depth : Nat) :
    (root.surveyAbove strict (depth + 1)).violations =
      (root.surveyAbove strict depth).violations ++
        (root.surveyAbove strict depth).found strict (fun _ => true) (root.levelAt depth) := by
  rw [surveyAbove, above_succ, Survey.visitAll_append, Survey.violations_visitAll]
  rfl

/-- At the end all levels have been walked, and only the missing nodes are added. -/
theorem survey_eq (root : Node) (strict : Bool) :
    root.survey strict =
      ⟨(root.surveyAbove strict root.levels.length).declared,
        (root.surveyAbove strict root.levels.length).violations ++
          missingNodes root.breadthFirst⟩ := by
  rw [surveyAbove, above_length]
  rfl

/-- What a level finds of nodes that ask for nothing unsettled is what it finds with all states
above it: whatever they ask for is known from above or not declared on the level at all. -/
theorem found_levelAt {keep : Visit → Bool} (settled : ∀ v ∈ root.levelAt depth, keep v = true →
      ∀ name ∈ v.asksFor?, ¬ root.UnsettledAt depth name) :
    (root.surveyAbove strict depth).found strict keep (root.levelAt depth) =
      (root.levelAt depth).flatMap fun v =>
        if keep v then v.violations strict (root.surveyAbove strict depth).declared else [] := by
  refine Survey.found_eq (fun _ _ _ _ _ => rfl) fun v hv kept name asks declares => ?_
  refine contains_surveyAbove.mpr (Classical.byContradiction fun unknown => ?_)
  exact settled v hv kept name asks ⟨⟨v, hv, asks⟩, declares, unknown⟩

namespace Reordered

variable (reordered : root.Reordered root')

include reordered

/-- The same names are known when the walk comes to a level, in whichever order. -/
theorem declared_surveyAbove (strict : Bool) (depth : Nat) :
    (root.surveyAbove strict depth).declared = (root'.surveyAbove strict depth).declared := by
  refine NameSet.eq_of_contains_iff fun name => ?_
  rw [contains_surveyAbove, contains_surveyAbove]
  exact (reordered.sameLevel_above depth).exists_mem_iff fun _ _ alike =>
    alike.declares_perm.mem_iff

/-- A name is unsettled in both orders or in neither. -/
theorem unsettledAt_iff : root.UnsettledAt depth name ↔ root'.UnsettledAt depth name := by
  have level := reordered.sameLevel depth
  have asked := level.exists_mem_iff (p := (name ∈ ·.asksFor?)) fun _ _ alike => by
    rw [alike.asksFor?_eq]
  have declared := level.exists_mem_iff (p := (name ∈ ·.declares)) fun _ _ alike =>
    alike.declares_perm.mem_iff
  have known := (reordered.sameLevel_above depth).exists_mem_iff (p := (name ∈ ·.declares))
    fun _ _ alike => alike.declares_perm.mem_iff
  constructor
  · rintro ⟨h, h', h''⟩
    exact ⟨asked.mp h, declared.mp h', mt known.mpr h''⟩
  · rintro ⟨h, h', h''⟩
    exact ⟨asked.mpr h, declared.mpr h', mt known.mp h''⟩

/-- Nodes that ask for nothing unsettled are told the same in any order. On both sides the rules
might as well ask for what is known from above, which is the same, and the nodes are alike one by
one. -/
theorem found_levelAt_perm {keep : Visit → Bool}
    (alike_kept : ∀ v w : Visit, v.Alike w → keep v = keep w)
    (settled : ∀ v : Visit, keep v = true → ∀ name ∈ v.asksFor?, ¬ root.UnsettledAt depth name) :
    ((root.surveyAbove strict depth).found strict keep (root.levelAt depth)).Perm
      ((root'.surveyAbove strict depth).found strict keep (root'.levelAt depth)) := by
  have settled' (v : Visit) (kept : keep v = true) (name : String) (asks : name ∈ v.asksFor?) :
      ¬ root'.UnsettledAt depth name :=
    mt reordered.unsettledAt_iff.mpr (settled v kept name asks)
  rw [found_levelAt fun v _ => settled v, found_levelAt fun v _ => settled' v,
    reordered.declared_surveyAbove]
  refine (reordered.sameLevel depth).flatMap_perm fun v w alike => ?_
  rw [alike_kept v w alike, alike.violations_eq]

/-- So it is with the nodes that ask for one name, if this is not unsettled. -/
theorem foundAt_perm {asked : Option String}
    (settled : ∀ name ∈ asked, ¬ root.UnsettledAt depth name) :
    (root.foundAt strict depth asked).Perm (root'.foundAt strict depth asked) := by
  refine reordered.found_levelAt_perm (fun v w alike => by rw [alike.asksFor?_eq]) ?_
  intro v asks name hname
  rw [eq_of_beq asks] at hname
  exact settled name hname

/-- In a tree where nothing is unsettled the violations up to any level are the same but for their
order. -/
theorem violations_surveyAbove_perm (settled : root.Settled) (strict : Bool) (depth : Nat) :
    (root.surveyAbove strict depth).violations.Perm
      (root'.surveyAbove strict depth).violations := by
  induction depth with
  | zero => exact .refl _
  | succ depth ih =>
    rw [violations_surveyAbove_succ, violations_surveyAbove_succ]
    exact ih.append (reordered.found_levelAt_perm (fun _ _ _ => rfl) fun _ _ name _ =>
      settled depth name)

/-- A node is missing in both orders or in neither. -/
theorem missingNodes_eq : missingNodes root.breadthFirst = missingNodes root'.breadthFirst := by
  have met (name : String) : root.breadthFirst.any (·.node.name == name) =
      root'.breadthFirst.any (·.node.name == name) := by
    rw [Bool.eq_iff_iff, List.any_eq_true, List.any_eq_true]
    exact reordered.sameLevel_breadthFirst.exists_mem_iff fun _ _ alike => by
      rw [alike.node.name_eq]
  simp only [missingNodes, met]

/-- The declared states do not depend on the order of siblings. -/
theorem declared_survey (strict : Bool) :
    (root.survey strict).declared = (root'.survey strict).declared := by
  rw [survey_eq, survey_eq, ← reordered.length_levels]
  exact reordered.declared_surveyAbove strict _

/-- What is not about places is found in any order, also in a tree with something unsettled. -/
theorem filter_survey_perm (strict : Bool) :
    ((root.survey strict).violations.filter (!·.isAboutPlace)).Perm
      ((root'.survey strict).violations.filter (!·.isAboutPlace)) := by
  rw [survey, survey, Survey.violations_visitAll, Survey.violations_visitAll, List.filter_append,
    List.filter_append, List.filter_append, List.filter_append, Survey.filter_found,
    Survey.filter_found, reordered.missingNodes_eq]
  refine .append_right _ (.append_left _ ?_)
  refine reordered.sameLevel_breadthFirst.flatMap_perm fun v w alike => ?_
  rw [← Visit.filter_violations strict .empty, alike.violations_eq, Visit.filter_violations]

/-- A tree in which nothing is unsettled gets the same verdict in any order. -/
theorem sameVerdict (settled : root.Settled) (strict : Bool) :
    SameVerdict (root.validate strict) (root'.validate strict) := by
  have perm : (root.survey strict).violations.Perm (root'.survey strict).violations := by
    rw [survey_eq, survey_eq, ← reordered.length_levels, reordered.missingNodes_eq]
    exact (reordered.violations_surveyAbove_perm settled strict _).append_right _
  rw [validate, validate, ← reordered.declared_survey strict, perm.isEmpty_eq]
  split
  · exact .valid _
  · exact .invalid perm

end Reordered

/-! ## Where the order decides -/

/-- A node that is asked for what nothing above it declares, and comes first, is out of place. -/
theorem exists_mem_foundAt_of_first {v : Visit} {rest : List Visit}
    (level : root.levelAt depth = v :: rest) (asks : v.asksFor? = some name)
    (unknown : ¬ ∃ v ∈ root.above depth, name ∈ v.declares) :
    ∃ fault ∈ root.foundAt strict depth (some name), fault.isAboutPlace = true := by
  have unknown : (root.surveyAbove strict depth).declared.contains name = false :=
    Bool.eq_false_iff.mpr (mt contains_surveyAbove.mp unknown)
  obtain ⟨fault, broken, about⟩ := (Visit.exists_isAboutPlace_iff asks strict _).mpr unknown
  refine ⟨fault, ?_, about⟩
  rw [foundAt, level, Survey.found, if_pos (by simp [asks])]
  exact List.mem_append_left _ broken

/-- If a node comes first that declares what is asked for, nothing that asks for it is out of
place. -/
theorem not_isAboutPlace_of_mem_foundAt {w : Visit} {rest : List Visit}
    (level : root.levelAt depth = w :: rest) (declares : name ∈ w.declares) {fault : Violation}
    (found : fault ∈ root.foundAt strict depth (some name)) : fault.isAboutPlace = false := by
  refine Bool.eq_false_iff.mpr fun about => ?_
  obtain ⟨before, v, after, split, asks, broken⟩ := Survey.exists_of_mem_found found
  have asks : v.asksFor? = some name := eq_of_beq asks
  have unknown := (Visit.exists_isAboutPlace_iff asks strict _).mp ⟨fault, broken, about⟩
  rw [level] at split
  cases before with
  | nil =>
    obtain ⟨rfl, -⟩ := List.cons.inj split
    rw [Visit.asksFor?_eq_none_of_declares declares] at asks
    cases asks
  | cons first before =>
    obtain ⟨rfl, -⟩ := List.cons.inj split
    rw [Survey.contains_visitAll.mpr (.inr ⟨w, .head _, declares⟩)] at unknown
    cases unknown

/-- **Where something is unsettled the order decides**: in one order a node is out of place, and in
another none is. Bring to the front of its level the node that asks, and it comes before all that
declare the name; bring there a node that declares it, and all that ask come behind. -/
theorem UnsettledAt.exists_orders (unsettled : root.UnsettledAt depth name) (strict : Bool) :
    ∃ first later, root.Reordered first ∧ root.Reordered later ∧
      (∃ fault ∈ first.foundAt strict depth (some name), fault.isAboutPlace = true) ∧
      ∀ fault ∈ later.foundAt strict depth (some name), fault.isAboutPlace = false := by
  obtain ⟨v, hv, asks⟩ := unsettled.asked
  obtain ⟨u, hu, declares⟩ := unsettled.declared
  obtain ⟨first, v', rest, reordered, level, alike⟩ := exists_reordered_first hv
  obtain ⟨later, u', rest', reordered', level', alike'⟩ := exists_reordered_first hu
  refine ⟨first, later, reordered, reordered', ?_, fun fault found => ?_⟩
  · exact exists_mem_foundAt_of_first level (alike.asksFor?_eq.symm.trans asks)
      (reordered.unsettledAt_iff.mp unsettled).unknown
  · exact not_isAboutPlace_of_mem_foundAt level' (alike'.declares_perm.mem_iff.mp declares) found

/-- **The order of siblings decides what is unsettled, and nothing else.** In any order a tree
declares the same states, and what is found in it, but for places, is the same; if nothing is
unsettled, the verdict is. What a level finds of the nodes that ask for a name, or of those that ask
for none, is the same in all orders exactly if the name is not unsettled there. -/
theorem validate_reordered (root : Node) (strict : Bool) :
    (∀ root', root.Reordered root' →
      (root.survey strict).declared = (root'.survey strict).declared ∧
      ((root.survey strict).violations.filter (!·.isAboutPlace)).Perm
        ((root'.survey strict).violations.filter (!·.isAboutPlace)) ∧
      (root.Settled → SameVerdict (root.validate strict) (root'.validate strict))) ∧
    ∀ depth asked,
      (∀ first later, root.Reordered first → root.Reordered later →
        (first.foundAt strict depth asked).Perm (later.foundAt strict depth asked)) ↔
      ∀ name ∈ asked, ¬ root.UnsettledAt depth name := by
  refine ⟨fun root' reordered => ⟨reordered.declared_survey strict,
    reordered.filter_survey_perm strict, fun settled => reordered.sameVerdict settled strict⟩,
    fun depth asked => ⟨fun same name hname unsettled => ?_, fun settled first later h h' => ?_⟩⟩
  · obtain rfl : asked = some name := hname
    obtain ⟨first, later, h, h', ⟨fault, found, about⟩, none_found⟩ :=
      unsettled.exists_orders strict
    rw [none_found fault ((same first later h h').mem_iff.mp found)] at about
    cases about
  · exact (h.foundAt_perm settled).symm.trans (h'.foundAt_perm settled)

/-- A schema that is turned round at three depths, with events out of place. -/
theorem validate_reordered_of_one :
    let misplaced : Node := ⟨.element, "Events", [], []⟩
    let a : Node := ⟨.element, "a", [], [misplaced, .element "OnStateSet"]⟩
    let a' : Node := ⟨.element, "a", [], [.element "OnStateSet", misplaced]⟩
    let tree : Node := ⟨.root, "Schema", [],
      [misplaced, ⟨.element, "States", [], [a, .element "b"]⟩]⟩
    let tree' : Node := ⟨.root, "Schema", [],
      [⟨.element, "States", [], [.element "b", a']⟩, misplaced]⟩
    tree.Reordered tree' ∧ tree.Settled ∧
      SameVerdict (tree.validate true) (tree'.validate true) ∧
      (tree.foundAt true 3 (some "a")).Perm (tree'.foundAt true 3 (some "a")) := by
  intro misplaced a a' tree tree'
  have turned : a.Reordered a' :=
    .mk _ _ _ (List.forall₂_same.mpr fun n _ => .refl n) (.swap ..)
  have reordered : tree.Reordered tree' :=
    .mk _ _ _ (.cons (.refl _) (.cons (.mk _ _ _ (.cons turned (.cons (.refl _) .nil)) (.swap ..))
      .nil)) (.swap ..)
  have settled : tree.Settled := by decide
  obtain ⟨same, exactly⟩ := validate_reordered tree true
  obtain ⟨-, -, verdict⟩ := same tree' reordered
  exact ⟨reordered, settled, verdict settled,
    (exactly 3 (some "a")).mpr (fun name _ => settled 3 name) tree tree' (.refl tree) reordered⟩

/-- A state that is declared beside its events: behind them it comes too late, before them it does
not. -/
theorem siblings_decide :
    let states : Node := ⟨.element, "States", [], [.element "x"]⟩
    let tree (children : List Node) : Node :=
      ⟨.root, "Schema", [], [⟨.element, "x", [], children⟩]⟩
    (tree [.element "Events", states]).Reordered (tree [states, .element "Events"]) ∧
      ∀ strict, (tree [.element "Events", states]).validate strict = .error [.misplacedEvents] ∧
        ∃ declared, (tree [states, .element "Events"]).validate strict = .ok declared ∧
          declared.contains "x" = true := by
  intro states tree
  refine ⟨.mk _ _ _ (.cons (.mk _ _ _ (List.forall₂_same.mpr fun n _ => .refl n) (.swap ..)) .nil)
    (.refl _), fun strict => ⟨?_, ?_⟩⟩
  · exact validate_eq_error_iff.mpr ⟨List.cons_ne_nil _ _, by cases strict <;> decide⟩
  · exact ⟨_, validate_eq_ok_iff.mpr ⟨by cases strict <;> decide, rfl⟩, by
      cases strict <;> decide⟩

end Node

end StateMarkup
