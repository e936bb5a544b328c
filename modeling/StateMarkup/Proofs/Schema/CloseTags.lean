import Mathlib.Data.List.Perm.Basic
import StateMarkup.Proofs.Engine.Compiled
import StateMarkup.Proofs.Node.Reading
import StateMarkup.Proofs.Schema.Survey

/-!
# Wrong close tags

An element that is closed by another name is reported twice: by a warning when it is read, and by a
violation when its tree is checked in strict mode. In between there is only the mark on its node,
and the root has no room for it. So what strict mode reports are the warnings about all elements but
the root (`Engine.mismatches_reported_iff`).
-/

namespace StateMarkup

/-! ## Warnings about close tags -/

/-- The element that a warning is about, if its close tag was wrong. -/
def SyntaxWarning.mismatch? : SyntaxWarning → Option String
  | .mismatchedCloseTag opened _ _ => some opened
  | .skippedToken _ _ => none

/-- The elements that were closed by another name, in the order of their close tags. -/
def Document.mismatches (document : Document) : List String :=
  document.warnings.filterMap SyntaxWarning.mismatch?

namespace Node

mutual

/-- The elements in a tree that are marked, in the order of their close tags. -/
def unknowns : Node → List String
  | ⟨kind, name, _, children⟩ =>
    unknownsOfAll children ++ if kind = .unknown then [name] else []

/-- The same for several trees, one after the other. -/
def unknownsOfAll : List Node → List String
  | [] => []
  | n :: ns => n.unknowns ++ unknownsOfAll ns

end

theorem unknownsOfAll_eq (ns : List Node) : unknownsOfAll ns = ns.flatMap unknowns := by
  induction ns with
  | nil => rfl
  | cons n ns ih => rw [unknownsOfAll, ih, List.flatMap_cons]

/-- The marks in a tree that is not taken apart: those of its children, and its own behind them,
since an element is closed behind what is in it. -/
theorem unknowns_eq (n : Node) :
    n.unknowns = n.children.flatMap unknowns ++ if n.kind = .unknown then [n.name] else [] := by
  obtain ⟨kind, name, attributes, children⟩ := n
  rw [unknowns, unknownsOfAll_eq]

end Node

namespace OpenElement

variable (e : OpenElement)

/-- The marked elements in what has been read of an element. -/
def unknowns : List String := e.children.reverse.flatMap Node.unknowns

theorem unknowns_push (child : Node) : (e.push child).unknowns = e.unknowns ++ child.unknowns := by
  simp [unknowns, push]

theorem unknowns_pushText (word : String) : (e.pushText word).unknowns = e.unknowns := by
  obtain ⟨name, attributes, children⟩ := e
  unfold pushText
  split
  · rename_i before
    obtain rfl : children = _ := before
    simp [unknowns, Node.unknowns_eq]
  · simp [unknowns_push, Node.ofText, Node.unknowns_eq]

/-- An element that is closed gets a mark exactly if the names differ. -/
theorem unknowns_toNode (closed : String) :
    (e.toNode closed).unknowns = e.unknowns ++ if closed = e.name then [] else [e.name] := by
  rw [Node.unknowns_eq, toNode, unknowns]
  by_cases own : closed = e.name <;> simp [own]

end OpenElement

/-- What is skipped in a begin tag says nothing about its element's close tag. -/
theorem Opening.mismatches_warnings (o : Opening) :
    o.warnings.filterMap SyntaxWarning.mismatch? = [] := by
  refine List.filterMap_eq_nil_iff.mpr fun warning hwarning => ?_
  obtain ⟨literal, span, rfl⟩ := exists_skipped_of_mem_readAttributes hwarning
  rfl

/-- A close tag is warned of exactly if the names differ. -/
theorem Closing.mismatches_warnings (c : Closing) (opened : String) :
    (c.warnings opened).filterMap SyntaxWarning.mismatch? =
      if c.name = opened then [] else [opened] := by
  unfold Closing.warnings
  split <;> rfl

/-- The warnings about close tags in markup are the marks in what is made of it. The induction is on
the markup: the mark and the warning are made of the same two names, at the same close tag. -/
theorem Markup.unknowns_fill (m : Markup) (e : OpenElement) :
    (m.fill e).unknowns = e.unknowns ++ m.warnings.filterMap SyntaxWarning.mismatch? := by
  induction m generalizing e with
  | empty => simp [fill, warnings]
  | word before text span ih => rw [fill, OpenElement.unknowns_pushText, ih, warnings]
  | element before opening inner closing ihBefore ihInner =>
    have opened : opening.element.unknowns = [] := rfl
    rw [fill, OpenElement.unknowns_push, OpenElement.unknowns_toNode, ihBefore, ihInner, opened,
      fill_name]
    simp [warnings, Opening.mismatches_warnings, Closing.mismatches_warnings]

namespace Document

variable {source : String} {document : Document}

/-- The tokens of a text end with a close tag of the name. -/
def ClosedBy (source name : String) : Prop :=
  ∃ before literal span,
    (tokenize source).takeWhile (!·.token.isEof) = before ++ [⟨.closeTag literal, span⟩] ∧
    closeTagName literal = name

/-- The warnings about the close tags of a document that is one element. The root loses its kind
when the document is complete, and with it the mark, but the warning about it remains. -/
theorem mismatches_ofElement (opening : Opening) (inner : Markup) (closing : Closing) :
    (ofElement opening inner closing).mismatches =
      (ofElement opening inner closing).root.unknowns ++
        if closing.name = opening.element.name then [] else [opening.element.name] := by
  have marks : (ofElement opening inner closing).root.unknowns =
      (inner.fill opening.element).unknowns := by
    simp [Node.unknowns_eq, ofElement, Markup.node, OpenElement.toNode, OpenElement.unknowns]
  rw [marks, Markup.unknowns_fill, ← Closing.mismatches_warnings]
  simp [mismatches, ofElement, Opening.mismatches_warnings, OpenElement.unknowns, Opening.element]

/-- The warnings about close tags are the marks in the tree and, last of all, one about the root,
which has no mark. -/
theorem mismatches_eq (parsed : parse source = .ok document) :
    (ClosedBy source document.root.name → document.mismatches = document.root.unknowns) ∧
    (¬ ClosedBy source document.root.name →
      document.mismatches = document.root.unknowns ++ [document.root.name]) := by
  obtain ⟨opening, inner, closing, written, -, rfl⟩ := ofLexemes_eq_ok_iff.mp parsed
  have root_name : (ofElement opening inner closing).root.name = opening.element.name := by
    simp [ofElement, Markup.node, OpenElement.toNode]
  have closed_iff : ClosedBy source opening.element.name ↔ closing.name = opening.element.name := by
    rw [ClosedBy, ← written, Markup.lexemes_single]
    constructor
    · rintro ⟨before, literal, span, ends, named⟩
      obtain ⟨-, ends⟩ := List.append_inj' ends rfl
      cases ends
      exact named
    · intro named
      exact ⟨_, closing.literal, closing.span, rfl, named⟩
  rw [root_name, closed_iff, mismatches_ofElement]
  constructor
  · intro own
    rw [if_pos own, List.append_nil]
  · intro other
    rw [if_neg other]

end Document

/-! ## Violations about close tags -/

namespace Violation

/-- The element that a violation is about, if its close tag is wrong. -/
def mismatch? : Violation → Option String
  | .mismatchedTag name => some name
  | _ => none

/-- True of the wording of violations about close tags. -/
def isAboutCloseTag (text : String) : Bool :=
  "mismatched closing tag for <".toList.isPrefixOf text.toList

/-- Violations about close tags can be told by their wording from all others. Each kind of violation
is looked at by itself, since wordings have names in them. -/
theorem isAboutCloseTag_message (v : Violation) :
    isAboutCloseTag v.message = v.mismatch?.isSome := by
  unfold isAboutCloseTag message
  cases v with
  | rootNotSchema => rfl
  | misplacedHooks => rfl
  | misplacedEvents => rfl
  | _ =>
    simp only [describeEvent, String.toList_append]
    rfl

/-- So the messages with this wording are those of the violations about close tags, in order. -/
theorem filter_isAboutCloseTag (found : List Violation) :
    (found.map message).filter isAboutCloseTag =
      (found.filterMap mismatch?).map fun name => (mismatchedTag name).message := by
  induction found with
  | nil => rfl
  | cons v found ih =>
    rw [List.map_cons, List.filter_cons, isAboutCloseTag_message, ih, List.filterMap_cons]
    cases v <;> rfl

end Violation

/-- The mark of a node that is met. -/
def Visit.mark (v : Visit) : List String := if v.node.kind = .unknown then [v.node.name] else []

/-- Strict mode adds the rule about close tags behind the others. -/
theorem Visit.violations_true (v : Visit) (declared : NameSet) :
    v.violations true declared = v.violations false declared ++ v.checkClosed := by
  simp [violations]

/-- The rules of both modes say nothing about close tags. -/
theorem Visit.mismatches_violations_false (v : Visit) (declared : NameSet) :
    (v.violations false declared).filterMap Violation.mismatch? = [] := by
  have root : v.checkRoot.filterMap Violation.mismatch? = [] := by
    unfold checkRoot
    split <;> rfl
  have hooks : (v.checkHooks declared).filterMap Violation.mismatch? = [] := by
    unfold checkHooks
    split <;> rfl
  have events : (v.checkEvents declared).filterMap Violation.mismatch? = [] := by
    unfold checkEvents
    split <;> rfl
  simp [violations, root, hooks, events]

/-- In strict mode a node is reported for its close tag exactly if it has a mark. -/
theorem Visit.mismatches_violations (v : Visit) (declared : NameSet) :
    (v.violations true declared).filterMap Violation.mismatch? = v.mark := by
  have closed : v.checkClosed.filterMap Violation.mismatch? = v.mark := by
    unfold checkClosed mark
    split <;> rfl
  rw [violations_true, List.filterMap_append, mismatches_violations_false, closed, List.nil_append]

/-- A walk in strict mode reports the marks of the nodes that it meets. -/
theorem Survey.mismatches_visitAll (s : Survey) (visits : List Visit) :
    (s.visitAll true visits).violations.filterMap Violation.mismatch? =
      s.violations.filterMap Violation.mismatch? ++ visits.flatMap Visit.mark := by
  induction visits generalizing s with
  | nil => simp [visitAll]
  | cons v visits ih =>
    rw [visitAll_cons, ih, visit, List.filterMap_append, Visit.mismatches_violations,
      List.flatMap_cons, List.append_assoc]

namespace Node

/-- The nodes of a tree have the marks in it, each once. They are met in another order than their
close tags come in. -/
theorem marks_perm (parent : Option Node) (n : Node) :
    ((visitsBelow parent n).flatMap Visit.mark).Perm n.unknowns := by
  induction n using induct generalizing parent with
  | node n ih =>
    have below : ((n.children.flatMap (visitsBelow (some n))).flatMap Visit.mark).Perm
        (n.children.flatMap unknowns) := by
      rw [List.flatMap_assoc]
      exact List.Perm.flatMap_left _ fun child hchild => ih child hchild (some n)
    -- a node is met before what is below it, and closed after that
    rw [visitsBelow_eq, unknowns_eq, List.flatMap_cons]
    exact List.perm_append_comm.trans (below.append_right _)

/-- What is missing has no close tag. -/
theorem mismatches_missingNodes (visits : List Visit) :
    (missingNodes visits).filterMap Violation.mismatch? = [] := by
  refine List.filterMap_eq_nil_iff.mpr fun violation hviolation => ?_
  obtain ⟨name, -, rfl⟩ := List.mem_map.mp hviolation
  rfl

/-- The strict rules report every mark, and each once, in the order of the walk. -/
theorem mismatches_survey (root : Node) :
    ((root.survey true).violations.filterMap Violation.mismatch?).Perm root.unknowns := by
  rw [survey, List.filterMap_append, mismatches_missingNodes, List.append_nil,
    Survey.mismatches_visitAll]
  exact ((breadthFirst_perm root).flatMap_right _).trans (marks_perm none root)

end Node

/-- The rules about references say nothing about close tags. -/
theorem Schema.mismatches_referenceViolations (schema : Schema) (declared : NameSet) :
    (schema.referenceViolations declared).filterMap Violation.mismatch? = [] := by
  refine List.filterMap_eq_nil_iff.mpr fun violation hviolation => ?_
  rcases List.mem_append.mp hviolation with hviolation | hviolation
  · obtain ⟨state, -, hviolation⟩ := List.mem_flatMap.mp hviolation
    unfold State.referenceViolations at hviolation
    grind [Violation.mismatch?]
  · obtain ⟨⟨state, event⟩, -, hviolation⟩ := List.mem_flatMap.mp hviolation
    simp only [Event.referenceViolations] at hviolation
    grind [Violation.mismatch?]

/-! ## What is reported -/

/-- Among the messages of a failed compilation there is one about its close tag for each of the
elements, and no other such message. -/
def Compilation.Reports (c : Compilation) (elements : List String) : Prop :=
  ∃ found, c.result = .error (.violations found) ∧
    ((found.map Violation.message).filter Violation.isAboutCloseTag).Perm
      (elements.map fun name => "mismatched closing tag for <" ++ name ++ ">")

namespace Engine

variable {options : EngineOptions} {source : String} {document : Document} {root : Node}

/-- In strict mode a tree that fails does so with all its marks. If it fails in the walk they are
all found there; and if only its references are wrong then it has none. -/
theorem mismatches_ofNode (strict : options.strict = true) {found : List Violation}
    (failed : ofNode options root = .error found) :
    (found.filterMap Violation.mismatch?).Perm root.unknowns := by
  have marks := Node.mismatches_survey root
  rcases ofNode_eq_error_iff.mp failed with invalid | ⟨states, valid, -, references⟩
  · rw [strict] at invalid
    rw [(Node.validate_eq_error_iff.mp invalid).2] at marks
    exact marks
  · rw [strict] at valid
    rw [(Node.validate_eq_ok_iff.mp valid).1] at marks
    rw [← (Schema.checkReferences_eq_error_iff.mp references).2,
      Schema.mismatches_referenceViolations]
    exact marks

/-- A tree with a mark fails. -/
theorem exists_error_of_unknowns (strict : options.strict = true) (marked : root.unknowns ≠ []) :
    ∃ found, ofNode options root = .error found := by
  cases made : ofNode options root with
  | error found => exact ⟨found, rfl⟩
  | ok engine =>
    obtain ⟨states, valid, -, -⟩ := ofNode_eq_ok_iff.mp made
    have marks := Node.mismatches_survey root
    rw [strict] at valid
    rw [(Node.validate_eq_ok_iff.mp valid).1] at marks
    exact absurd marks.nil_eq.symm marked

/-- So what is compiled in strict mode reports the marks in its tree, if there are any. -/
theorem reports_unknowns (parsed : Document.parse source = .ok document)
    (strict : options.strict = true) (marked : document.root.unknowns ≠ []) :
    (compile options source).Reports document.root.unknowns := by
  obtain ⟨found, failed⟩ := exists_error_of_unknowns strict marked
  refine ⟨found, (compile_eq_violations_iff parsed).mpr failed, ?_⟩
  rw [Violation.filter_isAboutCloseTag]
  exact (mismatches_ofNode strict failed).map _

/-- No more is reported than there are marks. This is why a wrong close tag of the root cannot be
among what is reported. -/
theorem length_of_reports (parsed : Document.parse source = .ok document)
    (strict : options.strict = true) {elements : List String}
    (reports : (compile options source).Reports elements) :
    elements.length = document.root.unknowns.length := by
  obtain ⟨found, failed, told⟩ := reports
  have marks := mismatches_ofNode strict ((compile_eq_violations_iff parsed).mp failed)
  rw [Violation.filter_isAboutCloseTag] at told
  simpa [marks.length_eq] using told.length_eq.symm

/-- **Strict mode reports the wrong close tags inside the root**, one violation for each warning, at
any depth. It reports all that the reading has warned of exactly if the root itself is closed by its
name, since the last warning is about the root otherwise and no violation is. -/
theorem mismatches_reported_iff (parsed : Document.parse source = .ok document)
    (strict : options.strict = true) :
    (Document.ClosedBy source document.root.name →
      document.mismatches = document.root.unknowns) ∧
    (¬ Document.ClosedBy source document.root.name →
      document.mismatches = document.root.unknowns ++ [document.root.name]) ∧
    (document.root.unknowns ≠ [] → (compile options source).Reports document.root.unknowns) ∧
    (document.mismatches ≠ [] →
      ((compile options source).Reports document.mismatches ↔
        Document.ClosedBy source document.root.name)) := by
  obtain ⟨own, other⟩ := Document.mismatches_eq parsed
  refine ⟨own, other, reports_unknowns parsed strict, fun warned => ⟨fun reports => ?_, ?_⟩⟩
  · -- the warning about the root is one more than there are marks
    refine Classical.byContradiction fun unclosed => ?_
    have lengths := length_of_reports parsed strict reports
    rw [other unclosed, List.length_append, List.length_singleton] at lengths
    omega
  · intro closed
    rw [own closed] at warned ⊢
    exact reports_unknowns parsed strict warned

/-- Two wrong close tags at different depths, and both are reported. -/
theorem mismatches_reported_of_two :
    let source := "<Schema><States><a><Task></b></a><c></d></States></Schema>"
    ∃ document, Document.parse source = .ok document ∧ document.mismatches = ["Task", "c"] ∧
      (compile ⟨true, true⟩ source).Reports ["Task", "c"] := by
  intro source
  have reads : ∃ document, Document.parse source = .ok document ∧
      document.mismatches = ["Task", "c"] ∧ document.root.unknowns = ["Task", "c"] :=
    exists_of_toOption_any (by decide +kernel)
  obtain ⟨document, parsed, warned, marks⟩ := reads
  obtain ⟨-, -, reports, -⟩ := @mismatches_reported_iff ⟨true, true⟩ source document parsed rfl
  rw [marks] at reports
  exact ⟨document, parsed, warned, reports (List.cons_ne_nil _ _)⟩

/-- The root closed by another name: a warning, and an engine even in strict mode. -/
theorem root_mismatch_compiles :
    let source := "<Schema><States><a></a></States></Other>"
    (∃ document, Document.parse source = .ok document ∧ document.mismatches = ["Schema"]) ∧
      ∃ engine, (compile ⟨true, true⟩ source).result = .ok engine ∧
        engine.states.contains "a" = true :=
  ⟨exists_of_toOption_any (by decide +kernel), exists_of_compile_any (by decide +kernel)⟩

end Engine

end StateMarkup
