import StateMarkup.Proofs.Node.Texts
import StateMarkup.Proofs.Schema.Survey

/-!
# What the rules see of bare text

The name of a text node is its text, and the rules look for three names without asking what kind of
node they find. `Node.masked` leaves of the texts of a tree only these words, which makes no
difference to the rules. So texts may be replaced as one likes as long as none of the words comes or
goes, and not otherwise (`Node.validate_edited_iff`).
-/

namespace StateMarkup

/-- The names that the rules look for among nodes of any kind. -/
def ruleWords : List String := [Tag.schema, Tag.states, Tag.events]

namespace Node

/-- A text as the rules see it. -/
def maskText (text : String) : String := if text ∈ ruleWords then text else ""

mutual

/-- A tree as the rules see it: of its texts only their words are left. The rest of the module says
that each of the rules sees the same in it. -/
def masked : Node → Node
  | ⟨kind, name, attributes, children⟩ =>
    ⟨kind, if kind = .text then maskText name else name, attributes, maskedAll children⟩

/-- Siblings as the rules see them. -/
def maskedAll : List Node → List Node
  | [] => []
  | n :: ns => n.masked :: maskedAll ns

end

/-- A word is left as it is, and nothing else becomes one. The empty text, which is put in the place
of the others, is no word. -/
theorem maskText_eq_iff {text word : String} (h : word ∈ ruleWords) :
    maskText text = word ↔ text = word := by
  rw [maskText]
  split
  · rfl
  · rename_i other
    constructor
    · rintro rfl
      exact absurd h (by decide)
    · rintro rfl
      exact absurd h other

/-- Texts of which the same words can be seen look the same. -/
theorem maskText_congr {text other : String} (same : KeepsWords ruleWords text (some other)) :
    maskText text = maskText other := by
  by_cases h : text ∈ ruleWords
  · obtain ⟨⟩ := (same text h).mp rfl
    rfl
  · have h' : other ∉ ruleWords := fun hother => h ((same other hother).mpr rfl ▸ hother)
    rw [maskText, maskText, if_neg h, if_neg h']

variable (n : Node)

theorem maskedAll_eq (ns : List Node) : maskedAll ns = ns.map masked := by
  induction ns with
  | nil => rfl
  | cons n ns ih => rw [maskedAll, ih, List.map_cons]

/-- All that masking does to a node. The next lemmas read it off part by part, and the definition is
not opened again. -/
theorem masked_eq :
    n.masked = ⟨n.kind, if n.kind = .text then maskText n.name else n.name, n.attributes,
      n.children.map masked⟩ := by
  obtain ⟨kind, name, attributes, children⟩ := n
  rw [masked, maskedAll_eq]

@[simp] theorem masked_kind : n.masked.kind = n.kind := by rw [masked_eq]

/-- Masking goes down to all children and leaves none of them out. -/
@[simp] theorem masked_children : n.masked.children = n.children.map masked := by rw [masked_eq]

/-- Only texts lose their names. -/
theorem masked_name_of_ne (h : n.kind ≠ .text) : n.masked.name = n.name := by
  rw [masked_eq]
  exact if_neg h

/-- The words of the rules are still the names of the same nodes, be they texts or not. -/
theorem masked_name_eq_iff {word : String} (h : word ∈ ruleWords) :
    n.masked.name = word ↔ n.name = word := by
  rw [masked_eq]
  dsimp only
  split
  · exact maskText_eq_iff h
  · rfl

@[simp] theorem isElement_masked : n.masked.isElement = n.isElement := by
  rw [isElement, isElement, masked_kind]

/-- The names of elements stay, so those that are declared as states do. -/
theorem masked_name_of_isElement (h : n.isElement = true) : n.masked.name = n.name := by
  refine masked_name_of_ne n ?_
  rw [beq_iff_eq.mp h]
  decide

theorem elementChildren_masked : n.masked.elementChildren = n.elementChildren.map masked := by
  simp [elementChildren, List.filter_map, Function.comp_def]

end Node

namespace Visit

/-- A visit as the rules see it. -/
def masked (v : Visit) : Visit := ⟨v.node.masked, v.parent.map Node.masked⟩

variable (v : Visit)

/-- What is met in a masked visit is the masked node. -/
theorem masked_node : v.masked.node = v.node.masked := rfl

/-- Whether a node stands right below the root depends on the kind of its parent only. -/
theorem isBelowRoot_masked : v.masked.isBelowRoot = v.isBelowRoot := by
  obtain ⟨node, parent⟩ := v
  cases parent <;> simp [masked, isBelowRoot]

/-- Whether it stands in a declared state depends on the name of its parent, which is an element
then and keeps its name. -/
theorem isInState_masked (declared : NameSet) :
    v.masked.isInState declared = v.isInState declared := by
  obtain ⟨node, parent⟩ := v
  cases parent with
  | none => rfl
  | some parent =>
    by_cases element : parent.isElement = true
    · simp [masked, isInState, element, Node.masked_name_of_isElement parent element]
    · simp [masked, isInState, element]

/-- The rules say the same of a node. They ask whether it has one of their words as its name,
whether it is an element with another name, and what it stands in. -/
theorem violations_masked (strict : Bool) (declared : NameSet) :
    v.masked.violations strict declared = v.violations strict declared := by
  have schema_iff := Node.masked_name_eq_iff v.node (show Tag.schema ∈ ruleWords by decide)
  have events_iff := Node.masked_name_eq_iff v.node (show Tag.events ∈ ruleWords by decide)
  have root : v.masked.checkRoot = v.checkRoot := by
    simp [checkRoot, masked, schema_iff]
  -- hooks are elements and wrong close tags are on marked nodes, and both keep their names
  have hooks : v.masked.checkHooks declared = v.checkHooks declared := by
    by_cases element : v.node.isElement = true
    · have name := Node.masked_name_of_isElement v.node element
      simp [checkHooks, isBelowRoot_masked, isInState_masked, masked_node, name]
    · simp [checkHooks, masked_node, element]
  have events : v.masked.checkEvents declared = v.checkEvents declared := by
    have name : (v.node.masked.name == Tag.events) = (v.node.name == Tag.events) := by
      rw [Bool.eq_iff_iff, beq_iff_eq, beq_iff_eq, events_iff]
    rw [checkEvents, checkEvents, isInState_masked, masked_node, name]
  have closed : v.masked.checkClosed = v.checkClosed := by
    by_cases unknown : v.node.kind = .unknown
    · have name := Node.masked_name_of_ne v.node (by rw [unknown]; decide)
      simp [checkClosed, masked_node, name]
    · simp [checkClosed, masked_node, unknown]
  rw [violations, violations, root, hooks, events, closed]

/-- A node declares the same states: it is asked whether it has one of the words for its name, and
for the names of elements in it. -/
theorem declares_masked : v.masked.declares = v.declares := by
  have states_iff := Node.masked_name_eq_iff v.node (show Tag.states ∈ ruleWords by decide)
  have names : (v.node.elementChildren.map Node.masked).map (·.name) =
      v.node.elementChildren.map (·.name) := by
    rw [List.map_map]
    refine List.map_congr_left fun child hchild => ?_
    exact Node.masked_name_of_isElement child (List.mem_filter.mp hchild).2
  simp only [declares, masked_node, states_iff, Node.elementChildren_masked, names]

end Visit

/-- A walk finds and declares the same, node by node. -/
theorem Survey.visitAll_masked (strict : Bool) (s : Survey) (visits : List Visit) :
    s.visitAll strict (visits.map Visit.masked) = s.visitAll strict visits := by
  have same (s : Survey) (v : Visit) : s.visit strict v.masked = s.visit strict v := by
    rw [visit, visit, Visit.declares_masked, Visit.violations_masked]
  rw [visitAll, visitAll, List.foldl_map]
  simp only [same]

/-- Levels can be changed node by node before they are put together or after. -/
theorem map_mergeLevels {α β : Type} (f : α → β) (left right : List (List α)) :
    (mergeLevels left right).map (List.map f) =
      mergeLevels (left.map (List.map f)) (right.map (List.map f)) := by
  fun_induction mergeLevels left right with
  | case1 right => rfl
  | case2 left _ => cases left <;> rfl
  | case3 l left r right ih => simp [mergeLevels, ih]

namespace Node

/-- What stands below several siblings is masked level by level if it is so for each of them. -/
theorem levelsOfAll_masked (parent : Option Node) {ns : List Node}
    (each : ∀ n ∈ ns, levelsBelow (parent.map masked) n.masked =
      (levelsBelow parent n).map (List.map Visit.masked)) :
    levelsOfAll (parent.map masked) (ns.map masked) =
      (levelsOfAll parent ns).map (List.map Visit.masked) := by
  induction ns with
  | nil => rfl
  | cons n ns ih =>
    obtain ⟨first, rest⟩ := List.forall_mem_cons.mp each
    rw [List.map_cons, levelsOfAll, levelsOfAll, map_mergeLevels, first, ih rest]

/-- The levels below a node are those of the tree, masked. This is an induction on the tree, with
the lemma above for the children. -/
theorem levelsBelow_masked (parent : Option Node) (n : Node) :
    levelsBelow (parent.map masked) n.masked =
      (levelsBelow parent n).map (List.map Visit.masked) := by
  induction n using induct generalizing parent with
  | node n ih =>
    have below := levelsOfAll_masked (some n) fun child hchild => ih child hchild (some n)
    rw [levelsBelow_eq, levelsBelow_eq, masked_children, List.map_cons, ← below]
    rfl

/-- The walk of a tree meets the same nodes, as the rules see them. -/
theorem breadthFirst_masked (root : Node) :
    root.masked.breadthFirst = root.breadthFirst.map Visit.masked := by
  have levels := levelsBelow_masked none root
  rw [Option.map_none] at levels
  rw [breadthFirst, breadthFirst, Node.levels, Node.levels, levels, List.map_flatten]

/-- No word is missed that was not missed before. -/
theorem missingNodes_masked (visits : List Visit) :
    missingNodes (visits.map Visit.masked) = missingNodes visits := by
  rw [missingNodes, missingNodes]
  refine congrArg _ (List.filter_congr fun name hname => ?_)
  have word : name ∈ ruleWords := List.mem_append_left [Tag.events] hname
  have same (v : Visit) : (v.masked.node.name == name) = (v.node.name == name) := by
    rw [Bool.eq_iff_iff, beq_iff_eq, beq_iff_eq, Visit.masked_node, masked_name_eq_iff _ word]
  simp only [List.any_map, Function.comp_def, same]

/-- **The rules see no more of a tree than is left of it.** All that they do is a walk over the
levels and a look for missing words. -/
theorem validate_masked (root : Node) (strict : Bool) :
    root.masked.validate strict = root.validate strict := by
  have missing := missingNodes_masked root.breadthFirst
  rw [validate, validate, survey, survey, breadthFirst_masked, Survey.visitAll_masked, missing]

section

variable {may : String → String → Prop}

/-- Replacing texts without a word that comes or goes does not show. Each step of the edit is one
sibling: a text that is replaced, or a node whose children are edited. -/
theorem EditedAll.masked_eq
    (keeps : ∀ text other, may text other → KeepsWords ruleWords text (some other))
    {parent : String} {ns ns' : List Node} (edited : EditedAll (.replacing may) parent ns ns') :
    ns.map masked = ns'.map masked := by
  induction edited with
  | nil _ => rfl
  | keep kind attributes _ _ below rest =>
    rw [List.map_cons, List.map_cons, rest, Node.masked_eq, Node.masked_eq, below]
  | replace attributes children allowed _ rest =>
    obtain ⟨_, ⟨⟩, allowed⟩ := allowed
    rw [List.map_cons, List.map_cons, rest, Node.masked_eq, Node.masked_eq]
    simp [maskText_congr (keeps _ _ allowed)]
  | remove attributes children allowed _ _ =>
    obtain ⟨_, ⟨⟩, -⟩ := allowed

/-- So it is for whole trees, whose root is no text. -/
theorem Edited.masked_eq
    (keeps : ∀ text other, may text other → KeepsWords ruleWords text (some other))
    {root root' : Node} (edited : root.Edited (.replacing may) root') :
    root'.masked = root.masked := by
  obtain ⟨kind, attributes, edited⟩ := edited
  rw [Node.masked_eq, Node.masked_eq, edited.masked_eq keeps]

end

/-! ## A tree that tells the words apart -/

/-- A tree with nothing in it but a text. All that the rules say of it hangs on this text, so it
shows that no word of theirs can be left out. -/
def lone (text : String) : Node := ⟨.root, "", [], texts (some text)⟩

/-- It could come from a document as far as its texts go. -/
theorem textsAreLeaves_lone (text : String) : (lone text).TextsAreLeaves :=
  textsAreLeaves_of_ne (by decide) (textsAreLeaves_texts (some text))

/-- Two nodes are met in it. -/
theorem breadthFirst_lone (text : String) :
    (lone text).breadthFirst = [⟨lone text, none⟩, ⟨.ofText text, some (lone text)⟩] := by
  simp [breadthFirst, levels, levelsBelow_eq, levelsOfAll, mergeLevels, lone, texts, ofText]

/-- What is wrong with it: the root has another name, the text may be a misplaced `Events`, and
words are missing. -/
theorem violations_lone (text : String) :
    ((lone text).survey false).violations =
      [.rootNotSchema] ++ (if text = Tag.events then [.misplacedEvents] else []) ++
        missingNodes (lone text).breadthFirst := by
  have root (declared : NameSet) :
      Visit.violations ⟨lone text, none⟩ false declared = [.rootNotSchema] := rfl
  have below (declared : NameSet) :
      Visit.violations ⟨.ofText text, some (lone text)⟩ false declared =
        if text = Tag.events then [.misplacedEvents] else [] := by
    simp [Visit.violations, Visit.checkRoot, Visit.checkHooks, Visit.checkEvents, Visit.isInState,
      lone, ofText, isElement]
  rw [survey, breadthFirst_lone]
  simp [Survey.visitAll, Survey.visit, Survey.init, root, below]

/-- A word that is required is missing exactly if the text is another. -/
theorem missingNode_mem_violations_lone {text word : String}
    (required : word ∈ [Tag.schema, Tag.states]) :
    .missingNode word ∈ ((lone text).survey false).violations ↔ text ≠ word := by
  have named : word ≠ "" := by
    rintro rfl
    exact absurd required (by decide)
  have misplaced : .missingNode word ∉
      if text = Tag.events then [Violation.misplacedEvents] else [] := by
    split <;> simp
  rw [violations_lone, missingNodes, breadthFirst_lone]
  have required : word = Tag.schema ∨ word = Tag.states := by simpa using required
  simp [misplaced, lone, ofText, named, required]

/-- The third word is misplaced exactly if it is the text. -/
theorem misplacedEvents_mem_violations_lone {text : String} :
    .misplacedEvents ∈ ((lone text).survey false).violations ↔ text = Tag.events := by
  rw [violations_lone, missingNodes]
  simp

/-- What the rules say of a lone text tells which of their words it is. So two texts of which they
say the same are the same word, or none. -/
theorem keepsWords_of_validate_lone {text other : String}
    (same : (lone other).validate false = (lone text).validate false) :
    KeepsWords ruleWords text (some other) := by
  have found (text : String) : (lone text).validate false =
      .error ((lone text).survey false).violations := by
    refine validate_eq_error_iff.mpr ⟨?_, rfl⟩
    rw [violations_lone]
    exact List.cons_ne_nil _ _
  rw [found, found, Except.error.injEq] at same
  intro word hword
  rw [Option.some.injEq]
  have cases_of_word : word ∈ [Tag.schema, Tag.states] ++ [Tag.events] := hword
  rcases List.mem_append.mp cases_of_word with required | events
  · rw [← Decidable.not_iff_not, ← ne_eq, ← ne_eq, ← missingNode_mem_violations_lone required,
      ← missingNode_mem_violations_lone required, same]
  · obtain rfl := List.mem_singleton.mp events
    rw [← misplacedEvents_mem_violations_lone, ← misplacedEvents_mem_violations_lone, same]

/-- **The words of the rules.** Replacing texts at will leaves the answer of the rules as it is,
declared states and violations, exactly if none of their words comes or goes. One direction goes
through what the rules see of a tree; the other asks them about a lone text. -/
theorem validate_edited_iff (may : String → String → Prop) :
    (∀ root root' : Node, root.TextsAreLeaves → root.Edited (.replacing may) root' →
        ∀ strict, root'.validate strict = root.validate strict) ↔
      ∀ text other, may text other → KeepsWords ruleWords text (some other) := by
  constructor
  · intro inert text other allowed
    have rule : TextRule.replacing may "" text (some other) := ⟨other, rfl, allowed⟩
    have edited : (lone text).Edited (.replacing may) (lone other) :=
      ⟨.root, [], EditedAll.texts_append rule []⟩
    exact keepsWords_of_validate_lone (inert _ _ (textsAreLeaves_lone text) edited false)
  · intro keeps root root' _ edited strict
    rw [← validate_masked root, ← validate_masked root', edited.masked_eq keeps]

end Node

end StateMarkup
