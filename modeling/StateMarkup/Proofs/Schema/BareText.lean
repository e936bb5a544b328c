import StateMarkup.Proofs.Schema.RuleWords
import StateMarkup.Schema.OfNode

/-!
# What bare text does

Like the rules, a schema looks for some names without asking what kind of node it finds.
`Node.pruned` leaves out all texts of a tree that no such look-up finds, and the schema stays the
same. So of the texts of a document, those in tasks apart, nothing but the words that are looked for
makes a difference (`Document.bareText_inert_iff`).
-/

namespace StateMarkup

/-- The names that a schema looks for among nodes of any kind. Text named `Task` is found too, but
has no text in it. -/
def lookupWords : List String := [Tag.states, Tag.events] ++ HookKind.all.map HookKind.tag

namespace Node

/-- True of a text that nothing looks for below a parent of the given name. -/
def isIdle (parent : String) (n : Node) : Bool :=
  n.isText && n.children.isEmpty && parent != Tag.task && !lookupWords.contains n.name

mutual

/-- A tree without idle texts. The rest of the module says that a schema is read off it as
before. -/
def pruned : Node → Node
  | ⟨kind, name, attributes, children⟩ => ⟨kind, name, attributes, prunedAll name children⟩

/-- Siblings below a parent of the given name, without idle texts. -/
def prunedAll (parent : String) : List Node → List Node
  | [] => []
  | n :: ns => if n.isIdle parent then prunedAll parent ns else n.pruned :: prunedAll parent ns

end

variable {n : Node} {parent : String}

/-- All that pruning does to a node. The next lemmas read it off part by part. -/
theorem pruned_eq (n : Node) :
    n.pruned = ⟨n.kind, n.name, n.attributes, prunedAll n.name n.children⟩ := by
  obtain ⟨kind, name, attributes, children⟩ := n
  rw [pruned]

/-- Nodes stay of their kind, and so on for the next two parts. -/
@[simp] theorem pruned_kind (n : Node) : n.pruned.kind = n.kind := by rw [pruned_eq]

@[simp] theorem pruned_name (n : Node) : n.pruned.name = n.name := by rw [pruned_eq]

@[simp] theorem pruned_attributes (n : Node) : n.pruned.attributes = n.attributes := by
  rw [pruned_eq]

/-- Whether a text is idle is asked below the name of its parent. -/
@[simp] theorem pruned_children (n : Node) :
    n.pruned.children = prunedAll n.name n.children := by rw [pruned_eq]

/-- Four things make a text idle: it is a text, nothing stands in it, it is not in a task, and it is
none of the words. -/
theorem isIdle_iff :
    n.isIdle parent = true ↔
      n.kind = .text ∧ n.children = [] ∧ parent ≠ Tag.task ∧ n.name ∉ lookupWords := by
  simp [isIdle, isText, and_assoc]

/-- An idle text makes no difference among its siblings. What is edited is one such text after the
other. -/
theorem prunedAll_idle {text : String} {attributes : List Attribute} (outside : parent ≠ Tag.task)
    (unknown : text ∉ lookupWords) (ns : List Node) :
    prunedAll parent (⟨.text, text, attributes, []⟩ :: ns) = prunedAll parent ns := by
  have idle : isIdle parent ⟨.text, text, attributes, []⟩ = true :=
    isIdle_iff.mpr ⟨rfl, rfl, outside, unknown⟩
  rw [prunedAll, if_pos idle]

/-- What no idle text has is found in the same nodes. All look-ups of a schema are of this form, so
each of them needs only say why no idle text is found by it. -/
theorem filter_prunedAll {p : Node → Bool} (same : ∀ n : Node, p n.pruned = p n)
    (idle : ∀ n : Node, n.isIdle parent = true → p n = false) (ns : List Node) :
    (prunedAll parent ns).filter p = (ns.filter p).map pruned := by
  induction ns with
  | nil => rfl
  | cons n ns ih =>
    rw [prunedAll]
    split
    · rename_i hidle
      rw [ih, List.filter_cons_of_neg (by simp [idle n hidle])]
    · rw [List.filter_cons, List.filter_cons, same, ih]
      split <;> rfl

/-- What is looked for by a name is found in the same nodes. -/
theorem filter_named_prunedAll {word : String} (h : word ∈ lookupWords) (ns : List Node) :
    (prunedAll parent ns).filter (·.name == word) = (ns.filter (·.name == word)).map pruned := by
  refine filter_prunedAll (fun n => by rw [pruned_name]) (fun n hidle => ?_) ns
  obtain ⟨-, -, -, other⟩ := isIdle_iff.mp hidle
  refine beq_eq_false_iff_ne.mpr ?_
  rintro rfl
  exact other h

/-- The first child of such a name is the same, without what is idle in it. -/
theorem child?_pruned {word : String} (h : word ∈ lookupWords) :
    n.pruned.child? word = (n.child? word).map pruned := by
  rw [child?, child?, ← List.head?_filter, ← List.head?_filter, pruned_children,
    filter_named_prunedAll h, List.head?_map]

/-- The texts in tasks stay: what a task is called is a text in it. -/
theorem prunedAll_task (ns : List Node) : prunedAll Tag.task ns = ns.map pruned := by
  induction ns with
  | nil => rfl
  | cons n ns ih =>
    have busy : n.isIdle Tag.task = false := by simp [isIdle]
    rw [prunedAll, ih, if_neg (by simp [busy]), List.map_cons]

/-- So a task keeps its name. -/
theorem textContent?_pruned (task : n.name = Tag.task) :
    n.pruned.textContent? = n.textContent? := by
  have text (m : Node) : m.pruned.isText = m.isText := by rw [isText, isText, pruned_kind]
  rw [textContent?, textContent?, pruned_children, task, prunedAll_task, List.find?_map]
  simp only [Function.comp_def, text, Option.map_map, pruned_name]

/-- A container keeps the names of its tasks. A text called like a task may be dropped here, but it
has no text in it and gave no name before. -/
theorem taskNames_pruned (n : Node) : n.pruned.taskNames = n.taskNames := by
  rw [taskNames, taskNames, childrenNamed, childrenNamed, pruned_children]
  generalize n.name = parent
  induction n.children with
  | nil => rfl
  | cons child rest ih =>
    rw [prunedAll]
    by_cases task : child.name = Tag.task
    · split
      · rename_i hidle
        -- text named `Task` has no text in it
        have nothing : child.textContent? = none := by
          rw [textContent?, (isIdle_iff.mp hidle).2.1]
          rfl
        simp [task, ih, nothing]
      · simp [task, List.filterMap_cons, ih, textContent?_pruned task]
    · split <;> simp [task, ih]

/-- The last container of a kind of hooks is the same. -/
theorem hookTasks_pruned (n : Node) (kind : HookKind) :
    n.pruned.hookTasks kind = n.hookTasks kind := by
  have word : kind.tag ∈ lookupWords := by cases kind <;> decide
  rw [hookTasks, hookTasks, ← List.head?_filter, ← List.head?_filter, List.filter_reverse,
    List.filter_reverse, pruned_children, filter_named_prunedAll word, ← List.map_reverse,
    List.head?_map]
  cases (n.children.filter (·.name == kind.tag)).reverse.head? with
  | none => rfl
  | some container => exact taskNames_pruned container

/-- The elements among the children are the same, and in the next lemma those that are events. -/
theorem elementChildren_pruned (n : Node) :
    n.pruned.elementChildren = n.elementChildren.map pruned := by
  rw [elementChildren, elementChildren, pruned_children]
  refine filter_prunedAll (fun m => by rw [isElement, isElement, pruned_kind]) (fun m hidle => ?_) _
  obtain ⟨text, -⟩ := isIdle_iff.mp hidle
  rw [isElement, text]
  rfl

/-- The events in a container are the same, each of them pruned: texts are no events. -/
theorem filter_isEvent_pruned (n : Node) :
    n.pruned.children.filter isEvent = (n.children.filter isEvent).map pruned := by
  rw [pruned_children]
  refine filter_prunedAll (fun m => ?_) (fun m hidle => ?_) _
  · rw [isEvent, isEvent, isText, isText, pruned_kind, pruned_name]
  · obtain ⟨text, -⟩ := isIdle_iff.mp hidle
    rw [isEvent, isText, text]
    rfl

end Node

/-- Hooks, events and states are read as before; these lemmas go up from the parts to the whole. -/
theorem HookLists.ofNode_pruned (n : Node) : HookLists.ofNode n.pruned = .ofNode n := by
  simp only [ofNode, Node.hookTasks_pruned]

/-- An event is read the same without its texts, since those in tasks are not pruned. -/
theorem Event.ofNode_pruned (n : Node) : Event.ofNode n.pruned = .ofNode n := by
  simp only [ofNode, Node.pruned_name, Node.attribute?, Node.pruned_attributes,
    Node.taskNames_pruned]

theorem State.ofNode_pruned (n : Node) : State.ofNode n.pruned = .ofNode n := by
  rw [ofNode, ofNode, Node.pruned_name, HookLists.ofNode_pruned,
    Node.child?_pruned (show Tag.events ∈ lookupWords by decide)]
  cases n.child? Tag.events with
  | none => rfl
  | some events =>
    simp only [Option.map_some, Node.filter_isEvent_pruned, List.map_map, Function.comp_def,
      Event.ofNode_pruned]

/-- **The schema takes nothing of the texts that are left out.** -/
theorem Schema.ofNode_pruned (root : Node) : Schema.ofNode root.pruned = .ofNode root := by
  rw [ofNode, ofNode, HookLists.ofNode_pruned,
    Node.child?_pruned (show Tag.states ∈ lookupWords by decide)]
  cases root.child? Tag.states with
  | none => rfl
  | some states =>
    simp only [Option.map_some, Node.elementChildren_pruned, List.map_map, Function.comp_def,
      State.ofNode_pruned]

namespace Node

section

variable {may : String → Option String → Prop}

/-- What is done to texts without a word that comes or goes does not show. A text that is replaced
or taken away is either idle on both sides, or it is a word and stays the same one. -/
theorem EditedAll.prunedAll_eq (keeps : ∀ text other, may text other →
    KeepsWords lookupWords text other) {parent : String} {ns ns' : List Node}
    (edited : EditedAll (.outsideTasks may) parent ns ns') (leaves : ∀ n ∈ ns, n.TextsAreLeaves) :
    prunedAll parent ns = prunedAll parent ns' := by
  induction edited with
  | nil _ => rfl
  | @keep parent name children children' rest rest' kind attributes edited _ ihBelow ihRest =>
    obtain ⟨first, rest_leaves⟩ := List.forall_mem_cons.mp leaves
    obtain ⟨leaf, below⟩ := textsAreLeaves_iff.mp first
    -- a node that stays is idle in both trees or in none: a text has no children to be edited
    have idle : isIdle parent ⟨kind, name, attributes, children⟩ =
        isIdle parent ⟨kind, name, attributes, children'⟩ := by
      by_cases text : kind = .text
      · obtain rfl : children = [] := leaf text
        cases edited
        rfl
      · have element : (kind == NodeKind.text) = false := beq_eq_false_iff_ne.mpr text
        simp [isIdle, isText, element]
    have kept : pruned ⟨kind, name, attributes, children⟩ =
        pruned ⟨kind, name, attributes, children'⟩ := by
      rw [pruned, pruned, ihBelow below]
    rw [prunedAll, prunedAll, idle, kept, ihRest rest_leaves]
  | @replace parent text other rest rest' attributes children allowed _ ih =>
    obtain ⟨first, rest_leaves⟩ := List.forall_mem_cons.mp leaves
    obtain rfl : children = [] := (textsAreLeaves_iff.mp first).1 rfl
    obtain ⟨outside, allowed⟩ := allowed
    have same := keeps _ _ allowed
    -- a word has to stay, and of other texts neither the old one nor the new one is left
    by_cases known : text ∈ lookupWords
    · obtain ⟨⟩ := (same text known).mp rfl
      rw [prunedAll, prunedAll, ih rest_leaves]
    · have unknown : other ∉ lookupWords := fun h => known ((same other h).mpr rfl ▸ h)
      rw [prunedAll_idle outside known, prunedAll_idle outside unknown, ih rest_leaves]
  | @remove parent text rest rest' attributes children allowed _ ih =>
    obtain ⟨first, rest_leaves⟩ := List.forall_mem_cons.mp leaves
    obtain rfl : children = [] := (textsAreLeaves_iff.mp first).1 rfl
    obtain ⟨outside, allowed⟩ := allowed
    have unknown : text ∉ lookupWords := fun h => nomatch (keeps _ _ allowed text h).mp rfl
    rw [prunedAll_idle outside unknown, ih rest_leaves]

/-- So it is for whole trees. -/
theorem Edited.pruned_eq (keeps : ∀ text other, may text other → KeepsWords lookupWords text other)
    {root root' : Node} (edited : root.Edited (.outsideTasks may) root')
    (leaves : root.TextsAreLeaves) : root'.pruned = root.pruned := by
  obtain ⟨kind, attributes, edited⟩ := edited
  have below := (textsAreLeaves_iff.mp leaves).2
  rw [Node.pruned_eq, Node.pruned_eq, edited.prunedAll_eq keeps below]

end

/-! ## Trees that tell the words apart -/

/-- A text may stand before the states. If it is called like them, it is found in their place; in
the same way the next two trees lose their events or their hooks. -/
def beforeStates (text : Option String) : Node :=
  ⟨.root, "", [], texts text ++ [⟨.element, Tag.states, [], [.element ""]⟩]⟩

/-- A text may stand before the events of a state. -/
def beforeEvents (text : Option String) : Node :=
  ⟨.root, "", [], [⟨.element, Tag.states, [],
    [⟨.element, "", [], texts text ++ [⟨.element, Tag.events, [], [.element ""]⟩]⟩]⟩]⟩

/-- A text may stand behind a container of hooks. -/
def behindHooks (kind : HookKind) (text : Option String) : Node :=
  ⟨.root, "", [], ⟨.element, kind.tag, [], [⟨.element, Tag.task, [], texts (some "")⟩]⟩ ::
    texts text⟩

/-- Exactly the word for states takes the states away. -/
theorem states_beforeStates_eq_nil_iff (text : Option String) :
    (Schema.ofNode (beforeStates text)).states = [] ↔ text = some Tag.states := by
  cases text with
  | none => decide
  | some text =>
    by_cases h : text = Tag.states
    · obtain rfl := h
      decide
    · simp [Schema.ofNode, child?, beforeStates, texts, ofText, h, elementChildren, isElement,
        element]

/-- Exactly the word for events takes the events away. -/
theorem events_beforeEvents_eq_nil_iff (text : Option String) :
    (Schema.ofNode (beforeEvents text)).events = [] ↔ text = some Tag.events := by
  cases text with
  | none => decide
  | some text =>
    by_cases h : text = Tag.events
    · obtain rfl := h
      decide
    · have no_hook : HookKind.ofTag? "" = none := by decide
      simp [Schema.ofNode, Schema.events, State.ofNode, child?, beforeEvents, texts, ofText, h,
        elementChildren, isElement, element, isEvent, isText, no_hook]

/-- Exactly the name of the hooks takes their tasks away, since the last container of a name
counts. -/
theorem tasks_behindHooks_eq_nil_iff (kind : HookKind) (text : Option String) :
    (Schema.ofNode (behindHooks kind text)).hooks.tasks kind = [] ↔ text = some kind.tag := by
  have tasks (n : Node) : (Schema.ofNode n).hooks.tasks kind = n.hookTasks kind := by
    cases kind <;> rfl
  rw [tasks]
  cases text with
  | none => cases kind <;> decide
  | some text =>
    by_cases h : text = kind.tag
    · obtain rfl := h
      cases kind <;> decide
    · simp [hookTasks, behindHooks, texts, ofText, h, taskNames, childrenNamed, textContent?,
        isText]

/-- Texts are leaves in an element with nothing in it, and so they are in the three trees above,
which could all come from documents. -/
theorem textsAreLeaves_element (name : String) : (element name).TextsAreLeaves :=
  textsAreLeaves_of_ne (by decide) (List.forall_mem_nil _)

/-- The tree with a text before its states is like one that has been read. -/
theorem textsAreLeaves_beforeStates (text : Option String) :
    (beforeStates text).TextsAreLeaves := by
  have states : TextsAreLeaves ⟨.element, Tag.states, [], [.element ""]⟩ :=
    textsAreLeaves_of_ne (by decide) (List.forall_mem_singleton.mpr (textsAreLeaves_element ""))
  exact textsAreLeaves_of_ne (by decide) (List.forall_mem_append.mpr
    ⟨textsAreLeaves_texts text, List.forall_mem_singleton.mpr states⟩)

theorem textsAreLeaves_beforeEvents (text : Option String) :
    (beforeEvents text).TextsAreLeaves := by
  have events : TextsAreLeaves ⟨.element, Tag.events, [], [.element ""]⟩ :=
    textsAreLeaves_of_ne (by decide) (List.forall_mem_singleton.mpr (textsAreLeaves_element ""))
  have state : TextsAreLeaves
      ⟨.element, "", [], texts text ++ [⟨.element, Tag.events, [], [.element ""]⟩]⟩ :=
    textsAreLeaves_of_ne (by decide) (List.forall_mem_append.mpr
      ⟨textsAreLeaves_texts text, List.forall_mem_singleton.mpr events⟩)
  exact textsAreLeaves_of_ne (by decide) (List.forall_mem_singleton.mpr
    (textsAreLeaves_of_ne (by decide) (List.forall_mem_singleton.mpr state)))

theorem textsAreLeaves_behindHooks (kind : HookKind) (text : Option String) :
    (behindHooks kind text).TextsAreLeaves := by
  have task : TextsAreLeaves ⟨.element, Tag.task, [], texts (some "")⟩ :=
    textsAreLeaves_of_ne (by decide) (textsAreLeaves_texts (some ""))
  have container : TextsAreLeaves
      ⟨.element, kind.tag, [], [⟨.element, Tag.task, [], texts (some "")⟩]⟩ :=
    textsAreLeaves_of_ne (by decide) (List.forall_mem_singleton.mpr task)
  exact textsAreLeaves_of_ne (by decide)
    (List.forall_mem_cons.mpr ⟨container, textsAreLeaves_texts text⟩)

/-- **The words of a schema.** Replacing and taking away texts at will, but not in tasks, leaves the
schema of a tree as it is exactly if none of the words that it looks for comes or goes. One
direction goes through the tree without idle texts; for the other each word has a tree in which it
makes a difference. -/
theorem ofNode_edited_iff (may : String → Option String → Prop) :
    (∀ root root' : Node, root.TextsAreLeaves → root.Edited (.outsideTasks may) root' →
        Schema.ofNode root' = Schema.ofNode root) ↔
      ∀ text other, may text other → KeepsWords lookupWords text other := by
  constructor
  · intro inert text other allowed word hword
    have rule {parent : String} (outside : parent ≠ Tag.task) :
        TextRule.outsideTasks may parent text other := ⟨outside, allowed⟩
    rw [← Option.some_inj]
    rcases List.mem_append.mp hword with known | hook
    · rcases List.mem_cons.mp known with rfl | known
      · have edited : (beforeStates (some text)).Edited (.outsideTasks may) (beforeStates other) :=
          ⟨.root, [], EditedAll.texts_append (rule (by decide)) _⟩
        have same := inert _ _ (textsAreLeaves_beforeStates _) edited
        rw [← states_beforeStates_eq_nil_iff, ← states_beforeStates_eq_nil_iff, same]
      · obtain rfl := List.mem_singleton.mp known
        have edited : (beforeEvents (some text)).Edited (.outsideTasks may) (beforeEvents other) :=
          ⟨.root, [], .keep _ _ (.keep _ _ (EditedAll.texts_append (rule (by decide)) _) (.nil _))
            (.nil _)⟩
        have same := inert _ _ (textsAreLeaves_beforeEvents _) edited
        rw [← events_beforeEvents_eq_nil_iff, ← events_beforeEvents_eq_nil_iff, same]
    · obtain ⟨kind, -, rfl⟩ := List.mem_map.mp hook
      have edited : (behindHooks kind (some text)).Edited (.outsideTasks may)
          (behindHooks kind other) :=
        ⟨.root, [], .cons_self _ (by simpa using EditedAll.texts_append (rule (by decide)) [])⟩
      have same := inert _ _ (textsAreLeaves_behindHooks kind _) edited
      rw [← tasks_behindHooks_eq_nil_iff, ← tasks_behindHooks_eq_nil_iff, same]
  · intro keeps root root' leaves edited
    rw [← Schema.ofNode_pruned root, ← Schema.ofNode_pruned root', edited.pruned_eq keeps leaves]

end Node

namespace Document

/-- **Texts do nothing but for a few words.** In the trees of documents, where texts are leaves, any
texts may be replaced without a change to the answer of the rules, declared states and violations,
if none of the rules' words comes or goes by it; and any texts that are not in tasks may be replaced
or taken away without a change to the schema, if none of the names comes or goes that it looks for.
No more than that can be said: if such a word comes or goes, it makes a difference in some tree. -/
theorem bareText_inert_iff (may : String → String → Prop)
    (mayOutside : String → Option String → Prop) :
    (∀ source document, parse source = .ok document → document.root.TextsAreLeaves) ∧
    ((∀ root root' : Node, root.TextsAreLeaves → root.Edited (.replacing may) root' →
        ∀ strict, root'.validate strict = root.validate strict) ↔
      ∀ text other, may text other → KeepsWords ruleWords text (some other)) ∧
    ((∀ root root' : Node, root.TextsAreLeaves → root.Edited (.outsideTasks mayOutside) root' →
        Schema.ofNode root' = Schema.ofNode root) ↔
      ∀ text other, mayOutside text other → KeepsWords lookupWords text other) :=
  ⟨fun _ _ parsed => textsAreLeaves parsed, Node.validate_edited_iff may,
    Node.ofNode_edited_iff mayOutside⟩

/-- A document with a text that is replaced, and taken away. -/
theorem bareText_inert_of_note :
    let root (texts : List Node) : Node :=
      ⟨.root, "Schema", [], texts ++ [⟨.element, "States", [], [.element "a"]⟩]⟩
    parse "<Schema>note<States><a></a></States></Schema>" = .ok ⟨root [.ofText "note"], []⟩ ∧
      (root [.ofText "other"]).validate true = (root [.ofText "note"]).validate true ∧
      Schema.ofNode (root []) = Schema.ofNode (root [.ofText "note"]) := by
  intro root
  have parsed : parse "<Schema>note<States><a></a></States></Schema>" =
      .ok ⟨root [.ofText "note"], []⟩ := by decide +kernel
  obtain ⟨leaves, rules, schema⟩ := bareText_inert_iff
    (fun text other => text = "note" ∧ other = "other")
    (fun text other => text = "note" ∧ other = none)
  have keeps_rules := rules.mpr (by
    rintro _ _ ⟨rfl, rfl⟩
    decide)
  have keeps_schema := schema.mpr (by
    rintro _ _ ⟨rfl, rfl⟩
    decide)
  refine ⟨parsed, keeps_rules _ _ (leaves _ _ parsed) ⟨_, _, .replace _ _ ?_ (.refl _)⟩ true,
    keeps_schema _ _ (leaves _ _ parsed) ⟨_, _, .remove _ _ ?_ (.refl _)⟩⟩
  · exact ⟨"other", rfl, rfl, rfl⟩
  · exact ⟨by decide, rfl, rfl⟩

/-- A text `Events` breaks a rule, and a text `States` takes all its states from a schema. -/
theorem bareText_acts :
    let root (text : String) : Node :=
      ⟨.root, "Schema", [], [.ofText text, ⟨.element, "States", [], [.element "a"]⟩]⟩
    (∀ may text other, may "Schema" text (some other) → (root text).Edited may (root other)) ∧
    (parse "<Schema>Events<States><a></a></States></Schema>" = .ok ⟨root "Events", []⟩ ∧
      (root "Events").validate false = .error [.misplacedEvents] ∧
      ((root "note").validate false).isOk = true) ∧
    parse "<Schema>States<States><a></a></States></Schema>" = .ok ⟨root "States", []⟩ ∧
      Schema.ofNode (root "States") = ⟨.none, []⟩ ∧
      Schema.ofNode (root "note") = ⟨.none, [⟨"a", .none, []⟩]⟩ := by
  intro root
  refine ⟨fun may text other allowed => ?_, ⟨?_, ?_, ?_⟩, ?_, ?_, ?_⟩
  · exact ⟨_, _, .replace _ _ allowed (.refl _)⟩
  · decide +kernel
  · exact Node.validate_eq_error_iff.mpr ⟨List.cons_ne_nil _ _, by decide +kernel⟩
  · decide +kernel
  · decide +kernel
  · decide +kernel
  · decide +kernel

end Document

end StateMarkup
