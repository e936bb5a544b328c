import StateMarkup.Proofs.Engine.Compiled
import StateMarkup.Proofs.Schema.Survey

/-!
# Which states there are

Two walks decide what a state is. The rules take the elements of every node `States`, wherever it
stands; the schema takes those of the first node of that name right below the root. The second never
finds more than the first, and both agree exactly if all that stands in `States` nodes is found in
the one place too (`Engine.statesAgree_iff`).
-/

namespace StateMarkup

/-- A schema has a state of the name. -/
def Schema.HasState (schema : Schema) (name : String) : Prop :=
  ∃ state ∈ schema.states, state.name = name

instance (schema : Schema) (name : String) : Decidable (schema.HasState name) :=
  inferInstanceAs (Decidable (∃ state ∈ schema.states, state.name = name))

namespace Node

variable {root : Node} {name : String}

/-- A tree lists a name as a state: the name of an element in the first node `States` right below
its root. -/
def Lists (root : Node) (name : String) : Prop :=
  ∃ states, root.child? Tag.states = some states ∧
    ∃ child ∈ states.elementChildren, child.name = name

instance : Decidable (root.Lists name) :=
  decidable_of_iff ((root.child? Tag.states).any fun states =>
      decide (∃ child ∈ states.elementChildren, child.name = name))
    (by simp [Lists, Option.any_eq_true])

/-- Whatever element stands in a node `States`, it has a listed name. -/
def StatesInOnePlace (root : Node) : Prop :=
  ∀ n, root.Within n → n.name = Tag.states → ∀ child ∈ n.elementChildren, root.Lists child.name

instance : Decidable root.StatesInOnePlace :=
  decidable_of_iff (∀ v ∈ root.breadthFirst, v.node.name = Tag.states →
      ∀ child ∈ v.node.elementChildren, root.Lists child.name)
    (by simp [StatesInOnePlace, ← exists_mem_breadthFirst_iff])

/-- The states of a schema are the names that its tree lists. -/
theorem hasState_ofNode_iff : (Schema.ofNode root).HasState name ↔ root.Lists name := by
  rw [Schema.HasState, Schema.ofNode, Lists]
  cases root.child? Tag.states with
  | none => simp
  | some states =>
    constructor
    · rintro ⟨_, hstate, named⟩
      obtain ⟨child, hchild, rfl⟩ := List.mem_map.mp hstate
      exact ⟨states, rfl, child, hchild, named⟩
    · rintro ⟨_, ⟨⟩, child, hchild, named⟩
      exact ⟨.ofNode child, List.mem_map_of_mem hchild, named⟩

/-- A child that is found by its name is a child and has the name. -/
theorem mem_of_child? {child : Node} (found : root.child? name = some child) :
    child ∈ root.children ∧ child.name = name := by
  rw [child?] at found
  exact ⟨List.mem_of_find?_eq_some found,
    beq_iff_eq.mp (List.find?_some (p := fun n : Node => n.name == name) found)⟩

/-- Listing is one way to declare: the first node `States` below the root is a node `States`
somewhere in the tree. -/
theorem Lists.declares (lists : root.Lists name) : root.Declares name := by
  obtain ⟨states, found, child⟩ := lists
  obtain ⟨below, named⟩ := mem_of_child? found
  exact ⟨states, .inside below (.top states), named, child⟩

/-- States stand in one place exactly if all that is declared is listed, too. Names count here and
not nodes: a state may well be declared again elsewhere. -/
theorem statesInOnePlace_iff :
    root.StatesInOnePlace ↔ ∀ name, root.Declares name → root.Lists name := by
  constructor
  · rintro onePlace _ ⟨n, within, states, child, hchild, rfl⟩
    exact onePlace n within states child hchild
  · intro lists n within states child hchild
    exact lists child.name ⟨n, within, states, child, hchild, rfl⟩

end Node

namespace Engine

variable {options : EngineOptions} {source : String} {engine : Engine}

/-- The declared states of an engine are those of its schema. -/
def StatesAgree (engine : Engine) : Prop :=
  ∀ name, engine.states.contains name = true ↔ engine.schema.HasState name

/-- **The two views of a document's states agree** exactly if the states of the document stand in
one place. All states of the schema are declared in any case. What the strict rules accept as the
target of an event is declared somewhere in the document, and so it is in the schema if they do. -/
theorem statesAgree_iff (compiled : (compile options source).result = .ok engine) :
    ∃ document, Document.parse source = .ok document ∧
      (∀ name, engine.schema.HasState name → engine.states.contains name = true) ∧
      (engine.StatesAgree ↔ document.root.StatesInOnePlace) ∧
      (options.strict = true → ∀ declared ∈ engine.schema.events, ∀ target,
        declared.2.LeadsTo target →
          document.root.Declares target ∧
          (document.root.StatesInOnePlace → engine.schema.HasState target)) := by
  obtain ⟨document, parsed, made⟩ := compile_eq_ok_iff.mp compiled
  obtain ⟨states, valid, references, rfl⟩ := ofNode_eq_ok_iff.mp made
  have declared_iff (name : String) : states.contains name = true ↔ document.root.Declares name :=
    Node.contains_validate_iff valid
  refine ⟨document, parsed, ?_, ?_, ?_⟩
  · intro name state
    exact (declared_iff name).mpr (Node.hasState_ofNode_iff.mp state).declares
  · -- what is declared for the rules and what is listed for the schema, name by name
    rw [StatesAgree, Node.statesInOnePlace_iff]
    refine forall_congr' fun name => ?_
    simp only [ofSchema, declared_iff, Node.hasState_ofNode_iff]
    exact ⟨Iff.mp, fun lists => ⟨lists, Node.Lists.declares⟩⟩
  · rintro strict ⟨state, event⟩ hevent target leads
    have accepted := Schema.contains_of_checkReferences (references strict) hevent leads
    have declares := (declared_iff target).mp accepted
    refine ⟨declares, fun onePlace => Node.hasState_ofNode_iff.mpr ?_⟩
    exact Node.statesInOnePlace_iff.mp onePlace target declares

/-- A document whose states stand in one place, and one of them leads to another. -/
theorem statesAgree_of_two :
    let source := "<Schema><States><a><Events><Go targetState=\"b\"></Go></Events></a>" ++
      "<b></b></States></Schema>"
    ∃ engine, (compile ⟨true, true⟩ source).result = .ok engine ∧
      engine.schema.events.map (·.2.target) = ["b"] ∧ engine.StatesAgree := by
  intro source
  have compiles : ∃ engine, (compile ⟨true, true⟩ source).result = .ok engine ∧
      engine.schema.events.map (·.2.target) = ["b"] := exists_of_compile_any (by decide +kernel)
  obtain ⟨engine, compiled, targets⟩ := compiles
  obtain ⟨document, parsed, -, agree, -⟩ := statesAgree_iff compiled
  have onePlace : (Document.parse source).toOption.any
      (fun document => decide document.root.StatesInOnePlace) = true := by decide +kernel
  rw [parsed] at onePlace
  exact ⟨engine, compiled, targets, agree.mpr (of_decide_eq_true onePlace)⟩

/-- The views part where a document has a second node `States`, beside the first or inside a state:
the strict rules accept a state as a target that the schema does not have. -/
theorem states_disagree :
    let beside := "<Schema><States><a><Events><Go targetState=\"b\"></Go></Events></a>" ++
      "</States><States><b></b></States></Schema>"
    let inside := "<Schema><States><a><Events><Go targetState=\"b\"></Go></Events>" ++
      "<States><b></b></States></a></States></Schema>"
    ∀ source ∈ [beside, inside], ∃ engine, (compile ⟨true, true⟩ source).result = .ok engine ∧
      engine.states.contains "b" = true ∧ ¬ engine.schema.HasState "b" ∧
      engine.schema.events.map (·.2.target) = ["b"] := by
  intro beside inside source hsource
  refine exists_of_compile_any ?_
  rcases List.mem_cons.mp hsource with rfl | hsource
  · decide +kernel
  · obtain rfl := List.mem_singleton.mp hsource
    decide +kernel

end Engine

end StateMarkup
