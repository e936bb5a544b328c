import StateMarkup.Engine

/-!
# What compiling gives

A document that compiles has a tree, the tree is valid, and the engine is made of its schema alone:
its two tables are those of the schema.
-/

namespace StateMarkup

/-- A result that is given can be computed, and what is asked of it with it. -/
theorem exists_of_toOption_any {ε α : Type} {result : Except ε α} {p : α → Prop}
    [DecidablePred p] (h : result.toOption.any (fun a => decide (p a)) = true) :
    ∃ a, result = .ok a ∧ p a := by
  cases result with
  | error _ => cases h
  | ok a => exact ⟨a, rfl, of_decide_eq_true h⟩

/-- A failure can be computed without what would be given otherwise. -/
theorem eq_error_of_map_unit {ε α : Type} {result : Except ε α} {error : ε}
    (h : result.map (fun _ => ()) = .error error) : result = .error error := by
  cases result with
  | error _ => exact congrArg Except.error (Except.error.inj h)
  | ok _ => cases h

namespace Engine

variable {options : EngineOptions} {source : String} {root : Node} {engine : Engine}

/-- An engine is made of a valid tree, whose names refer to something if that is asked for. -/
theorem ofNode_eq_ok_iff :
    ofNode options root = .ok engine ↔
      ∃ states, root.validate options.strict = .ok states ∧
        (options.strict = true → (Schema.ofNode root).checkReferences states = .ok ()) ∧
        ofSchema options (Schema.ofNode root) states = engine := by
  rw [ofNode]
  cases valid : root.validate options.strict with
  | error _ => simp
  | ok states =>
    cases strict : options.strict with
    | false => simp
    | true =>
      cases references : (Schema.ofNode root).checkReferences states with
      | error _ => simp [references]
      | ok _ => simp [references]

/-- No engine is made of a tree that is not valid, nor of one whose names refer to nothing if that
is asked for. -/
theorem ofNode_eq_error_iff {violations : List Violation} :
    ofNode options root = .error violations ↔
      root.validate options.strict = .error violations ∨
        ∃ states, root.validate options.strict = .ok states ∧ options.strict = true ∧
          (Schema.ofNode root).checkReferences states = .error violations := by
  rw [ofNode]
  cases valid : root.validate options.strict with
  | error _ => simp
  | ok states =>
    cases strict : options.strict with
    | false => simp
    | true =>
      cases references : (Schema.ofNode root).checkReferences states with
      | error _ => simp [references]
      | ok _ => simp [references]

/-- A document compiles if it can be read and an engine is made of its tree. -/
theorem compile_eq_ok_iff :
    (compile options source).result = .ok engine ↔
      ∃ document, Document.parse source = .ok document ∧
        ofNode options document.root = .ok engine := by
  rw [compile]
  cases parsed : Document.parse source with
  | error _ => simp
  | ok document =>
    cases made : ofNode options document.root with
    | error _ => simp [made]
    | ok _ => simp [made]

/-- It has syntax errors if it cannot be read. These do not depend on the options. -/
theorem compile_eq_syntaxErrors_iff {errors : List SyntaxError} :
    (compile options source).result = .error (.syntaxErrors errors) ↔
      Document.parse source = .error errors := by
  rw [compile]
  cases parsed : Document.parse source with
  | error _ => simp
  | ok document =>
    cases made : ofNode options document.root with
    | error _ => simp [made]
    | ok _ => simp [made]

/-- What can be read and does not compile breaks rules. -/
theorem compile_eq_error_iff {document : Document} {error : CompileError}
    (parsed : Document.parse source = .ok document) :
    (compile options source).result = .error error ↔
      ∃ found, ofNode options document.root = .error found ∧ error = .violations found := by
  rw [compile, parsed]
  cases made : ofNode options document.root with
  | error _ => simp [made, eq_comm]
  | ok _ => simp [made]

/-- It has violations if no engine is made of its tree, and they are what has been found in it. -/
theorem compile_eq_violations_iff {document : Document} {violations : List Violation}
    (parsed : Document.parse source = .ok document) :
    (compile options source).result = .error (.violations violations) ↔
      ofNode options document.root = .error violations := by
  simp [compile_eq_error_iff parsed]

/-- The engine of a document is that of its schema. -/
theorem eq_ofSchema_of_compile (compiled : (compile options source).result = .ok engine) :
    engine = ofSchema options engine.schema engine.states := by
  obtain ⟨document, -, made⟩ := compile_eq_ok_iff.mp compiled
  obtain ⟨states, -, -, rfl⟩ := ofNode_eq_ok_iff.mp made
  rfl

/-- Compiling a given document can be computed, and what is asked of the engine with it. -/
theorem exists_of_compile_any {p : Engine → Prop} [DecidablePred p]
    (h : (compile options source).result.toOption.any (fun engine => decide (p engine)) = true) :
    ∃ engine, (compile options source).result = .ok engine ∧ p engine :=
  exists_of_toOption_any h

end Engine

end StateMarkup
