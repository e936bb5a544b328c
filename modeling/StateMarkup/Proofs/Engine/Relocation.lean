import StateMarkup.Engine
import StateMarkup.Proofs.Node.Relocation

/-!
# Compiling the same tokens

Whether a document compiles, and to what, is decided by its tokens. Places come up in syntax errors
and in warnings only: the tree has none, and all that is made of it is made of the tree
(`Engine.tokens_decide`).
-/

namespace StateMarkup

/-- The same notice; a warning may be about another place. -/
def Notice.SameButPlace : Notice → Notice → Prop
  | .mended warning, .mended other => warning.SameButPlace other
  | notice, other => notice = other

/-- The same failure: syntax errors may be at other places. -/
def CompileError.SameButPlaces : CompileError → CompileError → Prop
  | .syntaxErrors errors, .syntaxErrors others =>
    List.Forall₂ SyntaxError.SameButPlace errors others
  | .violations found, .violations others => found = others
  | .unreadable error, .unreadable other => error = other
  | _, _ => False

/-- Both give the same engine, or both fail in the same way, and what was reported is the same but
for places. -/
structure Compilation.SameButPlaces (c d : Compilation) : Prop where
  log : List.Forall₂ Notice.SameButPlace c.log d.log
  result : match c.result, d.result with
    | .ok engine, .ok other => engine = other
    | .error error, .error other => error.SameButPlaces other
    | _, _ => False

namespace Engine

/-- What is made of two readings that differ in places only. The trees are the same, so there is
nothing to compare behind the reading but the notices about warnings. -/
theorem compile_sameButPlaces {source other : String}
    (read : Document.SameReading (Document.parse source) (Document.parse other))
    (options : EngineOptions) :
    (compile options source).SameButPlaces (compile options other) := by
  rw [compile, compile]
  cases one : Document.parse source with
  | error errors =>
    cases two : Document.parse other with
    | error others =>
      rw [one, two] at read
      exact ⟨.nil, read⟩
    | ok document =>
      rw [one, two] at read
      exact absurd read id
  | ok document =>
    cases two : Document.parse other with
    | error others =>
      rw [one, two] at read
      exact absurd read id
    | ok document' =>
      rw [one, two] at read
      obtain ⟨root, warnings⟩ := read
      have mended : List.Forall₂ Notice.SameButPlace (document.warnings.map .mended)
          (document'.warnings.map .mended) := by
        rw [List.forall₂_map_left_iff, List.forall₂_map_right_iff]
        exact warnings
      simp only [root]
      cases ofNode options document'.root with
      | error violations => exact ⟨mended, rfl⟩
      | ok engine => exact ⟨List.rel_append mended (.cons rfl .nil), rfl⟩

/-- **The tokens decide, and where they stand does not matter.** Two lists of the same tokens are
read as the same tree with the same warnings, or fail with the same errors, but for places and what
messages say of them. So two documents with the same tokens compile to the same engine, or fail at
the same stage: with the same violations, or with the same syntax errors but for places. -/
theorem tokens_decide :
    (∀ lexemes others : List Lexeme, lexemes.map (·.token) = others.map (·.token) →
      Document.SameReading (Document.ofLexemes lexemes) (Document.ofLexemes others)) ∧
    ∀ (options : EngineOptions) (source other : String),
      (tokenize source).map (·.token) = (tokenize other).map (·.token) →
      (compile options source).SameButPlaces (compile options other) :=
  ⟨fun _ _ same => Document.sameReading_of_tokens same,
    fun options _ _ same => compile_sameButPlaces (Document.sameReading_of_tokens same) options⟩

/-- A stray token, on the first line and on the second. -/
theorem tokens_decide_on_either_line :
    let source := "<a>=</a>"
    let other := "<a>\n=</a>"
    (tokenize source).map (·.token) = (tokenize other).map (·.token) ∧
      tokenize source ≠ tokenize other ∧
      Document.SameReading (Document.ofLexemes (tokenize source))
        (Document.ofLexemes (tokenize other)) ∧
      (compile ⟨true, true⟩ source).SameButPlaces (compile ⟨true, true⟩ other) := by
  intro source other
  have same : (tokenize source).map (·.token) = (tokenize other).map (·.token) := by
    decide +kernel
  exact ⟨same, by decide +kernel, tokens_decide.1 _ _ same, tokens_decide.2 _ _ _ same⟩

end Engine

end StateMarkup
