import StateMarkup.Engine.Notice
import StateMarkup.Node.Parser
import StateMarkup.Schema.OfNode
import StateMarkup.Schema.Placement
import StateMarkup.Schema.References
import StateMarkup.Schema.Tables

/-!
# Engines

An `Engine` is a compiled document: its schema, its declared states and its two tables. Compiling
reads the tree, checks it, projects it and, in strict mode, checks what its names refer to. The
first of these that finds a fault ends it, with all the faults it found.
-/

namespace StateMarkup

/-- Switches of an engine. -/
structure EngineOptions where
  /-- reject mismatched close tags and names that refer to nothing -/
  strict : Bool
  /-- answer failed hooks by going to the error state of the event -/
  fallback : Bool
deriving DecidableEq, Repr

/-- What holds if nothing is said: not strict, with fallback. -/
def EngineOptions.default : EngineOptions := ⟨false, true⟩

/-- A compiled document. -/
structure Engine where
  schema : Schema
  states : NameSet
  transitions : TransitionTable
  hooks : HookTable
  options : EngineOptions

/-- An engine or the reason why there is none, and what was reported on the way. -/
structure Compilation where
  log : List Notice
  result : Except CompileError Engine

namespace Engine

/-- The engine of a schema whose states have been declared. -/
def ofSchema (options : EngineOptions) (schema : Schema) (states : NameSet) : Engine :=
  ⟨schema, states, schema.transitionTable, schema.hookTable, options⟩

/-- The engine of a tree. -/
def ofNode (options : EngineOptions) (root : Node) : Except (List Violation) Engine :=
  match root.validate options.strict with
  | .error violations => .error violations
  | .ok states =>
    let schema := Schema.ofNode root
    match if options.strict then schema.checkReferences states else .ok () with
    | .error violations => .error violations
    | .ok () => .ok (ofSchema options schema states)

/-- The numbers reported of an engine. -/
def summary (engine : Engine) : Notice :=
  .compiled engine.schema.states.length engine.transitions.size engine.hooks.size

/-- The engine of a text. -/
def compile (options : EngineOptions) (source : String) : Compilation :=
  match Document.parse source with
  | .error errors => ⟨[], .error (.syntaxErrors errors)⟩
  | .ok document =>
    let mended := document.warnings.map .mended
    match ofNode options document.root with
    | .error violations => ⟨mended, .error (.violations violations)⟩
    | .ok engine => ⟨mended ++ [engine.summary], .ok engine⟩

/-- The engine of what was found under a path. -/
def compileFound (options : EngineOptions) (found : Except ReadError ByteArray) : Compilation :=
  match ReadError.text found with
  | .ok source => compile options source
  | .error error => ⟨[], .error (.unreadable error)⟩

/-- The engine of a document's bytes. -/
def compileBytes (options : EngineOptions) (bytes : ByteArray) : Compilation :=
  compileFound options (.ok bytes)

/-- The engine of what was found under a path, which is reported first. -/
def compileFile (options : EngineOptions) (path : String) (found : Except ReadError ByteArray) :
    Compilation :=
  let compilation := compileFound options found
  ⟨.reading path :: compilation.log, compilation.result⟩

end Engine

end StateMarkup
