import Pascaline.Bound.Declaration
import Pascaline.Lowering
import Pascaline.Tree.Parser

/-!
# Compiling sources in order

Sources are compiled one after the other in one session. Each may use the units of those before it
that compiled without an error.
-/

namespace Pascaline

/-- What became of one source. -/
structure SourceOutcome where
  file : Nat
  errors : List Diagnostic
  bound : Option Bound.Module := none
  unit : Option CompiledUnit := none
deriving Inhabited

/-- A session. `imports` has the latest unit first. -/
structure Compilation where
  library : SourceLibrary := {}
  types : TypeTable := .empty
  imports : List Bound.Import := []
  outcomes : List SourceOutcome := []

namespace Compilation

/-- Makes a compiled unit known to the sources that follow. -/
def publish (c : Compilation) (u : CompiledUnit) : Compilation :=
  match u.interface.run c.types with
  | .ok imp types => { c with types, imports := imp :: c.imports }
  | .error _ types => { c with types }

/-- Compiles a source that is in the library. -/
def compile (c : Compilation) (name : String) (source : SourceFile) :
    Except Bound.Breakdown Compilation := do
  let done := fun (c : Compilation) (o : SourceOutcome) =>
    { c with outcomes := c.outcomes ++ [o] }
  let parsed := Tree.File.parse source
  match parsed.file with
  | none => return done c { file := source.id, errors := parsed.errors }
  | some file =>
    let r ← Bound.Module.ofFile c.types c.imports name file
    let c := { c with types := r.types }
    let outcome : SourceOutcome :=
      { file := source.id, errors := parsed.errors ++ r.errors, bound := some r.module }
    if !r.errors.isEmpty then return done c outcome
    else
      match CompiledUnit.ofModule c.types r.module with
      | .error _ => return done c outcome
      | .ok u =>
        let u := { u with file := source.id, source := source.digest }
        return done (c.publish u) { outcome with unit := some u }

/-- Adds a source under a name and compiles it. -/
def add (c : Compilation) (name : String) (content : Bytes) :
    Except Bound.Breakdown Compilation :=
  let (id, library) := c.library.addText name content
  match library.get? id with
  | some source => { c with library }.compile name source
  | none => .ok { c with library }

/-- Compiles all sources in order. -/
def ofSources : List (String × Bytes) → Except Bound.Breakdown Compilation :=
  List.foldlM (fun c (name, content) => c.add name content) {}

def errors (c : Compilation) : List Diagnostic := c.outcomes.flatMap (·.errors)

/-- The units of the sources that compiled. -/
def units (c : Compilation) : List CompiledUnit := c.outcomes.filterMap (·.unit)

end Compilation

end Pascaline
