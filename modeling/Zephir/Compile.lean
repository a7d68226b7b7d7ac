import Zephir.Compaction
import Zephir.Load
import Zephir.Phase.Accessors
import Zephir.Phase.Comments
import Zephir.Phase.Bodies

/-!
Compiling a unit: loading, compaction, and the standard phases. The first error stops the unit.
-/

namespace Zephir

structure Compiled where
  unit : List Node
  warnings : List Diagnostic

inductive CompileError
  | unreadable
  | refused (refusal : Refusal)

def standardPhases : List (Phase (List Docblock)) :=
  [attachComments .whole, expandAccessors, lowerBodies]

def runStandardPhases (unit : List Node) : Except Diagnostic (List Node) := do
  let (unit, _) ← (Phase.run standardPhases unit).run []
  return unit

def compileUnit (unit : List Node) : Except Refusal Compiled :=
  match compact unit {} with
  | .error d => .error (.single d)
  | .ok (compacted, collector) =>
    match runStandardPhases compacted with
    | .error d => .error (.single d)
    | .ok unit => do
      let warnings ← collector.finish
      return { unit, warnings }

def compile (text : String) : Except CompileError Compiled :=
  match load text with
  | .error .unreadable => .error .unreadable
  | .error (.refused d) => .error (.refused (.single d))
  | .ok unit => (compileUnit unit).mapError .refused

end Zephir
