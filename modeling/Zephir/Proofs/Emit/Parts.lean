import Zephir.Emit.Emitter

/-!
A layout decides what an operation comes to. Operators, lines and conditional blank lines are made
of simpler operations, and these no longer ask the layout for anything but the indentation. A run
may be taken apart at any operation, and each operation may be replaced by its parts.
-/

namespace Zephir

def Spacing.parts (spacing : Spacing) (op : String) : List Op :=
  (if spacing.newlineBefore then [.flush] else []) ++
    [.token op (if spacing.newlineBefore then none else spacing.spaceBefore) spacing.spaceAfter] ++
    (if spacing.newlineAfter then [.flush] else [])

/-- What an operation comes to under a layout. -/
def Op.parts (layout : Layout) : Op → List Op
  | .operator op context => (layout.spacing op context).parts op
  | .endOfStatement context =>
    (layout.spacing ";" (some (Emitter.statementContext context))).parts ";"
  | .line text => [.flush, .emit text, .flush]
  | .blankLineIf path => if (layout.flag? path).getD false then [.blankLine] else []
  | op => [op]

namespace Emitter

variable {layout : Layout} {e : Emitter}

theorem run_cons_ok {op : Op} {rest : List Op} {next : Emitter} {events : List Event}
    (stepped : e.step layout op = .ok (next, events)) :
    e.run layout (op :: rest) =
      ⟨(next.run layout rest).emitter, events ++ (next.run layout rest).events,
        (next.run layout rest).fault⟩ := by
  rw [run, stepped]

theorem run_cons_error {op : Op} {rest : List Op} {fault : Fault}
    (stopped : e.step layout op = .error fault) :
    e.run layout (op :: rest) = ⟨e, [], some fault⟩ := by
  rw [run, stopped]

theorem run_append {first second : List Op} (calm : (e.run layout first).fault = none) :
    e.run layout (first ++ second) =
      ⟨((e.run layout first).emitter.run layout second).emitter,
        (e.run layout first).events ++ ((e.run layout first).emitter.run layout second).events,
        ((e.run layout first).emitter.run layout second).fault⟩ := by
  induction first generalizing e with
  | nil => simp [run]
  | cons op rest ih =>
      cases stepped : e.step layout op with
      | error fault => simp [run_cons_error stepped] at calm
      | ok result =>
          obtain ⟨next, events⟩ := result
          rw [run_cons_ok stepped] at calm
          rw [List.cons_append, run_cons_ok stepped, run_cons_ok stepped, ih calm,
            List.append_assoc]

@[simp] theorem line_flush (layout : Layout) (e : Emitter) : (e.flush layout).1.line = "" := by
  unfold flush
  split
  · rename_i empty
    exact String.isEmpty_iff.mp empty
  · rfl

theorem run_spacingParts (op : String) (context : Option String) :
    e.run layout ((layout.spacing op context).parts op) = e.run layout [.operator op context] := by
  simp only [run, step, operator, Spacing.parts]
  split <;> split <;> simp [run, step]

theorem run_parts (op : Op) : e.run layout (op.parts layout) = e.run layout [op] := by
  cases op with
  | operator op context => exact run_spacingParts op context
  | endOfStatement context => exact run_spacingParts ";" _
  | line text => simp [Op.parts, run, step]
  | blankLineIf path =>
      simp only [Op.parts, run, step]
      split <;> simp [run, step]
  | _ => rfl

end Emitter

end Zephir
