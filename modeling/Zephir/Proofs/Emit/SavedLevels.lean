import Mathlib.Data.List.Infix
import Zephir.Proofs.Emit.Parts

/-!
Levels are remembered last in, first out. What was remembered before a run is out of its sight as
long as it takes back no more levels than it has remembered itself. So whatever runs between a push
and its pop, the pop goes back to the level of the push.
-/

namespace Zephir

/-- From a stack of the given depth on, no pop finds the stack empty. -/
def PopsWithin (depth : Nat) (ops : List Op) : Prop :=
  ∀ done ∈ ops.inits, done.count .popIndent ≤ depth + done.count .pushIndent

/-- Every pop takes back an earlier push among the operations, and none is left over. -/
structure Matched (ops : List Op) : Prop where
  within : PopsWithin 0 ops
  even : ops.count .popIndent = ops.count .pushIndent

instance (depth : Nat) (ops : List Op) : Decidable (PopsWithin depth ops) :=
  inferInstanceAs (Decidable (∀ done ∈ ops.inits, _))

namespace PopsWithin

variable {depth : Nat} {op : Op} {rest : List Op}

theorem first (within : PopsWithin depth (op :: rest)) :
    [op].count .popIndent ≤ depth + [op].count .pushIndent :=
  within [op] (by simp)

theorem tail {left : Nat} (within : PopsWithin depth (op :: rest))
    (leaves : left + [op].count .popIndent = depth + [op].count .pushIndent) :
    PopsWithin left rest := by
  intro done begins
  have bound := within (op :: done) (by simpa using begins)
  rw [List.count_cons, List.count_cons] at bound
  rw [List.count_singleton, List.count_singleton] at leaves
  omega

end PopsWithin

namespace Emitter

variable {layout : Layout} {e next : Emitter} {events : List Event} {op : Op} {ops : List Op}

/-- The emitter with more levels remembered below its own. -/
def onto (e : Emitter) (below : List Nat) : Emitter :=
  { e with saved := e.saved ++ below }

section Steps

variable (layout : Layout) (e : Emitter) (below : List Nat)

theorem onto_flush :
    (e.onto below).flush layout = ((e.flush layout).1.onto below, (e.flush layout).2) := by
  unfold flush onto
  dsimp only
  split <;> rfl

theorem onto_operator (sign : String) (context : Option String) :
    (e.onto below).operator layout sign context =
      ((e.operator layout sign context).1.onto below, (e.operator layout sign context).2) := by
  have push (e : Emitter) (text : String) (before after : Option Bool) :
      (e.onto below).push text before after false = (e.push text before after false).onto below :=
    rfl
  unfold operator
  dsimp only
  split <;> split <;> simp only [onto_flush, push]

theorem onto_blankLine :
    (e.onto below).blankLine layout =
      ((e.blankLine layout).1.onto below, (e.blankLine layout).2) := by
  simp only [blankLine, onto_flush]
  cases parted : (e.flush layout).1.written && !(e.flush layout).1.lastBlank <;>
    simp [onto, parted]

theorem onto_step (own : op = .popIndent → e.saved ≠ []) :
    (e.onto below).step layout op =
      (e.step layout op).map fun result => (result.1.onto below, result.2) := by
  cases op with
  | operator sign context => simp only [step, onto_operator, Except.map]
  | endOfStatement context => simp only [step, onto_operator, Except.map]
  | line text =>
      have pushed (e : Emitter) :
          (e.onto below).push text none none false = (e.push text none none false).onto below := rfl
      simp only [step, onto_flush, pushed, Except.map]
  | flush => simp only [step, onto_flush, Except.map]
  | blankLine => simp only [step, onto_blankLine, Except.map]
  | blankLineIf path =>
      simp only [step, onto_blankLine]
      split <;> rfl
  | indent =>
      cases between : e.line.isEmpty <;> simp [step, onto, between, Except.map]
  | unindent =>
      cases between : e.line.isEmpty with
      | false => simp [step, onto, between, Except.map]
      | true => cases atLevel : e.level <;> simp [step, onto, between, atLevel, Except.map]
  | popIndent =>
      obtain ⟨level, saved, remembered⟩ := List.exists_cons_of_ne_nil (own rfl)
      simp [step, onto, remembered, Except.map]
  | start _ | emit _ | keyword _ | token _ _ _ | pushIndent => rfl

theorem saved_flush : (e.flush layout).1.saved = e.saved := by
  unfold flush
  split <;> rfl

theorem saved_push (text : String) (before after : Option Bool) (fallback : Bool) :
    (e.push text before after fallback).saved = e.saved :=
  rfl

theorem saved_operator (sign : String) (context : Option String) :
    (e.operator layout sign context).1.saved = e.saved := by
  unfold operator
  dsimp only
  split <;> split <;> simp only [saved_flush, saved_push]

theorem saved_blankLine : (e.blankLine layout).1.saved = e.saved := by
  unfold blankLine
  dsimp only
  split <;> exact saved_flush layout e

end Steps

theorem length_saved_step (stepped : e.step layout op = .ok (next, events)) :
    next.saved.length + [op].count .popIndent = e.saved.length + [op].count .pushIndent := by
  have kept {result : Emitter × List Event}
      (gives : (.ok result : Except Fault (Emitter × List Event)) = .ok (next, events))
      (saved : result.1.saved = e.saved) : next.saved.length = e.saved.length := by
    cases gives
    rw [saved]
  cases op with
  | pushIndent =>
      cases stepped
      simp
  | popIndent =>
      rw [step] at stepped
      split at stepped
      · contradiction
      · rename_i level saved remembered
        cases stepped
        simp [remembered]
  | unindent =>
      rw [step] at stepped
      split at stepped
      · split at stepped
        · contradiction
        · exact kept stepped rfl
      · exact kept stepped rfl
  | blankLineIf path =>
      rw [step] at stepped
      split at stepped
      · exact kept stepped (saved_blankLine layout e)
      · exact kept stepped rfl
  | indent => exact kept stepped (by split <;> rfl)
  | operator sign context => exact kept stepped (saved_operator layout e sign context)
  | endOfStatement context => exact kept stepped (saved_operator layout e ";" _)
  | line text =>
      simp only [step, Except.ok.injEq, Prod.mk.injEq] at stepped
      obtain ⟨rfl, -⟩ := stepped
      simp [saved_flush, saved_push]
  | flush => exact kept stepped (saved_flush layout e)
  | blankLine => exact kept stepped (saved_blankLine layout e)
  | start _ | emit _ | keyword _ | token _ _ _ => exact kept stepped rfl

theorem length_saved_run (calm : (e.run layout ops).fault = none) :
    (e.run layout ops).emitter.saved.length + ops.count .popIndent =
      e.saved.length + ops.count .pushIndent := by
  induction ops generalizing e with
  | nil => rfl
  | cons op rest ih =>
      cases result : e.step layout op with
      | error fault => simp [run_cons_error result] at calm
      | ok result' =>
          obtain ⟨next, events⟩ := result'
          rw [run_cons_ok result] at calm ⊢
          have first := length_saved_step result
          have others := ih calm
          rw [List.count_singleton, List.count_singleton] at first
          rw [List.count_cons, List.count_cons]
          dsimp only
          omega

/-- A run that takes back no more levels than are its own is the same above any others. -/
theorem onto_run (below : List Nat) (within : PopsWithin e.saved.length ops) :
    (e.onto below).run layout ops =
      { e.run layout ops with emitter := (e.run layout ops).emitter.onto below } := by
  -- The bound on the pops moves along with the stack, by `length_saved_step`.
  induction ops generalizing e with
  | nil => rfl
  | cons op rest ih =>
      have own : op = .popIndent → e.saved ≠ [] := by
        rintro rfl empty
        have bound := within.first
        simp [empty] at bound
      have stepped := onto_step layout e below own
      cases result : e.step layout op with
      | error fault =>
          rw [result] at stepped
          rw [run_cons_error stepped, run_cons_error result]
      | ok result' =>
          obtain ⟨next, events⟩ := result'
          rw [result] at stepped
          rw [run_cons_ok stepped, run_cons_ok result, ih (within.tail (length_saved_step result))]

theorem run_append_of_fault {first : List Op} {fault : Fault}
    (stopped : (e.run layout first).fault = some fault) (second : List Op) :
    e.run layout (first ++ second) = e.run layout first := by
  induction first generalizing e with
  | nil => simp [run] at stopped
  | cons op rest ih =>
      cases result : e.step layout op with
      | error fault => rw [List.cons_append, run_cons_error result, run_cons_error result]
      | ok result' =>
          obtain ⟨next, events⟩ := result'
          rw [run_cons_ok result] at stopped
          rw [List.cons_append, run_cons_ok result, run_cons_ok result, ih stopped]

theorem run_pushIndent (rest : List Op) :
    e.run layout (.pushIndent :: rest) =
      { e with saved := e.level :: e.saved }.run layout rest := by
  rw [run_cons_ok rfl, List.nil_append]

section Matched

variable (layout : Layout) (e : Emitter) (matched : Matched ops)
include matched

theorem run_matched (saved : List Nat) :
    { e with saved }.run layout ops =
      let bare := { e with saved := [] }.run layout ops
      { bare with emitter := bare.emitter.onto saved } :=
  onto_run (e := { e with saved := [] }) saved matched.within

theorem fault_run_matched (saved : List Nat) :
    ({ e with saved }.run layout ops).fault = (e.run layout ops).fault := by
  rw [run_matched layout e matched saved]
  exact (congrArg Outcome.fault (run_matched layout e matched e.saved)).symm

theorem run_matched_of_calm (calm : (e.run layout ops).fault = none) (saved : List Nat) :
    { e with saved }.run layout ops =
      { e.run layout ops with emitter := { (e.run layout ops).emitter with saved } } := by
  have balance := length_saved_run ((fault_run_matched layout e matched []).trans calm)
  rw [matched.even] at balance
  have bare : ({ e with saved := [] }.run layout ops).emitter.saved = [] := by
    rw [← List.length_eq_zero_iff]
    simpa using balance
  rw [run_matched layout e matched saved,
    show e.run layout ops = _ from run_matched layout e matched e.saved]
  simp [onto, bare]

/-- Between a push and its pop, matched operations do what they would do alone, and then the level
is put back. -/
theorem run_enclosed (calm : (e.run layout ops).fault = none) :
    e.run layout (.pushIndent :: ops ++ [.popIndent]) =
      { e.run layout ops with
        emitter := { (e.run layout ops).emitter with level := e.level, saved := e.saved } } := by
  have inside := run_matched_of_calm layout e matched calm (e.level :: e.saved)
  rw [List.cons_append, run_pushIndent,
    run_append ((fault_run_matched layout e matched _).trans calm), inside, run_cons_ok rfl]
  simp [run, calm]

theorem fault_run_enclosed :
    (e.run layout (.pushIndent :: ops ++ [.popIndent])).fault = (e.run layout ops).fault := by
  cases ended : (e.run layout ops).fault with
  | none => rw [run_enclosed layout e matched ended, ended]
  | some fault =>
      have stopped := (fault_run_matched layout e matched (e.level :: e.saved)).trans ended
      rw [List.cons_append, run_pushIndent, run_append_of_fault stopped, stopped]

end Matched

theorem fault_run_popIndent (calm : (e.run layout ops).fault = none) :
    (e.run layout (ops ++ [.popIndent])).fault =
      if ops.count .popIndent = e.saved.length + ops.count .pushIndent then some .popWithoutPush
      else none := by
  have balance := length_saved_run calm
  rw [run_append calm]
  dsimp only
  generalize (e.run layout ops).emitter = last at balance
  cases remembered : last.saved with
  | nil =>
      rw [run_cons_error (by rw [step, remembered]), if_pos (by simpa [remembered] using balance)]
  | cons level saved =>
      have more : ops.count .popIndent ≠ e.saved.length + ops.count .pushIndent := by
        rw [remembered, List.length_cons] at balance
        omega
      rw [run_cons_ok (by rw [step, remembered]), if_neg more]
      rfl

/-- Operations that are matched among themselves may stand between a push and its pop in any state.
The pair adds no fault of its own, and without a fault the level and what was remembered are as
they were. From a new emitter on, a pop fails if and only if all pushes so far are popped. -/
theorem saved_levels_restored (layout : Layout) :
    (∀ (e : Emitter) (ops : List Op), Matched ops →
      let outcome := e.run layout (.pushIndent :: ops ++ [.popIndent])
      outcome.fault = (e.run layout ops).fault ∧
        (outcome.fault = none →
          outcome.emitter.level = e.level ∧ outcome.emitter.saved = e.saved)) ∧
    ∀ ops : List Op, (({} : Emitter).run layout ops).fault = none →
      (({} : Emitter).run layout (ops ++ [.popIndent])).fault =
        if ops.count .popIndent = ops.count .pushIndent then some .popWithoutPush else none := by
  refine ⟨?_, ?_⟩
  · intro e ops matched outcome
    have faults : outcome.fault = _ := fault_run_enclosed layout e matched
    refine ⟨faults, fun calm => ?_⟩
    have ended : outcome = _ := run_enclosed layout e matched (faults.symm.trans calm)
    rw [ended]
    exact ⟨rfl, rfl⟩
  · intro ops calm
    rw [fault_run_popIndent calm, List.length_nil, Nat.zero_add]

def steppedSample : List Op :=
  [.indent, .pushIndent, .indent, .emit "$a", .unindent, .unindent, .unindent, .flush, .pushIndent,
    .unindent, .unindent, .line "$b", .popIndent, .popIndent, .unindent]

theorem steppedSample_restored :
    Matched steppedSample ∧
    (({ level := 2, saved := [5], line := "if" } : Emitter).run .empty
      (.pushIndent :: steppedSample ++ [.popIndent])).fault = none ∧
    (({ level := 2, saved := [5], line := "if" } : Emitter).run .empty
      (.pushIndent :: steppedSample ++ [.popIndent])).emitter.level = 2 ∧
    (({} : Emitter).run .empty steppedSample).fault = none ∧
    (({} : Emitter).run .empty (steppedSample ++ [.popIndent])).fault =
      some .popWithoutPush := by
  have matched : Matched steppedSample := ⟨by decide +kernel, by decide +kernel⟩
  obtain ⟨pairs, pops⟩ := saved_levels_restored .empty
  have quiet : (({ level := 2, saved := [5], line := "if" } : Emitter).run .empty
      (.pushIndent :: steppedSample ++ [.popIndent])).fault = none := by decide +kernel
  have calm : (({} : Emitter).run .empty steppedSample).fault = none := by decide +kernel
  exact ⟨matched, quiet, ((pairs _ _ matched).2 quiet).1, calm,
    (pops steppedSample calm).trans (if_pos matched.even)⟩

end Emitter

end Zephir
