import Zephir.Php.Script
import Zephir.Proofs.Emit.Parts

/-!
Indentation by nesting. What is open around a line can be read off the text before it: braces open
and close bodies, and a clause of a `switch` lasts from its colon to the next clause or to the
brace that closes the `switch`. The outline of a run takes its levels from there, and leaves out
the operations that move the level. A run mirrors its outline if the lines come out the same.
-/

namespace Zephir

/-- What may be open around a line: something in braces, or a clause of a `switch`. -/
inductive Nest
  | body
  | clause
  deriving DecidableEq

/-- What is open after the last clause has ended, if that is what is open. -/
def closeClause : List Nest → List Nest
  | .clause :: rest => rest
  | nest => nest

def Op.nestAfter (nest : List Nest) : Op → List Nest
  | .operator op context =>
    if op = "\x7b" then .body :: nest
    else if op = "\x7d" then (closeClause nest).tail
    else if op = ":" ∧ context = some "case" then .clause :: nest
    else nest
  | .keyword word => if word = "case" ∨ word = "default" then closeClause nest else nest
  | _ => nest

/-- How much is open around the text of an operation. A brace stands outside of what it opens or
closes, and so does the head of a clause. -/
def Op.depth (nest : List Nest) (op : Op) : Nat :=
  min nest.length (op.nestAfter nest).length

def Op.movesLevel : Op → Bool
  | .indent | .unindent | .pushIndent | .popIndent => true
  | _ => false

structure Outline where
  emitter : Emitter
  nest : List Nest
  events : List Event

namespace Script

theorem append_of_failure {first : Script} (second : Script) {d : Diagnostic}
    (failed : first.failure = some d) : first ++ second = first := by
  change first.append second = first
  simp [append, failed]

theorem append_of_whole {first : Script} (second : Script) (whole : first.failure = none) :
    first ++ second = ⟨first.ops ++ second.ops, second.failure⟩ := by
  change first.append second = _
  simp [append, whole]

end Script

namespace Emitter

/-- The emitter with the level of a line that starts at the depth. A line that was started before
keeps its level. -/
def atDepth (e : Emitter) (depth : Nat) : Emitter :=
  if e.line = "" then { e with level := depth } else e

def runAt (layout : Layout) (depth : Nat) (e : Emitter) : List Op → Emitter × List Event
  | [] => (e, [])
  | op :: rest =>
    let first := (e.atDepth depth).run layout [op]
    let others := runAt layout depth first.emitter rest
    (others.1, first.events ++ others.2)

/-- Carries out operations, each line at the depth at which its first text stands. Operations that
move the level are left out. -/
def outline (layout : Layout) (e : Emitter) (nest : List Nest) : List Op → Outline
  | [] => ⟨e, nest, []⟩
  | op :: rest =>
    let first :=
      if op.movesLevel then (e, []) else e.runAt layout (op.depth nest) (op.parts layout)
    let others := outline layout first.1 (op.nestAfter nest) rest
    { others with events := first.2 ++ others.events }

variable {layout : Layout} {e r : Emitter}

theorem outline_append (nest : List Nest) (first second : List Op) :
    e.outline layout nest (first ++ second) =
      let begun := e.outline layout nest first
      let ended := begun.emitter.outline layout begun.nest second
      ⟨ended.emitter, ended.nest, begun.events ++ ended.events⟩ := by
  induction first generalizing e nest with
  | nil => rfl
  | cons op rest ih => simp [outline, ih]

@[simp] theorem atDepth_level (e : Emitter) : e.atDepth e.level = e := by
  unfold atDepth
  split <;> rfl

@[simp] theorem line_atDepth (depth : Nat) : (e.atDepth depth).line = e.line := by
  unfold atDepth
  split <;> rfl

theorem level_flush (layout : Layout) (e : Emitter) : (e.flush layout).1.level = e.level := by
  unfold flush
  split <;> rfl

theorem step_still (layout : Layout) (e : Emitter) {op : Op} (still : op.movesLevel = false) :
    ∃ next events, e.step layout op = .ok (next, events) ∧ next.level = e.level := by
  have operator (op : String) (context : Option String) :
      (e.operator layout op context).1.level = e.level := by
    unfold operator
    dsimp only
    split <;> split <;> simp [level_flush, push]
  have blankLine : (e.blankLine layout).1.level = e.level := by
    unfold blankLine
    dsimp only
    split <;> simp [level_flush]
  cases op with
  | operator op context => exact ⟨_, _, by rw [step], operator op context⟩
  | endOfStatement context => exact ⟨_, _, by rw [step], operator ";" _⟩
  | line text => exact ⟨_, _, by rw [step], by simp [level_flush, push]⟩
  | flush => exact ⟨_, _, by rw [step], level_flush layout e⟩
  | blankLine => exact ⟨_, _, by rw [step], blankLine⟩
  | blankLineIf path =>
      rw [step]
      split
      · exact ⟨_, _, rfl, blankLine⟩
      · exact ⟨_, _, rfl, rfl⟩
  | indent | unindent | pushIndent | popIndent => contradiction
  | _ => exact ⟨_, _, rfl, rfl⟩

theorem run_still (layout : Layout) (e : Emitter) {op : Op} (still : op.movesLevel = false) :
    (e.run layout [op]).fault = none ∧ (e.run layout [op]).emitter.level = e.level := by
  obtain ⟨next, events, stepped, level⟩ := step_still layout e still
  rw [run_cons_ok stepped]
  exact ⟨rfl, level⟩

theorem parts_still {op part : Op} (still : op.movesLevel = false)
    (among : part ∈ op.parts layout) : part.movesLevel = false := by
  have spacing (spacing : Spacing) (sign : String) (among : part ∈ spacing.parts sign) :
      part.movesLevel = false := by
    simp only [Spacing.parts, List.mem_append, List.mem_singleton] at among
    rcases among with (before | rfl) | after
    · split at before <;> simp_all [Op.movesLevel]
    · rfl
    · split at after <;> simp_all [Op.movesLevel]
  cases op with
  | operator op context => exact spacing _ _ among
  | endOfStatement context => exact spacing _ _ among
  | line text =>
      simp only [Op.parts, List.mem_cons, List.not_mem_nil, or_false] at among
      rcases among with rfl | rfl | rfl <;> rfl
  | blankLineIf path =>
      simp only [Op.parts] at among
      split at among <;> simp_all [Op.movesLevel]
  | _ =>
      simp only [Op.parts, List.mem_singleton] at among
      exact among ▸ still

/-- The emitter and the one of its outline differ in the level at most, and not once a line is
begun. -/
def Mirrors (e r : Emitter) : Prop :=
  r.atDepth e.level = e

theorem mirrors_self (e : Emitter) : Mirrors e e :=
  atDepth_level e

theorem Mirrors.line_eq (mirrors : Mirrors e r) : r.line = e.line := by
  rw [← mirrors, line_atDepth]

theorem Mirrors.atDepth (mirrors : Mirrors e r) (depth : Nat) : Mirrors e (r.atDepth depth) := by
  unfold Mirrors Emitter.atDepth at *
  by_cases open_ : r.line = ""
  · simpa [open_] using mirrors
  · simpa [open_] using mirrors

theorem Mirrors.withLevel (mirrors : Mirrors e r) (between : e.line = "") (level : Nat) :
    Mirrors { e with level } r := by
  have open_ : r.line = "" := mirrors.line_eq.trans between
  unfold Mirrors Emitter.atDepth at *
  rw [if_pos open_] at mirrors ⊢
  rw [← mirrors]

theorem Mirrors.runAt (layout : Layout) {ops : List Op} (still : ∀ op ∈ ops, op.movesLevel = false)
    (mirrors : Mirrors e r) :
    (e.run layout ops).fault = none ∧ (e.run layout ops).emitter.level = e.level ∧
      (r.runAt layout e.level ops).2 = (e.run layout ops).events ∧
      Mirrors (e.run layout ops).emitter (r.runAt layout e.level ops).1 := by
  induction ops generalizing e r with
  | nil => exact ⟨rfl, rfl, rfl, mirrors⟩
  | cons op rest ih =>
      rw [List.forall_mem_cons] at still
      obtain ⟨next, events, stepped, level⟩ := step_still layout e still.1
      have first : e.run layout [op] = ⟨next, events ++ [], none⟩ := run_cons_ok stepped
      obtain ⟨calm, levels, same, after⟩ := ih still.2 (mirrors_self next)
      rw [run_cons_ok stepped, Emitter.runAt, mirrors, first, List.append_nil]
      rw [level] at levels same after
      exact ⟨calm, levels, congrArg (events ++ ·) same, after⟩

theorem Mirrors.flush (layout : Layout) (depth : Nat) (mirrors : Mirrors e r) :
    ((r.atDepth depth).flush layout).2 = (e.flush layout).2 ∧
      Mirrors (e.flush layout).1 ((r.atDepth depth).flush layout).1 := by
  by_cases between : e.line = ""
  · have empty : (r.atDepth depth).line = "" := by rw [line_atDepth, mirrors.line_eq, between]
    have idle (e : Emitter) (between : e.line = "") : e.flush layout = (e, []) := by
      simp [Emitter.flush, between]
    rw [idle e between, idle _ empty]
    exact ⟨rfl, mirrors.atDepth depth⟩
  · have same : r.atDepth depth = e := by
      have begun : r.line ≠ "" := fun empty => between (mirrors.line_eq ▸ empty)
      unfold Mirrors Emitter.atDepth at *
      rw [if_neg begun] at mirrors ⊢
      exact mirrors
    rw [same]
    exact ⟨rfl, mirrors_self _⟩

abbrev Stage := Emitter → List Nest → Prop

def Stands (opened : List Nest → Prop) (level : Nat) : Stage :=
  fun e nest => opened nest ∧ e.level = level

def Between (opened : List Nest → Prop) (level : Nat) : Stage :=
  fun e nest => Stands opened level e nest ∧ e.line = ""

/-- From the first stage on, a script has no fault and the lines of its outline. Unless it fails,
it ends in the second stage. -/
def Nests (layout : Layout) (before : Stage) (s : Script) (after : Stage) : Prop :=
  ∀ e r nest, Mirrors e r → before e nest →
    (e.run layout s.ops).fault = none ∧
    (r.outline layout nest s.ops).events = (e.run layout s.ops).events ∧
    (s.failure = none →
      Mirrors (e.run layout s.ops).emitter (r.outline layout nest s.ops).emitter ∧
        after (e.run layout s.ops).emitter (r.outline layout nest s.ops).nest)

variable {before between after : Stage} {s : Script} {opened reached : List Nest → Prop}
  {level : Nat} {op : Op}

theorem Nests.append {first second : Script} (left : Nests layout before first between)
    (right : Nests layout between second after) : Nests layout before (first ++ second) after := by
  intro e r nest mirrors stage
  obtain ⟨calm, events, ends⟩ := left e r nest mirrors stage
  cases failed : first.failure with
  | some d =>
      rw [Script.append_of_failure second failed]
      exact ⟨calm, events, fun whole => absurd (failed.symm.trans whole) (by simp)⟩
  | none =>
      obtain ⟨mirrors, stage⟩ := ends failed
      obtain ⟨calmRest, eventsRest, endsRest⟩ := right _ _ _ mirrors stage
      rw [Script.append_of_whole second failed, run_append calm, outline_append]
      refine ⟨calmRest, ?_, endsRest⟩
      dsimp only
      rw [events, eventsRest]

theorem Nests.mono {weaker : Stage} (nests : Nests layout before s between)
    (implies : ∀ e nest, between e nest → weaker e nest) : Nests layout before s weaker := by
  intro e r nest mirrors stage
  obtain ⟨calm, events, ends⟩ := nests e r nest mirrors stage
  exact ⟨calm, events, fun whole => ⟨(ends whole).1, implies _ _ (ends whole).2⟩⟩

theorem Nests.from {stronger : Stage} (nests : Nests layout before s after)
    (implies : ∀ e nest, stronger e nest → before e nest) : Nests layout stronger s after :=
  fun e r nest mirrors stage => nests e r nest mirrors (implies e nest stage)

theorem nests_fail (d : Diagnostic) : Nests layout before (.fail d) after :=
  fun _ _ _ _ _ => ⟨rfl, rfl, fun whole => by simp [Script.fail] at whole⟩

theorem nests_empty : Nests layout before .empty before :=
  fun _ _ _ mirrors stage => ⟨rfl, rfl, fun _ => ⟨mirrors, stage⟩⟩

theorem nests_ops {ops : List Op} (all : ∀ op ∈ ops, Nests layout before (.of [op]) before) :
    Nests layout before (.of ops) before := by
  induction ops with
  | nil => exact nests_empty
  | cons op rest ih =>
      rw [List.forall_mem_cons] at all
      exact Nests.append all.1 (ih all.2)

theorem nests_op (still : op.movesLevel = false)
    (deep : ∀ nest, opened nest → op.depth nest = level)
    (opens : ∀ nest, opened nest → reached (op.nestAfter nest)) :
    Nests layout (Stands opened level) (.of [op]) (Stands reached level) := by
  rintro e r nest mirrors ⟨isOpen, atLevel⟩
  have parts : e.run layout [op] = e.run layout (op.parts layout) := (run_parts op).symm
  obtain ⟨calm, levels, events, ends⟩ :=
    mirrors.runAt layout fun part among => parts_still still among
  have depth : op.depth nest = e.level := (deep nest isOpen).trans atLevel.symm
  simp only [Script.of, outline, still, depth, Bool.false_eq_true, if_false, List.append_nil, parts]
  exact ⟨calm, events, fun _ => ⟨ends, opens nest isOpen, levels.trans atLevel⟩⟩

theorem Nests.ended (nests : Nests layout before s (Stands opened level))
    (ends : ∀ e nest, before e nest → (e.run layout s.ops).emitter.line = "") :
    Nests layout before s (Between opened level) := by
  intro e r nest mirrors stage
  obtain ⟨calm, events, after⟩ := nests e r nest mirrors stage
  exact ⟨calm, events, fun whole =>
    ⟨(after whole).1, (after whole).2, ends e nest stage⟩⟩

theorem nests_flush :
    Nests layout (Stands opened level) (.of [.flush]) (Between opened level) := by
  rintro e r nest mirrors ⟨isOpen, atLevel⟩
  obtain ⟨events, ends⟩ := mirrors.flush layout nest.length
  have ran : e.run layout [.flush] = ⟨(e.flush layout).1, (e.flush layout).2, none⟩ := by
    simp [run, step]
  have outlined : r.outline layout nest [.flush] =
      ⟨((r.atDepth nest.length).flush layout).1, nest,
        ((r.atDepth nest.length).flush layout).2⟩ := by
    simp [outline, Op.movesLevel, Op.parts, Op.depth, Op.nestAfter, Emitter.runAt, run, step]
  rw [Script.of, ran, outlined]
  exact ⟨rfl, events, fun _ => ⟨ends, ⟨isOpen, (level_flush layout e).trans atLevel⟩,
    line_flush layout e⟩⟩

theorem nests_indent :
    Nests layout (Between opened level) (.of [.indent]) (Between opened (level + 1)) := by
  rintro e r nest mirrors ⟨⟨isOpen, atLevel⟩, between⟩
  have stepped : e.step layout .indent = .ok ({ e with level := level + 1 }, []) := by
    simp [step, between, atLevel]
  rw [Script.of, run_cons_ok stepped]
  exact ⟨rfl, rfl, fun _ => ⟨mirrors.withLevel between _, ⟨isOpen, rfl⟩, between⟩⟩

theorem nests_unindent :
    Nests layout (Between opened (level + 1)) (.of [.unindent]) (Between opened level) := by
  rintro e r nest mirrors ⟨⟨isOpen, atLevel⟩, between⟩
  have stepped : e.step layout .unindent = .ok ({ e with level }, []) := by
    simp [step, between, atLevel]
  rw [Script.of, run_cons_ok stepped]
  exact ⟨rfl, rfl, fun _ => ⟨mirrors.withLevel between _, ⟨isOpen, rfl⟩, between⟩⟩

end Emitter

end Zephir
