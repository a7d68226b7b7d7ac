import Zephir.Proofs.Emit.Parts
import Zephir.Proofs.Php.Indentation

/-!
A layout only moves blanks. Whatever the layout says, the lines that are written and the line that
is still open hold the characters of the operations in order, apart from blanks. So two layouts
give the same text up to blanks.
-/

namespace Zephir

def Text.withoutBlanks (text : String) : List Char :=
  text.toList.filter fun c => !isBlank c

def Op.text : Op → String
  | .emit text => text
  | .keyword word => word
  | .token text _ _ => text
  | .operator op _ => op
  | .endOfStatement _ => ";"
  | .line text => text
  | _ => ""

def Event.text : Event → String
  | .start _ => ""
  | .write line => line

open Text

@[simp] theorem withoutBlanks_append (left right : String) :
    withoutBlanks (left ++ right) = withoutBlanks left ++ withoutBlanks right := by
  simp [withoutBlanks]

theorem filter_dropBlank (chars : List Char) :
    (dropBlank chars).filter (fun c => !isBlank c) = chars.filter fun c => !isBlank c := by
  induction chars with
  | nil => rfl
  | cons c rest ih =>
      unfold dropBlank at *
      by_cases blank : isBlank c = true
      · rw [List.dropWhile_cons_of_pos blank, ih]
        simp [blank]
      · rw [List.dropWhile_cons_of_neg blank]

@[simp] theorem withoutBlanks_trimEnd (text : String) :
    withoutBlanks (trimEnd text) = withoutBlanks text := by
  simp [withoutBlanks, trimEnd, dropBlankEnd, filter_dropBlank]

theorem withoutBlanks_replicate {c : Char} (blank : isBlank c = true) (count : Nat) :
    withoutBlanks (String.ofList (List.replicate count c)) = [] := by
  simp [withoutBlanks, blank]

theorem withoutBlanks_join (texts : List String) :
    withoutBlanks (String.join texts) = texts.flatMap withoutBlanks := by
  induction texts with
  | nil => rfl
  | cons first rest ih => simp [String.join_cons, ih]

@[simp] theorem withoutBlanks_indentUnit (layout : Layout) :
    withoutBlanks layout.indentUnit = [] := by
  unfold Layout.indentUnit
  split
  · rfl
  · exact withoutBlanks_replicate rfl _

namespace Emitter

variable {layout : Layout} {e : Emitter}

@[simp] theorem withoutBlanks_indentation (level : Nat) :
    withoutBlanks (indentation layout level) = [] := by
  simp [indentation, withoutBlanks_join]

@[simp] theorem withoutBlanks_push (text : String) (before after : Option Bool)
    (fallback : Bool) :
    withoutBlanks (e.push text before after fallback).line =
      withoutBlanks e.line ++ withoutBlanks text := by
  have blank : withoutBlanks " " = [] := rfl
  simp only [push]
  split <;> simp [blank]

/-- The characters of the events and of the line that follows them. -/
def inked (result : Emitter × List Event) : List Char :=
  result.2.flatMap (withoutBlanks ·.text) ++ withoutBlanks result.1.line

@[simp] theorem inked_flush (layout : Layout) (e : Emitter) :
    inked (e.flush layout) = withoutBlanks e.line := by
  have empty : withoutBlanks "" = [] := rfl
  unfold flush
  split
  · simp [inked]
  · simp [inked, Event.text, empty]

theorem inked_append (next : Emitter) (first second : List Event) :
    inked (next, first ++ second) =
      first.flatMap (withoutBlanks ·.text) ++ inked (next, second) := by
  simp [inked]

theorem inked_push_flush (text : String) (before after : Option Bool) (fallback : Bool) :
    inked ((e.flush layout).1.push text before after fallback, (e.flush layout).2) =
      withoutBlanks e.line ++ withoutBlanks text := by
  rw [← inked_flush layout]
  simp [inked]

theorem inked_flush_after (next : Emitter) (events : List Event) :
    inked ((next.flush layout).1, events ++ (next.flush layout).2) = inked (next, events) := by
  rw [inked_append, inked_flush]
  rfl

theorem inked_operator (op : String) (context : Option String) :
    inked (e.operator layout op context) = withoutBlanks e.line ++ withoutBlanks op := by
  unfold operator
  by_cases breaksBefore : (layout.spacing op context).newlineBefore = true
  · by_cases breaksAfter : (layout.spacing op context).newlineAfter = true
    · simp only [breaksBefore, breaksAfter, if_true]
      rw [inked_flush_after, inked_push_flush]
    · simp only [breaksBefore, breaksAfter, if_true, Bool.false_eq_true, if_false, List.append_nil]
      exact inked_push_flush op _ _ _
  · by_cases breaksAfter : (layout.spacing op context).newlineAfter = true
    · simp only [breaksBefore, breaksAfter, if_true, Bool.false_eq_true, if_false]
      rw [inked_flush_after]
      simp [inked]
    · simp [breaksBefore, breaksAfter, inked]

theorem inked_blankLine : inked (e.blankLine layout) = withoutBlanks e.line := by
  have empty : withoutBlanks "" = [] := rfl
  rw [← inked_flush layout]
  unfold blankLine
  dsimp only
  split
  · simp [inked, Event.text, empty]
  · rfl

/-- What a step can come to: it opens a unit, writes the text of its operation, ends lines, or
leaves the line alone. -/
inductive StepsTo (layout : Layout) (e : Emitter) : Op → Emitter × List Event → Prop
  | opened {target} : StepsTo layout e (.start target) (e, [.start target])
  | pushed {op before after fallback} :
      StepsTo layout e op (e.push op.text before after fallback, [])
  | operator {op context} : StepsTo layout e op (e.operator layout op.text context)
  | line {op before after fallback next} (last : ((e.flush layout).1.push op.text before after
      fallback).flush layout = next) : StepsTo layout e op (next.1, (e.flush layout).2 ++ next.2)
  | flushed {op} (silent : op.text = "") : StepsTo layout e op (e.flush layout)
  | parted {op} (silent : op.text = "") : StepsTo layout e op (e.blankLine layout)
  | unwritten {op next} (silent : op.text = "") (same : next.line = e.line) :
      StepsTo layout e op (next, [])

theorem stepsTo_of_step {op : Op} {result : Emitter × List Event}
    (stepped : e.step layout op = .ok result) : StepsTo layout e op result := by
  cases op with
  | blankLineIf path =>
      rw [step] at stepped
      split at stepped
      · cases stepped
        exact .parted rfl
      · cases stepped
        exact .unwritten rfl rfl
  | indent =>
      cases stepped
      split <;> exact .unwritten rfl rfl
  | unindent =>
      rw [step] at stepped
      split at stepped
      · split at stepped
        · contradiction
        · cases stepped
          exact .unwritten rfl rfl
      · cases stepped
        exact .unwritten rfl rfl
  | popIndent =>
      rw [step] at stepped
      split at stepped
      · contradiction
      · cases stepped
        exact .unwritten rfl rfl
  | start target =>
      cases stepped
      exact .opened
  | emit text | keyword word | token text before after =>
      cases stepped
      exact .pushed
  | operator op context =>
      rw [step, Except.ok.injEq] at stepped
      exact stepped ▸ .operator
  | endOfStatement context =>
      rw [step, Except.ok.injEq] at stepped
      exact stepped ▸ .operator
  | line text =>
      rw [step, Except.ok.injEq] at stepped
      exact stepped ▸ .line rfl
  | flush =>
      cases stepped
      exact .flushed rfl
  | blankLine =>
      cases stepped
      exact .parted rfl
  | pushIndent =>
      cases stepped
      exact .unwritten rfl rfl

/-- A step moves the characters of the line along, and adds those of its operation. -/
theorem inked_step {op : Op} {result : Emitter × List Event}
    (stepped : e.step layout op = .ok result) :
    inked result = withoutBlanks e.line ++ withoutBlanks op.text := by
  have empty : withoutBlanks "" = [] := rfl
  cases stepsTo_of_step stepped with
  | opened => simp [inked, Event.text, Op.text, empty]
  | pushed => simp [inked]
  | operator => exact inked_operator _ _
  | line last => rw [← last, inked_flush_after, inked_push_flush]
  | flushed silent => simp [silent, empty]
  | parted silent => simp [silent, empty, inked_blankLine]
  | unwritten silent same => simp [silent, empty, inked, same]

theorem inked_run {ops : List Op} (calm : (e.run layout ops).fault = none) :
    inked ((e.run layout ops).emitter, (e.run layout ops).events) =
      withoutBlanks e.line ++ ops.flatMap (withoutBlanks ·.text) := by
  induction ops generalizing e with
  | nil => simp [run, inked]
  | cons op rest ih =>
      cases stepped : e.step layout op with
      | error fault => simp [run_cons_error stepped] at calm
      | ok result =>
          obtain ⟨next, events⟩ := result
          rw [run_cons_ok stepped] at calm ⊢
          have first := inked_step stepped
          rw [inked_append, ih calm, List.flatMap_cons, ← List.append_assoc, ← List.append_assoc,
            ← first]
          rfl

end Emitter

theorem withoutBlanks_joinLines (lines : List String) :
    withoutBlanks (joinLines lines) = lines.flatMap withoutBlanks := by
  have newline : withoutBlanks "\n" = [] := rfl
  simp [joinLines, withoutBlanks_join, List.flatMap_map, newline]

theorem withoutBlanks_deliverAll (buffer : Buffer) {events : List Event}
    (plain : ∀ target, .start target ∉ events) :
    (Delivery.deliverAll bufferSink { state := buffer } events).failure = none ∧
      withoutBlanks (Delivery.deliverAll bufferSink { state := buffer } events).state.contents =
        withoutBlanks buffer.contents ++ events.flatMap (withoutBlanks ·.text) := by
  induction events generalizing buffer with
  | nil => simp [Delivery.deliverAll]
  | cons event rest ih =>
      cases event with
      | start target => exact absurd List.mem_cons_self (plain target)
      | write line =>
          have plainRest : ∀ target, .start target ∉ rest := fun target among =>
            plain target (List.mem_cons_of_mem _ among)
          have delivered := ih { buffer with lines := buffer.lines ++ [line] } plainRest
          refine ⟨delivered.1, delivered.2.trans ?_⟩
          simp [Buffer.contents, withoutBlanks_joinLines, Event.text]

namespace Emitter

variable {layout : Layout} {e : Emitter}

theorem start_notMem_flush (layout : Layout) (e : Emitter) (target : String) :
    .start target ∉ (e.flush layout).2 := by
  unfold flush
  split <;> simp

theorem start_notMem_operator (op : String) (context : Option String) (target : String) :
    .start target ∉ (e.operator layout op context).2 := by
  unfold operator
  dsimp only
  split <;> split <;> simp [start_notMem_flush]

theorem start_notMem_blankLine (target : String) : .start target ∉ (e.blankLine layout).2 := by
  unfold blankLine
  dsimp only
  split <;> simp [start_notMem_flush]

theorem start_notMem_step {op : Op} {result : Emitter × List Event}
    (other : ∀ target, op ≠ .start target) (stepped : e.step layout op = .ok result)
    (target : String) : .start target ∉ result.2 := by
  cases stepsTo_of_step stepped with
  | opened => exact absurd rfl (other _)
  | pushed => simp
  | operator => exact start_notMem_operator _ _ target
  | line last =>
      rw [← last]
      simp [start_notMem_flush]
  | flushed => exact start_notMem_flush layout e target
  | parted => exact start_notMem_blankLine target
  | unwritten => simp

theorem start_notMem_run {ops : List Op} (plain : ∀ target, .start target ∉ ops)
    (target : String) : .start target ∉ (e.run layout ops).events := by
  induction ops generalizing e with
  | nil => simp [run]
  | cons op rest ih =>
      simp only [List.mem_cons, not_or] at plain
      cases stepped : e.step layout op with
      | error fault => simp [run_cons_error stepped]
      | ok result =>
          obtain ⟨next, events⟩ := result
          rw [run_cons_ok stepped, List.mem_append, not_or]
          exact ⟨start_notMem_step (fun target same => (plain target).1 same.symm) stepped target,
            ih fun target => (plain target).2⟩

end Emitter

section Rendering

variable {layout : Layout} {unit : List Node}

theorem renderPhp_of_fault {fault : Fault}
    (stopped : (Emitter.run layout {} (Php.unit unit).ops).fault = some fault) :
    renderPhp layout unit = .error (.fault fault) := by
  simp [renderPhp, renderInto, Emitter.run, Emitter.step, stopped]

theorem fault_eq_none_of_calm (calm : ∀ fault, renderPhp layout unit ≠ .error (.fault fault)) :
    (Emitter.run layout {} (Php.unit unit).ops).fault = none := by
  cases stopped : (Emitter.run layout {} (Php.unit unit).ops).fault with
  | none => rfl
  | some fault => exact absurd (renderPhp_of_fault stopped) (calm fault)

theorem renderPhp_of_failure {d : Diagnostic}
    (calm : (Emitter.run layout {} (Php.unit unit).ops).fault = none)
    (failed : (Php.unit unit).failure = some d) :
    renderPhp layout unit = .error (.refused (.single d)) := by
  simp [renderPhp, renderInto, Emitter.run, Emitter.step, calm, failed]

theorem start_notMem_unit (unit : List Node) (target : String) :
    .start target ∉ (Php.unit unit).ops := by
  have declared : Php.Declared (fun _ => True) (Php.unit unit) :=
    Php.declared_unit fun _ _ => trivial
  exact declared.tame.opens target

/-- The lines of a run, the one that the end of the unit flushes among them. -/
def Emitter.Outcome.lines (outcome : Emitter.Outcome) (layout : Layout) : List Event :=
  outcome.events ++ (outcome.emitter.flush layout).2

theorem start_notMem_lines (layout : Layout) (unit : List Node) (target : String) :
    .start target ∉ (Emitter.run layout {} (Php.unit unit).ops).lines layout := by
  simp only [Emitter.Outcome.lines, List.mem_append, not_or]
  exact ⟨Emitter.start_notMem_run (start_notMem_unit unit) target,
    Emitter.start_notMem_flush layout _ target⟩

theorem close_bufferSink {d : Delivery Buffer} (calm : d.failure = none) :
    d.close bufferSink = d := by
  obtain ⟨buffer, failure⟩ := d
  subst calm
  rfl

theorem renderPhp_of_whole (calm : (Emitter.run layout {} (Php.unit unit).ops).fault = none)
    (whole : (Php.unit unit).failure = none) :
    renderPhp layout unit = .ok (Delivery.deliverAll bufferSink
      { state := { target := some "<memory>" } }
      ((Emitter.run layout {} (Php.unit unit).ops).lines layout)).state.contents := by
  have delivered :=
    (withoutBlanks_deliverAll { target := some "<memory>" } (start_notMem_lines layout unit)).1
  generalize ran : Emitter.run layout {} (Php.unit unit).ops = outcome at calm delivered
  have opened : Delivery.deliverAll bufferSink { state := {} }
      (.start "<memory>" :: outcome.events) =
      Delivery.deliverAll bufferSink { state := { target := some "<memory>" } } outcome.events :=
    rfl
  have closed : Output.finish layout bufferSink ⟨outcome.emitter,
        Delivery.deliverAll bufferSink { state := { target := some "<memory>" } } outcome.events⟩ =
      Delivery.deliverAll bufferSink { state := { target := some "<memory>" } }
        (outcome.lines layout) := by
    rw [← close_bufferSink delivered]
    simp [Output.finish, Delivery.deliverAll, Emitter.Outcome.lines]
  simp [renderPhp, renderInto, Emitter.run, Emitter.step, ran, calm, whole, opened, closed,
    delivered]

/-- A unit that is rendered has the characters of its operations, in order. -/
theorem renderPhp_text (calm : (Emitter.run layout {} (Php.unit unit).ops).fault = none)
    (whole : (Php.unit unit).failure = none) :
    ∃ text, renderPhp layout unit = .ok text ∧
      withoutBlanks text = (Php.unit unit).ops.flatMap (withoutBlanks ·.text) := by
  have flushed := Emitter.inked_flush layout (Emitter.run layout {} (Php.unit unit).ops).emitter
  have written := Emitter.inked_run calm
  have contents :=
    (withoutBlanks_deliverAll { target := some "<memory>" } (start_notMem_lines layout unit)).2
  refine ⟨_, renderPhp_of_whole calm whole, contents.trans ?_⟩
  have empty : withoutBlanks "" = [] := rfl
  simp only [Emitter.inked, Emitter.line_flush, empty, List.append_nil, List.nil_append]
    at flushed written
  simp [Emitter.Outcome.lines, Buffer.contents, joinLines, String.join, empty, flushed, written]

/-- Two layouts agree on whether and why a unit fails, and on its text but for the blanks. -/
theorem renderPhp_layout_irrelevant (first second : Layout) (unit : List Node)
    (calmFirst : ∀ fault, renderPhp first unit ≠ .error (.fault fault))
    (calmSecond : ∀ fault, renderPhp second unit ≠ .error (.fault fault)) :
    (∃ e, renderPhp first unit = .error e ∧ renderPhp second unit = .error e) ∨
      ∃ text other, renderPhp first unit = .ok text ∧ renderPhp second unit = .ok other ∧
        withoutBlanks text = withoutBlanks other := by
  have ranFirst := fault_eq_none_of_calm calmFirst
  have ranSecond := fault_eq_none_of_calm calmSecond
  cases failed : (Php.unit unit).failure with
  | some d =>
      left
      exact ⟨_, renderPhp_of_failure ranFirst failed, renderPhp_of_failure ranSecond failed⟩
  | none =>
      right
      obtain ⟨text, rendered, inked⟩ := renderPhp_text ranFirst failed
      obtain ⟨other, renderedOther, inkedOther⟩ := renderPhp_text ranSecond failed
      exact ⟨text, other, rendered, renderedOther, inked.trans inkedOther.symm⟩

def closureSample : List Node :=
  let closure := Expr.plain (.closure [] [⟨.ret none, {}, []⟩] .empty) {}
  [⟨.functionDecl ⟨"f", [], [⟨.ret (some closure), {}, []⟩], .empty, none⟩, {}, []⟩]

def braceLayout : Layout :=
  Layout.empty.override [("indent.tabs", .flag true), ("newlines.\x7b.after", .flag true)]

theorem ne_error_of_isOk {ε α : Type} {result : Except ε α} (ok : result.isOk = true) (e : ε) :
    result ≠ .error e := by
  rintro rfl
  contradiction

theorem isOk_renderPhp_closureSample (layout : Layout) :
    (renderPhp layout closureSample).isOk = true := by
  have functions : ∀ n ∈ closureSample, ∃ f, n.kind = .functionDecl f := by simp [closureSample]
  rw [renderPhp_of_whole (Php.fault_eq_none_of_functions layout functions) rfl]
  rfl

theorem closureSample_layout_irrelevant :
    (renderPhp braceLayout closureSample).isOk = true ∧
      (renderPhp .empty closureSample).isOk = true ∧
      ∃ text other, renderPhp braceLayout closureSample = .ok text ∧
        renderPhp .empty closureSample = .ok other ∧ withoutBlanks text = withoutBlanks other := by
  have spread := isOk_renderPhp_closureSample braceLayout
  have packed := isOk_renderPhp_closureSample .empty
  refine ⟨spread, packed, ?_⟩
  obtain ⟨e, failed, -⟩ | same := renderPhp_layout_irrelevant braceLayout .empty closureSample
    (fun _ => ne_error_of_isOk spread _) (fun _ => ne_error_of_isOk packed _)
  · exact absurd failed (ne_error_of_isOk spread e)
  · exact same

end Rendering

end Zephir
