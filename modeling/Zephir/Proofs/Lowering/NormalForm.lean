import Mathlib.Tactic.Tauto
import Zephir.Php.Tree
import Zephir.Proofs.Lowering.Hoisting
import Zephir.Proofs.Syntax.Every

/-!
The normal form of lowered bodies. Lowering never reaches some positions: the name of a property or
class behind an operator, both sides of a static access, the classes and variables of handlers, and
the default values of parameters. What it does reach comes out without the forms that only sources
have, with loops and handlers in their final shape. So a lowered body passes a check exactly if the
positions that lowering keeps do.
-/

namespace Zephir

open Lowering

def canWrite (mode : AssignMode) (target : AssignTarget) : Bool :=
  let assign := ⟨target, none, "base", some "property", [], some (.nullAt {})⟩
  (Php.statementKind {} (.assign mode assign)).failure.isNone

/-- A loop has a value and runs forward. If it counts, it has an index and a length. -/
def ForHead.IsFinal (head : ForHead) : Prop :=
  head.value.isSome ∧ head.reverse = false ∧
    (head.counted = true → head.key.isSome ∧ head.length.isSome)

/-- There is a handler, and each handler has one class and a variable. -/
def HandlersFinal (catches : List Catch) : Prop :=
  catches ≠ [] ∧ ∀ clause ∈ catches, clause.classes.length = 1 ∧ clause.binding.isSome

/-- A check that accepts all that lowering makes. -/
structure Check.AcceptsLowered (c : Check) : Prop where
  expr : ∀ form : ExprForm, form.isSource = false → c.expr form
  statement : ∀ form : StatementForm, form.isSource = false → c.statement form
  assign : ∀ mode target, canWrite mode target = true → c.assign mode target
  loop : ∀ head : ForHead, head.IsFinal → c.loop head
  handlers : ∀ catches, HandlersFinal catches → c.handlers catches

mutual

/-- What lowering keeps of an expression passes the check. -/
def KeptExpr (c : Check) : Expr → Prop
  | ⟨kind, _, _, _⟩ => KeptPart c kind

def KeptPart (c : Check) : ExprKind → Prop
  | .array entries => KeptEntries c entries
  | .access .property object member => KeptExpr c object ∧ EveryExpr c member
  | .access .staticProperty object member => EveryExpr c object ∧ EveryExpr c member
  | .access .classConstant object member => EveryExpr c object ∧ EveryExpr c member
  | .access .element object member => KeptExpr c object ∧ KeptExpr c member
  | .access .dynamicProperty object member => KeptExpr c object ∧ KeptExpr c member
  | .access .stringProperty object member => KeptExpr c object ∧ KeptExpr c member
  | .call _ _ arguments => KeptExprs c arguments
  | .methodCall receiver _ _ arguments => KeptExpr c receiver ∧ KeptExprs c arguments
  | .staticCall _ arguments => KeptExprs c arguments
  | .new _ _ arguments => KeptExprs c arguments
  | .unary _ operand => KeptExpr c operand
  | .binary _ left right => KeptExpr c left ∧ KeptExpr c right
  | .instanceOf value className => KeptExpr c value ∧ EveryExpr c className
  | .range _ low high => KeptExpr c low ∧ KeptExpr c high
  | .ternary condition yes no => KeptExpr c condition ∧ KeptExpr c yes ∧ KeptExpr c no
  | .cast _ operand => KeptExpr c operand
  | .typeHint _ operand => KeptExpr c operand
  | .fetch _ source => KeptExpr c source
  | .closure parameters body _ => EveryParameters c parameters ∧ KeptBlock c body
  | .closureArrow _ body => KeptExpr c body
  | _ => True

def KeptExprs (c : Check) : List Expr → Prop
  | [] => True
  | e :: rest => KeptExpr c e ∧ KeptExprs c rest

def KeptOption (c : Check) : Option Expr → Prop
  | none => True
  | some e => KeptExpr c e

def KeptEntries (c : Check) : List ArrayEntry → Prop
  | [] => True
  | ⟨key, value⟩ :: rest => KeptOption c key ∧ KeptExpr c value ∧ KeptEntries c rest

def KeptBlock (c : Check) : List Statement → Prop
  | [] => True
  | s :: rest => KeptStatement c s ∧ KeptBlock c rest

def KeptStatement (c : Check) : Statement → Prop
  | ⟨kind, _, _⟩ => KeptInner c kind

/-- What lowering keeps of a statement passes the check. Assignments that are not in a `let` and
comments are kept. -/
def KeptInner (c : Check) : StatementKind → Prop
  | .lets assignments => KeptLets c assignments
  | .declare _ declared => KeptDeclared c declared
  | .fetch e => KeptExpr c e
  | .assign mode ⟨target, _, _, _, index, value⟩ =>
    c.assign mode target ∧ KeptExprs c index ∧ KeptOption c value
  | .echo expressions => KeptExprs c expressions
  | .effect _ e => KeptExpr c e
  | .ret value => KeptOption c value
  | .branch condition body elseIfs otherwise =>
    KeptExpr c condition ∧ KeptBlock c body ∧ KeptElseIfs c elseIfs ∧ KeptOtherwise c otherwise
  | .whileLoop _ condition body => KeptExpr c condition ∧ KeptBlock c body
  | .loop body => KeptBlock c body
  | .forLoop _ iterated body => KeptExpr c iterated ∧ KeptBlock c body
  | .switch subject clauses => KeptExpr c subject ∧ KeptClauses c clauses
  | .tryCatch body catches => KeptBlock c body ∧ KeptCatches c catches
  | .comment _ => c.statement .comment
  | _ => True

def KeptLets (c : Check) : List LetAssignment → Prop
  | [] => True
  | ⟨⟨_, _, _, _, index, value⟩, _⟩ :: rest =>
    KeptExprs c index ∧ KeptOption c value ∧ KeptLets c rest

def KeptDeclared (c : Check) : List DeclaredVariable → Prop
  | [] => True
  | ⟨_, value, _⟩ :: rest => KeptOption c value ∧ KeptDeclared c rest

def KeptElseIfs (c : Check) : List ElseIf → Prop
  | [] => True
  | ⟨condition, body, _⟩ :: rest => KeptExpr c condition ∧ KeptBlock c body ∧ KeptElseIfs c rest

def KeptOtherwise (c : Check) : Option (List Statement) → Prop
  | none => True
  | some body => KeptBlock c body

def KeptClauses (c : Check) : List SwitchClause → Prop
  | [] => True
  | ⟨test, body⟩ :: rest => KeptOption c test ∧ KeptBlock c body ∧ KeptClauses c rest

def KeptCatches (c : Check) : List Catch → Prop
  | [] => True
  | ⟨classes, binding, body, _⟩ :: rest =>
    EveryExprs c classes ∧ EveryOption c binding ∧ KeptBlock c body ∧ KeptCatches c rest

end

variable {c : Check} {scope next : Scope}

theorem everyStatement_assignTo (accepts : c.AcceptsLowered) {name : String} {value : Expr}
    {pos : Position} : EveryStatement c (.assignTo name value pos) ↔ EveryExpr c value := by
  have statement := accepts.statement (.assign .set) rfl
  have assign := accepts.assign .set .variable rfl
  simp [Statement.assignTo, EveryStatement, StatementKind.form, EveryInner, Assign.set,
    EveryExprs, EveryOption, statement, assign]

theorem everyExpr_var (accepts : c.AcceptsLowered) (name : String) (pos : Position) :
    EveryExpr c (.var name pos) := by
  have var := accepts.expr .var rfl
  simp [Expr.var, ExprKind.form, EveryPart, var]

theorem everyExpr_callOf (accepts : c.AcceptsLowered) {function : String} {arguments : List Expr}
    {pos : Position} : EveryExpr c (.callOf function arguments pos) ↔ EveryExprs c arguments := by
  have call := accepts.expr .call rfl
  simp [Expr.callOf, ExprKind.form, EveryPart, call]

theorem everyExprs_arguments (accepts : c.AcceptsLowered) {placement : Placement} {receiver : Expr}
    {arguments : List Expr} {pos : Position} :
    EveryExprs c (placement.arguments receiver arguments pos) ↔
      EveryExpr c receiver ∧ EveryExprs c arguments := by
  have string := accepts.expr (.literal .string) rfl
  cases placement with
  | first => simp [Placement.arguments, EveryExprs]
  | last => simp [Placement.arguments, EveryExprs, and_comm]
  | second =>
      cases arguments with
      | nil => simp [Placement.arguments, EveryExprs]
      | cons lead rest =>
          simp only [Placement.arguments, EveryExprs]
          simp only [and_left_comm]
  | afterLiteral text =>
      simp [Placement.arguments, EveryExprs, Expr.str, ExprKind.form, EveryPart, string]

theorem everyExpr_pseudoCall (accepts : c.AcceptsLowered) {owner : PrimitiveType}
    {method : String} {receiver called : Expr} {arguments : List Expr} {pos : Position}
    (translated : pseudoCall owner method receiver arguments pos = .ok called) :
    EveryExpr c called ↔ EveryExpr c receiver ∧ EveryExprs c arguments := by
  unfold pseudoCall at translated
  split at translated
  · contradiction
  · split at translated
    · cases translated
      rw [everyExpr_callOf accepts, everyExprs_arguments accepts]
    · contradiction

theorem everyExpr_fetchedValue (accepts : c.AcceptsLowered) {source : Expr} {pos : Position} :
    EveryExpr c (fetchedValue source pos) ↔ EveryExpr c source := by
  have isset := accepts.expr (.unary .isset) rfl
  have ternary := accepts.expr .ternary rfl
  have null := accepts.expr .null rfl
  simp [fetchedValue, Expr.nullAt, ExprKind.form, EveryPart, isset, ternary, null]

theorem canWrite_resolveTarget {assign location : Assign} {mode : AssignMode} {pos : Position}
    {before : List Statement}
    (resolved : (resolveTarget assign pos).Runs scope before (mode, location) next) :
    canWrite mode location.target = true := by
  obtain ⟨-, ⟨-, -, same, noVariable, noProperty⟩ | ⟨text, name, -, -, choice⟩⟩ :=
    resolveTarget_ensures _ _ resolved
  · obtain ⟨rfl, rfl⟩ := Prod.mk.inj same
    obtain ⟨target, operator, base, property, index, value⟩ := assign
    cases target with
    | dynamicVariableString => exact absurd rfl noVariable
    | stringDynamicObjectProperty => exact absurd rfl noProperty
    | _ => rfl
  · obtain ⟨-, -, same⟩ | ⟨-, -, same⟩ := choice
    · obtain ⟨rfl, rfl⟩ := Prod.mk.inj same
      rfl
    · obtain ⟨rfl, rfl⟩ := Prod.mk.inj same
      rfl

theorem everyBlock_resolveTarget (accepts : c.AcceptsLowered) {assign location : Assign}
    {mode : AssignMode} {pos : Position} {before : List Statement}
    (resolved : (resolveTarget assign pos).Runs scope before (mode, location) next) :
    EveryBlock c before := by
  have string := accepts.expr (.literal .string) rfl
  obtain ⟨-, ⟨rfl, -⟩ | ⟨text, name, rfl, -⟩⟩ := resolveTarget_ensures _ _ resolved
  · trivial
  · simp [EveryBlock, everyStatement_assignTo accepts, Expr.str, ExprKind.form, EveryPart, string]

theorem everyExpr_reversed (accepts : c.AcceptsLowered) {reverse overString : Bool}
    {iterated : Expr} :
    EveryExpr c (reversed reverse overString iterated) ↔ EveryExpr c iterated := by
  unfold reversed
  split
  · split <;> simp [everyExpr_callOf accepts, EveryExprs]
  · rfl

theorem every_loopStart (accepts : c.AcceptsLowered) {head : ForHead} {key : Option String}
    {value : String} {iterated : Expr} {pos : Position} {before : List Statement}
    {start : LoopStart}
    (starts : (loopStart head key value iterated pos).Runs scope before start next) :
    c.loop start.head ∧
      (EveryBlock c before ∧ EveryExpr c start.iterated ∧ EveryBlock c start.opening ↔
        EveryExpr c iterated) := by
  obtain ⟨-, ⟨source, size, index, rfl, rfl⟩ | ⟨rfl, rfl⟩⟩ := loopStart_ensures _ _ starts
  · refine ⟨accepts.loop _ ⟨rfl, rfl, fun _ => ⟨rfl, rfl⟩⟩, ?_⟩
    have element := accepts.expr (.access .element) rfl
    have var : ∀ name pos, EveryExpr c (.var name pos) := everyExpr_var accepts
    simp [EveryBlock, everyStatement_assignTo accepts, everyExpr_reversed accepts,
      everyExpr_callOf accepts, EveryExprs, var, ExprKind.form, EveryPart, element]
  · refine ⟨accepts.loop _ ⟨rfl, rfl, by simp⟩, ?_⟩
    simp [EveryBlock, everyExpr_reversed accepts]

/-- The form of a lowered expression passes, so that only what is below it counts. -/
theorem everyExpr_lowered (accepts : c.AcceptsLowered) {kind : ExprKind} {pos : Position}
    {dataType : Option String} {doCast : Bool} (lowered : kind.form.isSource = false) :
    EveryExpr c ⟨kind, pos, dataType, doCast⟩ ↔ EveryPart c kind := by
  simp [EveryExpr, accepts.expr _ lowered]

theorem everyExpr_fetched (accepts : c.AcceptsLowered) {op : BinaryOp} {name : String}
    {targetPos pos nullPos : Position} {stored dataType : Option String} {doCast : Bool} :
    EveryExpr c ⟨.binary op ⟨.var name, targetPos, stored, false⟩ (.nullAt nullPos), pos, dataType,
      doCast⟩ := by
  have null := accepts.expr .null rfl
  have var := accepts.expr .var rfl
  rw [everyExpr_lowered accepts rfl]
  simp [EveryPart, EveryExpr, ExprKind.form, Expr.nullAt, null, var]

theorem isSource_literal {kind : LiteralKind} {text : String} (plain : kind ≠ .istring) :
    (ExprKind.literal kind text).form.isSource = false := by
  cases kind with
  | istring => exact absurd rfl plain
  | _ => rfl

theorem isSource_unary {op : UnaryOp} {operand : Expr}
    (plain : op ≠ .likely ∧ op ≠ .unlikely ∧ op ≠ .empty ∧ op ≠ .group) :
    (ExprKind.unary op operand).form.isSource = false := by
  obtain ⟨noLikely, noUnlikely, noEmpty, -⟩ := plain
  cases op with
  | likely => exact absurd rfl noLikely
  | unlikely => exact absurd rfl noUnlikely
  | empty => exact absurd rfl noEmpty
  | _ => rfl

theorem everyBlock_lowered (accepts : c.AcceptsLowered) {kind : StatementKind} {pos : Position}
    (lowered : kind.form.isSource = false) :
    EveryBlock c ((some kind).map fun kind => ⟨kind, pos, []⟩).toList ↔ EveryInner c kind := by
  simp [EveryBlock, EveryStatement, accepts.statement _ lowered]

theorem everyBlock_headDocs {docblocks : List Docblock} {statements : List Statement} :
    EveryBlock c (headDocs docblocks statements) ↔ EveryBlock c statements := by
  cases statements with
  | nil => rfl
  | cons s rest =>
      obtain ⟨kind, pos, own⟩ := s
      simp [headDocs, Statement.prependDocs, EveryBlock, EveryStatement]

theorem handlersFinal_split {classes : List Expr} {binding : Expr} {body : List Statement}
    {pos : Position} (some : classes ≠ []) :
    HandlersFinal (splitCatch classes binding body pos) := by
  refine ⟨by simpa [splitCatch] using some, ?_⟩
  simp [splitCatch]

theorem LowersCatches.each {catches catches' : List Catch} {scope next : Scope}
    (lowered : LowersCatches catches scope catches' next) :
    ∀ clause ∈ catches', clause.classes.length = 1 ∧ clause.binding.isSome := by
  induction catches generalizing scope catches' with
  | nil =>
      cases lowered
      simp
  | cons clause others ih =>
      cases lowered with
      | cons _ _ rest =>
          rw [List.forall_mem_append]
          exact ⟨by simp [splitCatch], ih rest⟩

theorem LowersCatches.handlersFinal {clause : Catch} {catches catches' : List Catch}
    (lowered : LowersCatches (clause :: catches) scope catches' next) : HandlersFinal catches' := by
  refine ⟨?_, lowered.each⟩
  cases lowered with
  | @cons classes =>
      cases classes <;> simp [splitCatch]

theorem everyCatches_split (accepts : c.AcceptsLowered) {classes : List Expr}
    {binding : Option Expr} {binding' : Expr} {body : List Statement} {pos : Position}
    (bound : (catchBinding binding pos).Runs scope [] binding' next) :
    EveryCatches c (splitCatch (if classes.isEmpty then [baseException pos] else classes) binding'
      body pos) ↔ EveryExprs c classes ∧ EveryOption c binding ∧ EveryBlock c body := by
  have named : EveryExpr c binding' ↔ EveryOption c binding := by
    obtain ⟨-, -, rfl | ⟨rfl, name, rfl⟩⟩ := catchBinding_ensures _ _ bound
    · rfl
    · simp [EveryOption, everyExpr_var accepts]
  have each : ∀ names, names ≠ [] → (EveryCatches c (splitCatch names binding' body pos) ↔
      EveryExprs c names ∧ EveryOption c binding ∧ EveryBlock c body) := by
    intro names
    induction names with
    | nil => simp
    | cons name rest ih =>
        intro _
        cases rest with
        | nil => simp [splitCatch, EveryCatches, EveryExprs, EveryOption, named]
        | cons other more =>
            rw [splitCatch, List.map_cons, ← splitCatch, EveryCatches, ih (by simp), ← named]
            simp only [EveryExprs, EveryOption]
            tauto
  cases classes with
  | nil =>
      rw [List.isEmpty_nil, if_pos rfl, each _ (by simp)]
      simp [EveryExprs, baseException, everyExpr_var accepts]
  | cons name rest => exact each (name :: rest) (by simp)

mutual

theorem LowersExpr.every_iff (accepts : c.AcceptsLowered) {e e' : Expr} {scope next : Scope}
    {before : List Statement} :
    LowersExpr e scope before e' next → (EveryBlock c before ∧ EveryExpr c e' ↔ KeptExpr c e)
  | .null => by
      rw [everyExpr_lowered accepts rfl]
      simp [EveryBlock, EveryPart, KeptExpr, KeptPart]
  | .literal plain => by
      rw [everyExpr_lowered accepts (isSource_literal plain)]
      simp [EveryBlock, EveryPart, KeptExpr, KeptPart]
  | .istring => by
      rw [everyExpr_lowered accepts rfl]
      simp [EveryBlock, EveryPart, KeptExpr, KeptPart]
  | .emptyArray => by
      rw [everyExpr_lowered accepts rfl]
      simp [EveryBlock, EveryPart, KeptExpr, KeptPart]
  | .array lowered => by
      rw [everyExpr_lowered accepts rfl, KeptExpr, KeptPart, EveryPart]
      exact lowered.every_iff accepts
  | .var => by
      rw [everyExpr_lowered accepts rfl]
      simp [EveryBlock, EveryPart, KeptExpr, KeptPart]
  | .staticAccess static => by
      rcases static with rfl | rfl
      all_goals
        rw [everyExpr_lowered accepts rfl]
        simp [EveryBlock, EveryPart, KeptExpr, KeptPart]
  | .property lowered => by
      rw [everyExpr_lowered accepts rfl, KeptExpr, KeptPart, EveryPart,
        ← lowered.every_iff accepts, and_assoc]
  | .access computed object member => by
      rcases computed with rfl | rfl
      all_goals
        rw [everyExpr_lowered accepts rfl, KeptExpr, KeptPart, EveryPart, everyBlock_append,
          ← object.every_iff accepts, ← member.every_iff accepts]
        simp only [and_assoc, and_left_comm]
  | .stringProperty object member _ => by
      rw [everyExpr_lowered accepts rfl, KeptExpr, KeptPart, EveryPart,
        ← object.every_iff accepts, ← member.every_iff accepts]
      simp only [everyBlock_append, EveryBlock, everyStatement_assignTo accepts,
        everyExpr_withType, everyExpr_var accepts, and_true]
      simp only [and_assoc, and_comm, and_left_comm]
  | .call lowered => by
      rw [everyExpr_lowered accepts rfl, KeptExpr, KeptPart, EveryPart]
      exact lowered.every_iff accepts
  | .methodCall receiver arguments _ => by
      rw [everyExpr_lowered accepts rfl, KeptExpr, KeptPart, EveryPart, everyBlock_append,
        ← receiver.every_iff accepts, ← arguments.every_iff accepts]
      simp only [and_assoc, and_left_comm]
  | .pseudoCall receiver arguments _ translated => by
      rw [everyExpr_pseudoCall accepts translated, KeptExpr, KeptPart, everyBlock_append,
        ← receiver.every_iff accepts, ← arguments.every_iff accepts]
      simp only [and_assoc, and_left_comm]
  | .staticCall lowered => by
      rw [everyExpr_lowered accepts rfl, KeptExpr, KeptPart, EveryPart]
      exact lowered.every_iff accepts
  | .new lowered => by
      rw [everyExpr_lowered accepts rfl, KeptExpr, KeptPart, EveryPart]
      exact lowered.every_iff accepts
  | .newArray => by
      have array := accepts.expr .emptyArray rfl
      simp [EveryBlock, ExprKind.form, EveryPart, KeptExpr, KeptPart, array]
  | .newString => by
      have string := accepts.expr (.literal .string) rfl
      simp [EveryBlock, Expr.str, ExprKind.form, EveryPart, KeptExpr, KeptPart, string]
  | .likely _ lowered => by
      rw [KeptExpr, KeptPart]
      exact lowered.every_iff accepts
  | .empty lowered => by
      rw [everyExpr_withType, everyExpr_callOf accepts, KeptExpr, KeptPart,
        ← lowered.every_iff accepts]
      simp [EveryExprs]
  | .ungroup lowered _ => by
      rw [KeptExpr, KeptPart]
      exact lowered.every_iff accepts
  | .group lowered _ => by
      rw [everyExpr_lowered accepts rfl, KeptExpr, KeptPart, EveryPart]
      exact lowered.every_iff accepts
  | .unary plain _ lowered => by
      rw [everyExpr_lowered accepts (isSource_unary plain), KeptExpr, KeptPart, EveryPart]
      exact lowered.every_iff accepts
  | .binary left right => by
      rw [everyExpr_lowered accepts rfl, KeptExpr, KeptPart, EveryPart, everyBlock_append,
        ← left.every_iff accepts, ← right.every_iff accepts]
      simp only [and_assoc, and_left_comm]
  | .instanceOf lowered => by
      rw [everyExpr_lowered accepts rfl, KeptExpr, KeptPart, EveryPart,
        ← lowered.every_iff accepts, and_assoc]
  | .range low high => by
      rw [everyExpr_withType, everyExpr_callOf accepts, KeptExpr, KeptPart, everyBlock_append,
        ← low.every_iff accepts, ← high.every_iff accepts]
      simp only [EveryExprs, and_true]
      simp only [and_assoc, and_left_comm]
  | .ternary condition yes no => by
      rw [everyExpr_lowered accepts rfl, KeptExpr, KeptPart, EveryPart, everyBlock_append,
        everyBlock_append, ← condition.every_iff accepts, ← yes.every_iff accepts,
        ← no.every_iff accepts]
      simp only [and_assoc, and_left_comm]
  | .cast lowered _ => by
      rw [everyExpr_lowered accepts rfl, KeptExpr, KeptPart, EveryPart]
      exact lowered.every_iff accepts
  | .castHint lowered _ => by
      rw [everyExpr_withType, KeptExpr, KeptPart]
      exact lowered.every_iff accepts
  | .typeHint lowered _ => by
      rw [everyExpr_withType, KeptExpr, KeptPart]
      exact lowered.every_iff accepts
  | .strayHint lowered _ => by
      rw [KeptExpr, KeptPart]
      exact lowered.every_iff accepts
  | .fetch _ lowered => by
      rw [KeptExpr, KeptPart, ← lowered.every_iff accepts]
      simp [EveryBlock, everyStatement_assignTo accepts, everyExpr_fetchedValue accepts,
        everyExpr_fetched accepts]
  | .notFetch _ lowered => by
      rw [KeptExpr, KeptPart, KeptExpr, KeptPart, ← lowered.every_iff accepts]
      simp [EveryBlock, everyStatement_assignTo accepts, everyExpr_fetchedValue accepts,
        everyExpr_fetched accepts]
  | .closure lowered => by
      rw [everyExpr_lowered accepts rfl, KeptExpr, KeptPart, EveryPart, ← lowered.every_iff accepts]
      simp [EveryBlock]
  | .closureArrow _ lowered => by
      have returns := accepts.statement .ret rfl
      rw [everyExpr_lowered accepts rfl, KeptExpr, KeptPart, EveryPart, ← lowered.every_iff accepts]
      simp [EveryBlock, EveryParameters, EveryOption, EveryStatement, StatementKind.form,
        EveryInner, returns]

theorem LowersExprs.every_iff (accepts : c.AcceptsLowered) {es es' : List Expr}
    {scope next : Scope} {before : List Statement} :
    LowersExprs es scope before es' next → (EveryBlock c before ∧ EveryExprs c es' ↔ KeptExprs c es)
  | .nil => by simp [EveryBlock, EveryExprs, KeptExprs]
  | .cons first rest => by
      rw [everyBlock_append, EveryExprs, KeptExprs, ← first.every_iff accepts,
        ← rest.every_iff accepts]
      simp only [and_assoc, and_left_comm]

theorem LowersOption.every_iff (accepts : c.AcceptsLowered) {e e' : Option Expr}
    {scope next : Scope} {before : List Statement} :
    LowersOption e scope before e' next → (EveryBlock c before ∧ EveryOption c e' ↔ KeptOption c e)
  | .none => by simp [EveryBlock, EveryOption, KeptOption]
  | .some lowered => by
      rw [EveryOption, KeptOption]
      exact lowered.every_iff accepts

theorem LowersEntries.every_iff (accepts : c.AcceptsLowered) {entries entries' : List ArrayEntry}
    {scope next : Scope} {before : List Statement} :
    LowersEntries entries scope before entries' next →
      (EveryBlock c before ∧ EveryEntries c entries' ↔ KeptEntries c entries)
  | .nil => by simp [EveryBlock, EveryEntries, KeptEntries]
  | .cons key value rest => by
      rw [everyBlock_append, everyBlock_append, EveryEntries, KeptEntries, ← key.every_iff accepts,
        ← value.every_iff accepts, ← rest.every_iff accepts]
      simp only [and_assoc, and_comm, and_left_comm]

theorem LowersBlock.every_iff (accepts : c.AcceptsLowered) {body body' : List Statement}
    {scope next : Scope} :
    LowersBlock body scope body' next → (EveryBlock c body' ↔ KeptBlock c body)
  | .nil => by simp [EveryBlock, KeptBlock]
  | .cons first rest => by
      rw [everyBlock_append, first.every_iff accepts, rest.every_iff accepts, KeptBlock]

theorem LowersStatement.every_iff (accepts : c.AcceptsLowered) {s : Statement} {scope next : Scope}
    {stretch : List Statement} :
    LowersStatement s scope stretch next → (EveryBlock c stretch ↔ KeptStatement c s)
  | .mk lowered => by
      rw [everyBlock_headDocs, everyBlock_append, KeptStatement]
      exact lowered.every_iff accepts

theorem LowersKind.every_iff (accepts : c.AcceptsLowered) {pos : Position} {kind : StatementKind}
    {scope next : Scope} {before : List Statement} {kind' : Option StatementKind} :
    LowersKind pos kind scope before kind' next →
      (EveryBlock c before ∧ EveryBlock c (kind'.map fun kind => ⟨kind, pos, []⟩).toList ↔
        KeptInner c kind)
  | .lets lowered => by
      rw [KeptInner, ← lowered.every_iff accepts]
      simp [EveryBlock]
  | .declare lowered => by
      rw [KeptInner, ← lowered.every_iff accepts]
      simp [EveryBlock]
  | .fetch _ lowered => by
      rw [KeptInner, KeptExpr, KeptPart, ← lowered.every_iff accepts]
      simp [EveryBlock, everyStatement_assignTo accepts, everyExpr_fetchedValue accepts]
  | .assign lowered => by
      rw [everyBlock_lowered accepts rfl]
      exact lowered.every_iff accepts
  | .echo lowered => by
      rw [everyBlock_lowered accepts rfl, KeptInner, EveryInner]
      exact lowered.every_iff accepts
  | .effect lowered _ => by
      rw [everyBlock_lowered accepts rfl, KeptInner, EveryInner]
      exact lowered.every_iff accepts
  | .effectCall lowered _ => by
      rw [everyBlock_lowered accepts rfl, KeptInner, EveryInner]
      exact lowered.every_iff accepts
  | .ret lowered => by
      rw [everyBlock_lowered accepts rfl, KeptInner, EveryInner]
      exact lowered.every_iff accepts
  | .jump => by
      rw [everyBlock_lowered accepts rfl]
      simp [EveryBlock, EveryInner, KeptInner]
  | .empty => by
      rw [everyBlock_lowered accepts rfl]
      simp [EveryBlock, EveryInner, KeptInner]
  | .branch condition body elseIfs otherwise => by
      rw [everyBlock_lowered accepts rfl, KeptInner, EveryInner, everyBlock_append,
        ← condition.every_iff accepts, ← body.every_iff accepts, ← elseIfs.every_iff accepts,
        ← otherwise.every_iff accepts]
      simp only [and_assoc, and_left_comm]
  | .whileLoop condition body => by
      rw [everyBlock_lowered accepts rfl, KeptInner, EveryInner, ← condition.every_iff accepts,
        ← body.every_iff accepts, and_assoc]
  | .loop body => by
      rw [everyBlock_lowered accepts rfl, KeptInner, EveryInner, ← body.every_iff accepts]
      simp [EveryBlock]
  | .forLoop _ iterated starts body => by
      obtain ⟨loop, only⟩ := every_loopStart accepts starts
      rw [everyBlock_lowered accepts rfl, KeptInner, EveryInner, everyBlock_append,
        everyBlock_append, ← iterated.every_iff accepts, ← body.every_iff accepts, ← only]
      tauto
  | .switch subject clauses => by
      rw [everyBlock_lowered accepts rfl, KeptInner, EveryInner, everyBlock_append,
        ← subject.every_iff accepts, ← clauses.every_iff accepts]
      simp only [and_assoc, and_comm, and_left_comm]
  | .tryAlone body _ => by
      have handlers : ∀ name, c.handlers (splitCatch [baseException pos] (.var name pos) [] pos) :=
        fun name => accepts.handlers _ (handlersFinal_split (by simp))
      rw [everyBlock_lowered accepts rfl, KeptInner, EveryInner, ← body.every_iff accepts,
        and_iff_right (handlers _)]
      simp [EveryBlock, KeptCatches, splitCatch, EveryCatches, EveryExprs, EveryOption,
        baseException, everyExpr_var accepts]
  | .tryCatch body catches => by
      have handlers := accepts.handlers _ catches.handlersFinal
      rw [everyBlock_lowered accepts rfl, KeptInner, EveryInner, ← body.every_iff accepts,
        ← catches.every_iff accepts]
      simp [handlers, EveryBlock]
  | .comment => by simp [EveryBlock, EveryStatement, StatementKind.form, EveryInner, KeptInner]
  | .cblock => by simp [EveryBlock, KeptInner]

theorem LowersAssign.every_iff (accepts : c.AcceptsLowered) {assign assign' : Assign}
    {mode : AssignMode} {scope next : Scope} {before : List Statement} :
    LowersAssign assign scope before assign' next →
      (EveryBlock c before ∧ EveryInner c (.assign mode assign') ↔
        KeptInner c (.assign mode assign))
  | .mk value index => by
      rw [EveryInner, KeptInner, everyBlock_append, ← value.every_iff accepts,
        ← index.every_iff accepts]
      simp only [and_assoc, and_comm, and_left_comm]

theorem LowersLets.every_iff (accepts : c.AcceptsLowered) {assignments : List LetAssignment}
    {scope next : Scope} {statements : List Statement} :
    LowersLets assignments scope statements next →
      (EveryBlock c statements ↔ KeptLets c assignments)
  | .nil => by simp [EveryBlock, KeptLets]
  | .cons resolved value index rest => by
      have statement : ∀ mode, c.statement (.assign mode) := fun mode => accepts.statement _ rfl
      have assign := accepts.assign _ _ (canWrite_resolveTarget resolved)
      rw [KeptLets, everyBlock_append, everyBlock_append, everyBlock_append, everyBlock_append,
        ← value.every_iff accepts, ← index.every_iff accepts, ← rest.every_iff accepts]
      simp only [EveryBlock, EveryStatement, StatementKind.form, EveryInner, statement, assign,
        everyBlock_resolveTarget accepts resolved, true_and, and_true]
      simp only [and_assoc, and_comm, and_left_comm]

theorem LowersInitial.every_iff (accepts : c.AcceptsLowered) {declared : List DeclaredVariable}
    {scope next : Scope} {statements : List Statement} :
    LowersInitial declared scope statements next →
      (EveryBlock c statements ↔ KeptDeclared c declared)
  | .nil => by simp [EveryBlock, KeptDeclared]
  | .unset rest => by
      rw [KeptDeclared, KeptOption, rest.every_iff accepts, true_and]
  | .set value rest => by
      rw [KeptDeclared, KeptOption, everyBlock_append, everyBlock_append, rest.every_iff accepts,
        ← value.every_iff accepts]
      simp [EveryBlock, everyStatement_assignTo accepts]

theorem LowersElseIfs.every_iff (accepts : c.AcceptsLowered) {elseIfs elseIfs' : List ElseIf}
    {scope next : Scope} {before : List Statement} :
    LowersElseIfs elseIfs scope before elseIfs' next →
      (EveryBlock c before ∧ EveryElseIfs c elseIfs' ↔ KeptElseIfs c elseIfs)
  | .nil => by simp [EveryBlock, EveryElseIfs, KeptElseIfs]
  | .cons condition body rest => by
      rw [everyBlock_append, EveryElseIfs, KeptElseIfs, ← condition.every_iff accepts,
        ← body.every_iff accepts, ← rest.every_iff accepts]
      simp only [and_assoc, and_comm, and_left_comm]

theorem LowersOtherwise.every_iff (accepts : c.AcceptsLowered)
    {otherwise otherwise' : Option (List Statement)} {scope next : Scope} :
    LowersOtherwise otherwise scope otherwise' next →
      (EveryOtherwise c otherwise' ↔ KeptOtherwise c otherwise)
  | .none => by simp [EveryOtherwise, KeptOtherwise]
  | .some body => by
      rw [EveryOtherwise, KeptOtherwise]
      exact body.every_iff accepts

theorem LowersClauses.every_iff (accepts : c.AcceptsLowered)
    {clauses clauses' : List SwitchClause} {scope next : Scope} {before : List Statement} :
    LowersClauses clauses scope before clauses' next →
      (EveryBlock c before ∧ EveryClauses c clauses' ↔ KeptClauses c clauses)
  | .nil => by simp [EveryBlock, EveryClauses, KeptClauses]
  | .cons test body rest => by
      rw [everyBlock_append, EveryClauses, KeptClauses, ← test.every_iff accepts,
        ← body.every_iff accepts, ← rest.every_iff accepts]
      simp only [and_assoc, and_comm, and_left_comm]

theorem LowersCatches.every_iff (accepts : c.AcceptsLowered) {catches catches' : List Catch}
    {scope next : Scope} :
    LowersCatches catches scope catches' next →
      (EveryCatches c catches' ↔ KeptCatches c catches)
  | .nil => by simp [EveryCatches, KeptCatches]
  | .cons body bound rest => by
      rw [everyCatches_append, everyCatches_split accepts bound, rest.every_iff accepts,
        body.every_iff accepts, KeptCatches]
      simp only [and_assoc]

end

def Check.lowered : Check where
  expr form := form.isSource = false
  statement form := form.isSource = true → form = .comment

def Check.final : Check where
  loop := ForHead.IsFinal
  handlers := HandlersFinal

/-- Assignments can be written, unless they are of the given ones. -/
def Check.written (own : AssignMode → AssignTarget → Prop) : Check where
  assign mode target := canWrite mode target = true ∨ own mode target

theorem lowered_acceptsLowered : Check.lowered.AcceptsLowered where
  expr _ lowered := lowered
  statement form lowered := by simp [Check.lowered, lowered]
  assign _ _ _ := trivial
  loop _ _ := trivial
  handlers _ _ := trivial

theorem final_acceptsLowered : Check.final.AcceptsLowered where
  expr _ _ := trivial
  statement _ _ := trivial
  assign _ _ _ := trivial
  loop _ final := final
  handlers _ final := final

theorem written_acceptsLowered (own : AssignMode → AssignTarget → Prop) :
    (Check.written own).AcceptsLowered where
  expr _ _ := trivial
  statement _ _ := trivial
  assign _ _ writes := .inl writes
  loop _ _ := trivial
  handlers _ _ := trivial

/-- Nothing but assignments that can be written comes out of a `let`. -/
theorem LowersLets.writes {assignments : List LetAssignment} {scope next : Scope}
    {statements : List Statement} (lowered : LowersLets assignments scope statements next) :
    ∀ s ∈ statements,
      ∃ mode assign, s.kind = .assign mode assign ∧ canWrite mode assign.target = true := by
  have hoisted : ∀ s, IsHoisted s → ∃ mode assign,
      s.kind = .assign mode assign ∧ canWrite mode assign.target = true := by
    rintro s ⟨name, value, pos, rfl⟩
    exact ⟨.set, .set name value, rfl, rfl⟩
  induction assignments generalizing scope statements with
  | nil =>
      cases lowered
      simp
  | cons assignment others ih =>
      cases lowered with
      | cons resolved value index rest =>
          simp only [List.forall_mem_append, List.forall_mem_singleton]
          have writes := canWrite_resolveTarget resolved
          refine ⟨⟨?_, ⟨?_, ?_⟩, ?_⟩, ih rest⟩
          · exact fun s member => hoisted s (resolveTarget_hoisted resolved s member)
          · exact fun s member => hoisted s (value.hoisted s member)
          · exact fun s member => hoisted s (index.hoisted s member)
          · exact ⟨_, _, rfl, writes⟩

/-- The normal form of a lowered block. No form of sources is left exactly if there is none where
lowering does not reach, and all loops and handlers have their final shape exactly if those have it
that it does not reach. Assignments that cannot be written are the block's own, and never come out
of a `let`. -/
theorem lowerBlock_normalForm {body : List Statement} {scope next : Scope}
    {splice : Splice (List Statement)} (ran : lowerBlock body scope = .ok (splice, next)) :
    (EveryBlock .lowered splice.node ↔ KeptBlock .lowered body) ∧
      (EveryBlock .final splice.node ↔ KeptBlock .final body) ∧
      (∀ own, EveryBlock (.written own) splice.node ↔ KeptBlock (.written own) body) ∧
      ∀ assignments inner lets last, lowerLets assignments inner = .ok (lets, last) →
        ∀ s ∈ lets.before, ∃ mode assign,
          s.kind = .assign mode assign ∧ canWrite mode assign.target = true := by
  obtain ⟨-, -, derived⟩ := lowerBlock_derives scope body splice next ran
  refine ⟨derived.every_iff lowered_acceptsLowered, derived.every_iff final_acceptsLowered,
    fun own => derived.every_iff (written_acceptsLowered own), ?_⟩
  intro assignments inner lets last ranLets
  obtain ⟨-, derivedLets⟩ := lowerLets_derives inner assignments lets last ranLets
  exact derivedLets.writes

def normalSample : List Statement :=
  let pos : Position := { file := "sample.zep", line := 7, column := 5 }
  let items := Expr.var "items" pos
  [ { kind := .lets [⟨⟨.stringDynamicObjectProperty, some .assign, "this", some "name", [],
        some (.plain (.unary .likely items) pos)⟩, pos⟩], pos },
    { kind := .forLoop ⟨none, none, true, false, none⟩ items [{ kind := .tryCatch [] [], pos }],
      pos },
    { kind := .effect .call (.callOf "each" [.plain (.closureArrow (.var "item" pos)
        (.plain (.fetch (.var "found" pos) items) pos)) pos] pos), pos } ]

theorem normalSample_normalForm : ∃ splice next,
    lowerBlock normalSample { locals := .empty, parameters := [] } = .ok (splice, next) ∧
      EveryBlock .lowered splice.node ∧ EveryBlock .final splice.node ∧
      EveryBlock (.written fun _ _ => False) splice.node := by
  obtain ⟨splice, next, ran⟩ : ∃ splice next,
      lowerBlock normalSample { locals := .empty, parameters := [] } = .ok (splice, next) :=
    ⟨_, _, rfl⟩
  obtain ⟨lowered, final, written, -⟩ := lowerBlock_normalForm ran
  refine ⟨splice, next, ran, lowered.mpr ?_, final.mpr ?_, (written _).mpr ?_⟩
  all_goals simp [normalSample, KeptBlock, KeptStatement, KeptInner, KeptLets, KeptExprs,
    KeptOption, KeptCatches, KeptExpr, KeptPart, Expr.plain, Expr.var, Expr.callOf]

def defaultSample : List Statement :=
  let pos : Position := { file := "sample.zep", line := 2, column := 3 }
  let backwards : Statement :=
    { kind := .forLoop ⟨none, some "item", true, false, none⟩ (.var "items" pos) [], pos }
  let initial := Expr.plain (.closure [] [backwards] .empty) pos
  [ { kind := .ret (some (.plain (.closure
        [{ name := "each", dataType := "variable", initial := some initial, pos }] [] .empty) pos)),
      pos } ]

/-- No form of sources is where lowering does not reach, but a loop there runs backwards still. -/
theorem defaultSample_not_final : ∃ splice next,
    lowerBlock defaultSample { locals := .empty, parameters := [] } = .ok (splice, next) ∧
      KeptBlock .lowered defaultSample ∧ ¬EveryBlock .final splice.node := by
  obtain ⟨splice, next, ran⟩ : ∃ splice next,
      lowerBlock defaultSample { locals := .empty, parameters := [] } = .ok (splice, next) :=
    ⟨_, _, rfl⟩
  obtain ⟨-, -, derived⟩ := lowerBlock_derives _ _ splice next ran
  refine ⟨splice, next, ran, ?_, ?_⟩
  · simp [defaultSample, KeptBlock, KeptStatement, KeptInner, KeptOption, KeptExpr, KeptPart,
      EveryParameters, EveryOption, EveryPart, EveryBlock, EveryStatement, EveryInner,
      ExprKind.form, StatementKind.form, Check.lowered, ExprForm.isSource, StatementForm.isSource,
      Expr.plain, Expr.var, EveryExpr]
  · rw [derived.every_iff final_acceptsLowered]
    simp [defaultSample, KeptBlock, KeptStatement, KeptInner, KeptOption, KeptExpr, KeptPart,
      EveryParameters, EveryOption, EveryExpr, EveryPart, EveryBlock, EveryStatement, EveryInner,
      Check.final, ForHead.IsFinal, Expr.plain]

end Zephir
