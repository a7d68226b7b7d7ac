import Zephir.Proofs.Lowering.Derivation

/-!
What is hoisted out of an expression are assignments to plain variables, however deep the expression
is, and so is what a loop or a `let` puts in front of itself.
-/

namespace Zephir

open Lowering

/-- A statement that lowering takes out of an expression: it sets a plain variable. -/
def IsHoisted (s : Statement) : Prop :=
  ∃ name value pos, s = .assignTo name value pos

theorem isHoisted_assignTo (name : String) (value : Expr) (pos : Position) :
    IsHoisted (.assignTo name value pos) :=
  ⟨name, value, pos, rfl⟩

mutual

theorem LowersExpr.hoisted {e e' : Expr} {scope next : Scope} {before : List Statement} :
    LowersExpr e scope before e' next → ∀ s ∈ before, IsHoisted s
  | .null => by simp
  | .literal _ => by simp
  | .istring => by simp
  | .emptyArray => by simp
  | .array lowered => lowered.hoisted
  | .var => by simp
  | .staticAccess _ => by simp
  | .property lowered => lowered.hoisted
  | .access _ object member => List.forall_mem_append.mpr ⟨object.hoisted, member.hoisted⟩
  | .stringProperty object member _ => by
      simp only [List.forall_mem_append, List.forall_mem_singleton]
      exact ⟨⟨object.hoisted, member.hoisted⟩, isHoisted_assignTo _ _ _⟩
  | .call lowered => lowered.hoisted
  | .methodCall receiver arguments _ =>
      List.forall_mem_append.mpr ⟨receiver.hoisted, arguments.hoisted⟩
  | .pseudoCall receiver arguments _ _ =>
      List.forall_mem_append.mpr ⟨receiver.hoisted, arguments.hoisted⟩
  | .staticCall lowered => lowered.hoisted
  | .new lowered => lowered.hoisted
  | .newArray => by simp
  | .newString => by simp
  | .likely _ lowered => lowered.hoisted
  | .empty lowered => lowered.hoisted
  | .ungroup lowered _ => lowered.hoisted
  | .group lowered _ => lowered.hoisted
  | .unary _ _ lowered => lowered.hoisted
  | .binary left right => List.forall_mem_append.mpr ⟨left.hoisted, right.hoisted⟩
  | .instanceOf lowered => lowered.hoisted
  | .range low high => List.forall_mem_append.mpr ⟨low.hoisted, high.hoisted⟩
  | .ternary condition yes no => by
      simp only [List.forall_mem_append]
      exact ⟨⟨condition.hoisted, yes.hoisted⟩, no.hoisted⟩
  | .cast lowered _ => lowered.hoisted
  | .castHint lowered _ => lowered.hoisted
  | .typeHint lowered _ => lowered.hoisted
  | .strayHint lowered _ => lowered.hoisted
  | .fetch _ lowered => by
      simp only [List.forall_mem_append, List.forall_mem_singleton]
      exact ⟨lowered.hoisted, isHoisted_assignTo _ _ _⟩
  | .notFetch _ lowered => by
      simp only [List.forall_mem_append, List.forall_mem_singleton]
      exact ⟨lowered.hoisted, isHoisted_assignTo _ _ _⟩
  | .closure _ => by simp
  | .closureArrow _ _ => by simp

theorem LowersExprs.hoisted {es es' : List Expr} {scope next : Scope} {before : List Statement} :
    LowersExprs es scope before es' next → ∀ s ∈ before, IsHoisted s
  | .nil => by simp
  | .cons first rest => List.forall_mem_append.mpr ⟨first.hoisted, rest.hoisted⟩

theorem LowersOption.hoisted {e e' : Option Expr} {scope next : Scope} {before : List Statement} :
    LowersOption e scope before e' next → ∀ s ∈ before, IsHoisted s
  | .none => by simp
  | .some lowered => lowered.hoisted

theorem LowersEntries.hoisted {entries entries' : List ArrayEntry} {scope next : Scope}
    {before : List Statement} :
    LowersEntries entries scope before entries' next → ∀ s ∈ before, IsHoisted s
  | .nil => by simp
  | .cons key value rest => by
      simp only [List.forall_mem_append]
      exact ⟨⟨key.hoisted, value.hoisted⟩, rest.hoisted⟩

end

theorem LowersAssign.hoisted {assign assign' : Assign} {scope next : Scope}
    {before : List Statement} (lowered : LowersAssign assign scope before assign' next) :
    ∀ s ∈ before, IsHoisted s := by
  obtain ⟨value, index⟩ := lowered
  exact List.forall_mem_append.mpr ⟨value.hoisted, index.hoisted⟩

theorem LowersElseIfs.hoisted {elseIfs elseIfs' : List ElseIf} {scope next : Scope}
    {before : List Statement} (lowered : LowersElseIfs elseIfs scope before elseIfs' next) :
    ∀ s ∈ before, IsHoisted s := by
  induction elseIfs generalizing scope before elseIfs' with
  | nil =>
      cases lowered
      simp
  | cons clause others ih =>
      cases lowered with
      | cons condition _ rest => exact List.forall_mem_append.mpr ⟨condition.hoisted, ih rest⟩

theorem LowersClauses.hoisted {clauses clauses' : List SwitchClause} {scope next : Scope}
    {before : List Statement} (lowered : LowersClauses clauses scope before clauses' next) :
    ∀ s ∈ before, IsHoisted s := by
  induction clauses generalizing scope before clauses' with
  | nil =>
      cases lowered
      simp
  | cons clause others ih =>
      cases lowered with
      | cons test _ rest => exact List.forall_mem_append.mpr ⟨test.hoisted, ih rest⟩

theorem loopStart_hoisted {head : ForHead} {key : Option String} {value : String}
    {iterated : Expr} {pos : Position} {scope next : Scope} {before : List Statement}
    {start : LoopStart}
    (starts : (loopStart head key value iterated pos).Runs scope before start next) :
    (∀ s ∈ before, IsHoisted s) ∧ ∀ s ∈ start.opening, IsHoisted s := by
  obtain ⟨-, ⟨source, size, index, rfl, rfl⟩ | ⟨rfl, rfl⟩⟩ := loopStart_ensures _ _ starts
  · simp [isHoisted_assignTo]
  · simp

theorem resolveTarget_hoisted {assign location : Assign} {mode : AssignMode} {pos : Position}
    {scope next : Scope} {before : List Statement}
    (resolved : (resolveTarget assign pos).Runs scope before (mode, location) next) :
    ∀ s ∈ before, IsHoisted s := by
  obtain ⟨-, ⟨rfl, -⟩ | ⟨text, name, rfl, -⟩⟩ := resolveTarget_ensures _ _ resolved
  · simp
  · simp [isHoisted_assignTo]

end Zephir
