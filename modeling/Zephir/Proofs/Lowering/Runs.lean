import Zephir.Lowering.Tree

/-!
Reasoning about runs of a lowering. `Ensures` says what holds of the statements before the node, of
the node, and of the scope after every run that succeeds; there is one rule for each step that a
lowering is made of. No lowering puts a statement after its node.
-/

namespace Zephir

theorem exists_ok_of_isOk {ε α : Type} {result : Except ε α} (ok : result.isOk = true) :
    ∃ a, result = .ok a := by
  cases result with
  | error e => contradiction
  | ok a => exact ⟨a, rfl⟩

namespace Lowering

variable {α β : Type} {scope : Scope}

/-- What every successful run from a scope leaves. -/
def Ensures (x : Lowering α) (scope : Scope) (post : List Statement → α → Scope → Prop) : Prop :=
  ∀ splice next, x scope = .ok (splice, next) →
    splice.after = [] ∧ post splice.before splice.node next

/-- The run from a scope that puts the statements before the node and leaves the next scope. -/
def Runs (x : Lowering α) (scope : Scope) (before : List Statement) (a : α) (next : Scope) : Prop :=
  x scope = .ok (⟨before, a, []⟩, next)

theorem Ensures.mono {x : Lowering α} {post weaker : List Statement → α → Scope → Prop}
    (ensures : x.Ensures scope post)
    (weakens : ∀ before node next, post before node next → weaker before node next) :
    x.Ensures scope weaker := by
  intro splice next ran
  obtain ⟨nothing, holds⟩ := ensures splice next ran
  exact ⟨nothing, weakens _ _ _ holds⟩

theorem ensures_pure {a : α} {post : List Statement → α → Scope → Prop}
    (holds : post [] a scope) : (pure a : Lowering α).Ensures scope post := by
  intro splice next ran
  cases ran
  exact ⟨rfl, holds⟩

theorem Ensures.bind {x : Lowering α} {f : α → Lowering β}
    {first : List Statement → α → Scope → Prop} {post : List Statement → β → Scope → Prop}
    (ensures : x.Ensures scope first)
    (follows : ∀ before a next, first before a next →
      (f a).Ensures next fun more b last => post (before ++ more) b last) :
    (x >>= f).Ensures scope post := by
  intro splice last ran
  simp only [Bind.bind] at ran
  cases ranFirst : x scope with
  | error d => simp [ranFirst] at ran
  | ok result =>
      obtain ⟨left, next⟩ := result
      obtain ⟨leftEnd, holds⟩ := ensures left next ranFirst
      simp only [ranFirst] at ran
      cases ranSecond : f left.node next with
      | error d => simp [ranSecond] at ran
      | ok result =>
          obtain ⟨right, final⟩ := result
          obtain ⟨rightEnd, done⟩ := follows _ _ _ holds right final ranSecond
          simp only [ranSecond] at ran
          cases ran
          exact ⟨by simp [leftEnd, rightEnd], done⟩

theorem Ensures.andReturn {x : Lowering α} {g : α → β} {first : List Statement → α → Scope → Prop}
    {post : List Statement → β → Scope → Prop} (ensures : x.Ensures scope first)
    (follows : ∀ before a next, first before a next → post before (g a) next) :
    (x >>= fun a => pure (g a)).Ensures scope post := by
  refine ensures.bind ?_
  intro before a next holds
  refine ensures_pure ?_
  rw [List.append_nil]
  exact follows before a next holds

theorem ensures_fail {d : Diagnostic} {post : List Statement → α → Scope → Prop} :
    (fail d : Lowering α).Ensures scope post := by
  intro splice next ran
  contradiction

theorem ensures_hoist {statements : List Statement} :
    (hoist statements).Ensures scope fun before _ next => before = statements ∧ next = scope := by
  intro splice next ran
  cases ran
  exact ⟨rfl, rfl, rfl⟩

theorem ensures_emit {splice : Splice α} {post : List Statement → α → Scope → Prop}
    (nothing : splice.after = []) (holds : post splice.before splice.node scope) :
    (emit splice).Ensures scope post := by
  intro result next ran
  cases ran
  exact ⟨nothing, holds⟩

theorem ensures_typeOf {name : String} :
    (typeOf? name).Ensures scope fun before dataType next =>
      before = [] ∧ dataType = scope.typeOf? name ∧ next = scope := by
  intro splice next ran
  cases ran
  exact ⟨rfl, rfl, rfl, rfl⟩

theorem ensures_modifyScope {f : Scope → Scope} :
    (modifyScope f).Ensures scope fun before _ next => before = [] ∧ next = f scope := by
  intro splice next ran
  cases ran
  exact ⟨rfl, rfl, rfl⟩

theorem ensures_temporary {dataType : String} {pos : Position} :
    (temporary dataType pos).Ensures scope fun before name next =>
      before = [] ∧ scope.temporary? dataType pos = some (name, next) := by
  intro splice last ran
  unfold temporary at ran
  cases found : scope.temporary? dataType pos with
  | none => simp [found] at ran
  | some result =>
      obtain ⟨name, next⟩ := result
      simp only [found] at ran
      cases ran
      exact ⟨rfl, rfl, rfl⟩

theorem ensures_ofExcept {result : Except Diagnostic α} :
    (ofExcept result).Ensures scope fun before a next =>
      before = [] ∧ result = .ok a ∧ next = scope := by
  cases result with
  | error d => exact ensures_fail
  | ok a => exact ensures_pure ⟨rfl, rfl, rfl⟩

theorem Ensures.isolate {x : Lowering α} {inner : List Statement → α → Scope → Prop}
    (ensures : x.Ensures scope inner) :
    (isolate x).Ensures scope fun before splice next =>
      before = [] ∧ splice.after = [] ∧ inner splice.before splice.node next := by
  intro splice last ran
  unfold Lowering.isolate at ran
  cases ranInner : x scope with
  | error d => simp [ranInner] at ran
  | ok result =>
      obtain ⟨isolated, next⟩ := result
      obtain ⟨nothing, holds⟩ := ensures isolated next ranInner
      simp only [ranInner] at ran
      cases ran
      exact ⟨rfl, rfl, nothing, holds⟩

theorem Ensures.within {locals : Locals} {parameters : List Parameter} {x : Lowering α}
    {inner : List Statement → α → Scope → Prop} (ensures : x.Ensures { locals, parameters } inner) :
    (within locals parameters x).Ensures scope fun before result next =>
      before = [] ∧ result.1.after = [] ∧ next = scope ∧
        ∃ own : Scope, result.2 = own.locals ∧ inner result.1.before result.1.node own := by
  intro splice last ran
  unfold Lowering.within at ran
  cases ranInner : x { locals, parameters } with
  | error d => simp [ranInner] at ran
  | ok result =>
      obtain ⟨body, own⟩ := result
      obtain ⟨nothing, holds⟩ := ensures body own ranInner
      simp only [ranInner] at ran
      cases ran
      exact ⟨rfl, rfl, nothing, rfl, own, rfl, holds⟩

theorem Ensures.runs {x : Lowering α} {post : List Statement → α → Scope → Prop}
    (ensures : x.Ensures scope post) :
    x.Ensures scope fun before a next => x.Runs scope before a next ∧ post before a next := by
  intro splice next ran
  obtain ⟨before, a, after⟩ := splice
  obtain ⟨nothing, holds⟩ := ensures _ next ran
  simp only at nothing
  subst nothing
  exact ⟨rfl, ran, holds⟩

end Lowering

end Zephir
