import Zephir.Diagnostic.Basic
import Zephir.Lowering.Scope

/-!
Lowering yields a splice: the new node together with the statements that have to run before and
after it. Lowering several nodes in a row puts their surroundings one after the other. A block
takes the surroundings of its statements into its own list, so that nothing leaves it.
-/

namespace Zephir

structure Splice (α : Type) where
  before : List Statement := []
  node : α
  after : List Statement := []

namespace Splice

variable {α β : Type}

def map (f : α → β) (s : Splice α) : Splice β :=
  ⟨s.before, f s.node, s.after⟩

/-- The statements of a lowered statement in order: those before, the statement itself if it is
still there, and those after. -/
def toBlock (s : Splice (Option Statement)) : List Statement :=
  s.before ++ s.node.toList ++ s.after

def prependDocs (docblocks : List Docblock) (s : Splice (Option Statement)) :
    Splice (Option Statement) :=
  match s with
  | ⟨first :: rest, node, after⟩ => ⟨first.prependDocs docblocks :: rest, node, after⟩
  | ⟨[], some node, after⟩ => ⟨[], some (node.prependDocs docblocks), after⟩
  | ⟨[], none, first :: rest⟩ => ⟨[], none, first.prependDocs docblocks :: rest⟩
  | ⟨[], none, []⟩ => s

end Splice

/-- A computation that lowers a node in a scope. It may fail, and it may change the scope. -/
def Lowering (α : Type) := Scope → Except Diagnostic (Splice α × Scope)

namespace Lowering

variable {α β : Type}

instance : Monad Lowering where
  pure a := fun scope => .ok (⟨[], a, []⟩, scope)
  bind x f := fun scope =>
    match x scope with
    | .error d => .error d
    | .ok (first, scope) =>
      match f first.node scope with
      | .error d => .error d
      | .ok (second, scope) =>
        .ok (⟨first.before ++ second.before, second.node, first.after ++ second.after⟩, scope)

def fail (d : Diagnostic) : Lowering α :=
  fun _ => .error d

def hoist (statements : List Statement) : Lowering Unit :=
  fun scope => .ok (⟨statements, (), []⟩, scope)

/-- Hands out the whole splice instead of putting the statements around the node. -/
def isolate (x : Lowering α) : Lowering (Splice α) :=
  fun scope =>
    match x scope with
    | .error d => .error d
    | .ok (splice, scope) => .ok (⟨[], splice, []⟩, scope)

def emit (splice : Splice α) : Lowering α :=
  fun scope => .ok (splice, scope)

def typeOf? (name : String) : Lowering (Option String) :=
  fun scope => .ok (⟨[], scope.typeOf? name, []⟩, scope)

def modifyScope (f : Scope → Scope) : Lowering Unit :=
  fun scope => .ok (⟨[], (), []⟩, f scope)

def temporary (dataType : String) (pos : Position) : Lowering String :=
  fun scope =>
    match scope.temporary? dataType pos with
    | some (name, scope) => .ok (⟨[], name, []⟩, scope)
    | none => .error ((Cause.unsupportedTemporaryType dataType).at pos)

/-- Lowers in the scope of another body and returns the locals of that body as well. The own scope
stays as it is. -/
def within (locals : Locals) (parameters : List Parameter) (x : Lowering α) :
    Lowering (Splice α × Locals) :=
  fun scope =>
    match x { locals, parameters } with
    | .error d => .error d
    | .ok (splice, inner) => .ok (⟨[], (splice, inner.locals), []⟩, scope)

end Lowering

end Zephir
