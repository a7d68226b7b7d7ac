import Zephir.Proofs.Lowering.Derivation

/-!
The scope in which lowering comes to a node. Every derivation by the rules of lowering is a run, so
the scope after a node is a function of the scope before it, and a walk over a body can hand it on
from node to node in the order in which they are lowered.
-/

namespace Zephir

namespace Lowering

variable {α β : Type} {scope mid next : Scope} {before more : List Statement} {a : α} {b : β}
  {x : Lowering α}

/-- The scope after a run; one that fails leaves the scope it started in. -/
def scopeAfter (x : Lowering α) (scope : Scope) : Scope :=
  match x scope with
  | .ok (_, next) => next
  | .error _ => scope

theorem Runs.scopeAfter (ran : x.Runs scope before a next) : x.scopeAfter scope = next := by
  unfold Runs at ran
  rw [Lowering.scopeAfter, ran]

theorem runs_pure : (pure a : Lowering α).Runs scope [] a scope :=
  rfl

theorem Runs.bind {f : α → Lowering β} (first : x.Runs scope before a mid)
    (second : (f a).Runs mid more b next) : (x >>= f).Runs scope (before ++ more) b next := by
  unfold Runs at first second ⊢
  simp only [Bind.bind, first, second, List.append_nil]

theorem Runs.bindQuiet {f : α → Lowering β} (first : x.Runs scope before a mid)
    (second : (f a).Runs mid [] b next) : (x >>= f).Runs scope before b next := by
  have whole := first.bind second
  rwa [List.append_nil] at whole

theorem Runs.andReturn (ran : x.Runs scope before a next) (g : α → β) :
    (x >>= fun a => pure (g a)).Runs scope before (g a) next :=
  ran.bindQuiet rfl

theorem runs_hoist {statements : List Statement} :
    (hoist statements).Runs scope statements () scope :=
  rfl

theorem runs_modifyScope {f : Scope → Scope} : (modifyScope f).Runs scope [] () (f scope) :=
  rfl

theorem runs_temporary {dataType name : String} {pos : Position}
    (fresh : scope.temporary? dataType pos = some (name, next)) :
    (temporary dataType pos).Runs scope [] name next := by
  unfold Runs
  simp only [temporary, fresh]

theorem Runs.isolate (ran : x.Runs scope before a next) :
    (isolate x).Runs scope [] ⟨before, a, []⟩ next := by
  unfold Runs at ran ⊢
  simp only [Lowering.isolate, ran]

theorem Runs.within {locals : Locals} {parameters : List Parameter} {inner : Scope}
    (ran : x.Runs { locals, parameters } before a inner) :
    (within locals parameters x).Runs scope [] (⟨before, a, []⟩, inner.locals) scope := by
  unfold Runs at ran ⊢
  simp only [Lowering.within, ran]

theorem hoistAssign_runs {mode : AssignMode} {assign : Assign} {pos : Position} :
    (hoistAssign mode ⟨before, assign, []⟩ pos).Runs scope
      (before ++ [⟨.assign mode assign, pos, []⟩]) () scope := by
  unfold Runs
  rw [hoistAssign, List.append_nil]
  rfl

theorem defaultCatch_runs {pos : Position} {name : String}
    (fresh : scope.temporary? "variable" pos = some (name, next)) :
    (defaultCatch pos).Runs scope [] (splitCatch [baseException pos] (.var name pos) [] pos) next :=
  (runs_temporary fresh).andReturn _

end Lowering

open Lowering

theorem fetch_runs {β : Type} {scope next : Scope} {before : List Statement}
    {target source source' : Expr} {name : String} {pos : Position}
    (named : target.asVar? = some name)
    (ran : (lowerExpr source).Runs scope before source' next) (g : Expr → β) :
    (do
      let name ← fetchTarget target pos
      let source ← isolate (lowerExpr source)
      let stored ← storeFetched name target.pos source pos
      pure (g stored)).Runs scope
        (before ++ [Statement.assignTo name (fetchedValue source' pos) target.pos])
        (g ⟨.var name, target.pos, next.typeOf? name, false⟩) next := by
  have stores : (storeFetched name target.pos ⟨before, source', []⟩ pos).Runs next
      (before ++ [Statement.assignTo name (fetchedValue source' pos) target.pos])
      ⟨.var name, target.pos, next.typeOf? name, false⟩ next := by
    unfold Runs
    simp [storeFetched, hoist, typeOf?, Bind.bind, pure]
  have target : (fetchTarget target pos).Runs scope [] name scope := by
    unfold Runs
    simp only [fetchTarget, named]
    rfl
  exact target.bind (ran.isolate.bind (stores.andReturn g))

theorem assigned_runs {index index' : List Expr} {value value' : Option Expr}
    {scope mid next : Scope} {first second : List Statement} (location : Assign)
    (ranValue : (lowerOption value).Runs scope first value' mid)
    (ranIndex : (lowerExprs index).Runs mid second index' next) :
    (do
      let value ← lowerOption value
      let index ← lowerExprs index
      pure { location with index, value }).Runs scope (first ++ second)
        { location with index := index', value := value' } next :=
  ranValue.bind (ranIndex.andReturn _)

/-- The start of a loop: its names are declared, what it runs over is lowered, and the loop is set
up. The body is lowered in the scope after it. -/
def loopOpening (head : ForHead) (iterated : Expr) (pos : Position) : Lowering LoopStart := do
  let (key, value) ← loopNames head pos
  let iterated ← lowerExpr iterated
  loopStart head key value iterated pos

theorem loopOpening_runs {head : ForHead} {key : Option String} {value : String}
    {iterated iterated' : Expr} {start : LoopStart} {pos : Position}
    {scope named mid next : Scope} {first second : List Statement}
    (names : (loopNames head pos).Runs scope [] (key, value) named)
    (ranIterated : (lowerExpr iterated).Runs named first iterated' mid)
    (starts : (loopStart head key value iterated' pos).Runs mid second start next) :
    (loopOpening head iterated pos).Runs scope (first ++ second) start next :=
  names.bind (ranIterated.bind starts)

def arrowScope (parameter : Expr) : Scope where
  locals := .empty
  parameters :=
    [{ name := parameter.asVar?.getD "", dataType := "variable", pos := parameter.pos }]

/-- A statement runs as what it does runs; what is hoisted and what is left make up its stretch. -/
theorem lowerStatement_runs {kind : StatementKind} {kind' : Option StatementKind} {pos : Position}
    {docblocks : List Docblock} {scope next : Scope} {before : List Statement}
    (ran : (lowerKind pos kind).Runs scope before kind' next) :
    ∃ first node, (lowerStatement ⟨kind, pos, docblocks⟩).Runs scope first node next ∧
      first ++ node.toList =
        headDocs docblocks (before ++ (kind'.map fun kind => ⟨kind, pos, []⟩).toList) := by
  let splice := Splice.prependDocs docblocks
    ⟨before, kind'.map fun kind => ⟨kind, pos, []⟩, []⟩
  have nothing : splice.after = [] := after_prependDocs rfl
  have emits : (emit splice).Runs next splice.before splice.node next := by
    unfold Runs
    rw [← nothing]
    rfl
  have block := toBlock_prependDocs docblocks ⟨before, kind'.map fun kind => ⟨kind, pos, []⟩, []⟩
  rw [Splice.toBlock, Splice.toBlock, List.append_nil] at block
  refine ⟨splice.before, splice.node, ?_, ?_⟩
  · rw [lowerStatement]
    exact ran.isolate.bind emits
  · simpa [splice, nothing] using block

-- The induction is on derivations: each rule retraces the run of the node that it lowers, step by
-- step in the order in which lowering takes them.
mutual

theorem LowersExpr.runs {e e' : Expr} {scope next : Scope} {before : List Statement} :
    LowersExpr e scope before e' next → (lowerExpr e).Runs scope before e' next
  | .null | .emptyArray => by
      rw [lowerExpr]
      · exact runs_pure
      all_goals simp
  | .literal plain => by
      rw [lowerExpr]
      · exact runs_pure
      all_goals simp_all
  | .istring => by
      rw [lowerExpr]
      exact runs_pure
  | .array lowered => by
      rw [lowerExpr]
      exact lowered.runs.andReturn _
  | .var => by
      rw [lowerExpr]
      rfl
  | .staticAccess static => by
      rcases static with rfl | rfl
      all_goals
        rw [lowerExpr]
        · exact runs_pure
        all_goals simp
  | .property lowered => by
      rw [lowerExpr]
      exact lowered.runs.andReturn _
  | .access computed object member => by
      rcases computed with rfl | rfl
      all_goals
        rw [lowerExpr]
        exact object.runs.bind (member.runs.andReturn _)
  | .stringProperty object member fresh => by
      rw [lowerExpr, List.append_assoc]
      exact object.runs.bind (member.runs.bind ((runs_temporary fresh).bind
        (runs_hoist.andReturn _)))
  | .call lowered | .staticCall lowered | .new lowered => by
      rw [lowerExpr]
      exact lowered.runs.andReturn _
  | .methodCall receiver arguments object => by
      rw [lowerExpr]
      refine receiver.runs.bind (arguments.runs.bindQuiet ?_)
      rw [object]
      exact runs_pure
  | .pseudoCall receiver arguments primitive translated => by
      rw [lowerExpr]
      refine receiver.runs.bind (arguments.runs.bindQuiet ?_)
      rw [primitive]
      dsimp only
      rw [translated]
      exact runs_pure
  | .newArray | .newString => by
      rw [lowerExpr]
      exact runs_pure
  | .likely hint lowered => by
      rcases hint with rfl | rfl
      all_goals
        rw [lowerExpr]
        exact lowered.runs
  | .empty lowered => by
      rw [lowerExpr]
      exact lowered.runs.andReturn _
  | .ungroup lowered primary => by
      rw [lowerExpr]
      refine lowered.runs.bindQuiet ?_
      rw [if_pos primary]
      exact runs_pure
  | .group lowered compound => by
      rw [lowerExpr]
      refine lowered.runs.bindQuiet ?_
      rw [compound, if_neg Bool.false_ne_true]
      exact runs_pure
  | .unary plain noFetch lowered => by
      rw [lowerExpr_unary _ _ _ plain noFetch]
      exact lowered.runs.andReturn _
  | .binary left right => by
      rw [lowerExpr]
      exact left.runs.bind (right.runs.andReturn _)
  | .instanceOf lowered => by
      rw [lowerExpr]
      exact lowered.runs.andReturn _
  | .range low high => by
      rw [lowerExpr]
      exact low.runs.bind (high.runs.andReturn _)
  | .ternary condition yes no => by
      rw [lowerExpr, List.append_assoc]
      exact condition.runs.bind (yes.runs.bind (no.runs.andReturn _))
  | .cast lowered castable => by
      rw [lowerExpr]
      refine lowered.runs.bindQuiet ?_
      rw [if_pos castable]
      exact runs_pure
  | .castHint lowered other => by
      rw [lowerExpr]
      refine lowered.runs.bindQuiet ?_
      rw [other, if_neg Bool.false_ne_true]
      exact runs_pure
  | .typeHint lowered named => by
      rw [lowerExpr]
      refine lowered.runs.bindQuiet ?_
      rw [named]
      exact runs_pure
  | .strayHint lowered unnamed => by
      rw [lowerExpr]
      refine lowered.runs.bindQuiet ?_
      rw [unnamed]
      exact runs_pure
  | .fetch named lowered => by
      rw [lowerExpr]
      exact fetch_runs named lowered.runs _
  | .notFetch named lowered => by
      rw [lowerExpr]
      exact fetch_runs named lowered.runs _
  | .closure lowered => by
      rw [lowerExpr]
      exact lowered.runs.within.andReturn _
  | .closureArrow named lowered => by
      rw [lowerExpr, named]
      exact lowered.runs.within.bindQuiet rfl

theorem LowersExprs.runs {es es' : List Expr} {scope next : Scope} {before : List Statement} :
    LowersExprs es scope before es' next → (lowerExprs es).Runs scope before es' next
  | .nil => by
      rw [lowerExprs]
      exact runs_pure
  | .cons lowered rest => by
      rw [lowerExprs]
      exact lowered.runs.bind (rest.runs.andReturn _)

theorem LowersOption.runs {e e' : Option Expr} {scope next : Scope} {before : List Statement} :
    LowersOption e scope before e' next → (lowerOption e).Runs scope before e' next
  | .none => by
      rw [lowerOption]
      exact runs_pure
  | .some lowered => by
      rw [lowerOption]
      exact lowered.runs.andReturn _

theorem LowersEntries.runs {entries entries' : List ArrayEntry} {scope next : Scope}
    {before : List Statement} : LowersEntries entries scope before entries' next →
    (lowerEntries entries).Runs scope before entries' next
  | .nil => by
      rw [lowerEntries]
      exact runs_pure
  | .cons key value rest => by
      rw [lowerEntries, List.append_assoc]
      exact key.runs.bind (value.runs.bind (rest.runs.andReturn _))

theorem LowersBlock.runs {body body' : List Statement} {scope next : Scope} :
    LowersBlock body scope body' next → (lowerBlock body).Runs scope [] body' next
  | .nil => by
      rw [lowerBlock]
      exact runs_pure
  | .cons lowered rest => by
      obtain ⟨first, node, ran, block⟩ := lowered.runs
      rw [lowerBlock]
      refine ran.isolate.bind ?_
      rw [← block, ← List.append_nil (first ++ node.toList)]
      exact rest.runs.andReturn _

theorem LowersStatement.runs {s : Statement} {stretch : List Statement} {scope next : Scope} :
    LowersStatement s scope stretch next → ∃ before node,
      (lowerStatement s).Runs scope before node next ∧ before ++ node.toList = stretch
  | .mk lowered => lowerStatement_runs lowered.runs

theorem LowersKind.runs {pos : Position} {kind : StatementKind} {kind' : Option StatementKind}
    {scope next : Scope} {before : List Statement} :
    LowersKind pos kind scope before kind' next →
      (lowerKind pos kind).Runs scope before kind' next
  | .lets lowered => by
      rw [lowerKind]
      exact lowered.runs.andReturn _
  | .declare lowered => by
      rw [lowerKind]
      exact runs_modifyScope.bind (lowered.runs.andReturn _)
  | .fetch named lowered => by
      rw [lowerKind]
      exact fetch_runs named lowered.runs fun _ => none
  | .assign lowered => by
      rw [lowerKind]
      exact lowered.runs.andReturn _
  | .echo lowered => by
      rw [lowerKind]
      exact lowered.runs.andReturn _
  | @LowersKind.effect _ kind e e' _ _ _ lowered unlike => by
      -- Only a method call is looked at again after it was lowered.
      by_cases method : kind = .methodCall
      · subst method
        rw [lowerKind]
        refine lowered.runs.bindQuiet ?_
        split
        · rename_i called
          exact absurd called (unlike rfl _ _ _)
        · exact runs_pure
      · rw [lowerKind]
        · exact lowered.runs.andReturn _
        · exact method
  | .effectCall lowered call => by
      rw [lowerKind]
      refine lowered.runs.bindQuiet ?_
      rw [call]
      exact runs_pure
  | .ret lowered => by
      rw [lowerKind]
      exact lowered.runs.andReturn _
  | .jump | .empty | .comment => by
      rw [lowerKind]
      · exact runs_pure
      all_goals simp
  | .branch condition body elseIfs .none => by
      rw [lowerKind]
      exact condition.runs.bind (body.runs.bind (elseIfs.runs.andReturn _))
  | .branch condition body elseIfs (.some otherwise) => by
      rw [lowerKind]
      exact condition.runs.bind (body.runs.bind (elseIfs.runs.bindQuiet
        (otherwise.runs.bindQuiet rfl)))
  | .whileLoop condition body => by
      rw [lowerKind]
      exact condition.runs.bindQuiet (body.runs.andReturn _)
  | .loop body => by
      rw [lowerKind]
      exact body.runs.andReturn _
  | .forLoop names iterated starts body => by
      rw [lowerKind]
      exact names.bind (iterated.runs.bind (starts.bindQuiet (body.runs.andReturn _)))
  | .switch subject clauses => by
      rw [lowerKind]
      exact subject.runs.bind (clauses.runs.andReturn _)
  | .tryAlone body fresh => by
      rw [lowerKind]
      exact body.runs.bind ((defaultCatch_runs fresh).andReturn _)
  | .tryCatch body catches => by
      rw [lowerKind]
      · exact body.runs.bind (catches.runs.andReturn _)
      · simp
  | .cblock => by
      rw [lowerKind]
      exact runs_pure

theorem LowersAssign.runs {assign assign' : Assign} {scope next : Scope}
    {before : List Statement} :
    LowersAssign assign scope before assign' next →
      (lowerAssign assign).Runs scope before assign' next
  | .mk value index => by
      rw [lowerAssign]
      exact value.runs.bind (index.runs.andReturn _)

theorem LowersLets.runs {assignments : List LetAssignment} {scope next : Scope}
    {before : List Statement} :
    LowersLets assignments scope before next → (lowerLets assignments).Runs scope before () next
  | .nil => by
      rw [lowerLets]
      exact runs_pure
  | .cons resolved value index rest => by
      rw [lowerLets, List.append_assoc]
      exact resolved.bind ((assigned_runs _ value.runs index.runs).isolate.bind
        (hoistAssign_runs.bind rest.runs))

theorem LowersInitial.runs {declared : List DeclaredVariable} {scope next : Scope}
    {before : List Statement} :
    LowersInitial declared scope before next → (lowerInitial declared).Runs scope before () next
  | .nil => by
      rw [lowerInitial]
      exact runs_pure
  | .unset rest => by
      rw [lowerInitial]
      exact rest.runs
  | .set value rest => by
      rw [lowerInitial]
      exact (value.runs.andReturn (Assign.set _)).isolate.bind (hoistAssign_runs.bind rest.runs)

theorem LowersElseIfs.runs {elseIfs elseIfs' : List ElseIf} {scope next : Scope}
    {before : List Statement} : LowersElseIfs elseIfs scope before elseIfs' next →
    (lowerElseIfs elseIfs).Runs scope before elseIfs' next
  | .nil => by
      rw [lowerElseIfs]
      exact runs_pure
  | .cons condition body rest => by
      rw [lowerElseIfs]
      exact condition.runs.bind (body.runs.bind (rest.runs.andReturn _))

theorem LowersClauses.runs {clauses clauses' : List SwitchClause} {scope next : Scope}
    {before : List Statement} : LowersClauses clauses scope before clauses' next →
    (lowerClauses clauses).Runs scope before clauses' next
  | .nil => by
      rw [lowerClauses]
      exact runs_pure
  | .cons test body rest => by
      rw [lowerClauses]
      exact test.runs.bind (body.runs.bind (rest.runs.andReturn _))

theorem LowersCatches.runs {catches catches' : List Catch} {scope next : Scope} :
    LowersCatches catches scope catches' next →
      (lowerCatches catches).Runs scope [] catches' next
  | .nil => by
      rw [lowerCatches]
      exact runs_pure
  | .cons body binding rest => by
      rw [lowerCatches]
      exact body.runs.bind (binding.bind (rest.runs.andReturn _))

end

end Zephir
