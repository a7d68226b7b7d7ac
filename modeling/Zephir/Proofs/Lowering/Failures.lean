import Zephir.Proofs.Lowering.Derivation

/-!
Why a lowering fails. It gives up on a tree that no parser builds, on a builtin type that cannot be
instantiated, and on a call of a method that a primitive type does not have or that does not take so
many arguments. Nothing else stops it: a closure that returns a single expression has nothing to run
after it, and temporaries are only made of types that have a mark.
-/

namespace Zephir

inductive Cause.StopsLowering : Cause → Prop
  | malformedNode (message : String) : StopsLowering (.malformedNode message)
  | unsupportedNewType (dataType : String) : StopsLowering (.unsupportedNewType dataType)
  | invalidPseudoCall (method : String) (owner : PrimitiveType) :
      StopsLowering (.invalidPseudoCall method owner)
  | invalidPseudoCallArity (function : String) (expected : Arity) (actual : Nat) :
      StopsLowering (.invalidPseudoCallArity function expected actual)

/-- An error for one of the causes. -/
structure Diagnostic.ErrorFor (causes : Cause → Prop) (d : Diagnostic) : Prop where
  severity : d.severity = .error
  cause : ∃ cause, d.cause = some cause ∧ causes cause

structure Diagnostic.RaisedFor (causes : Cause → Prop) (d : Diagnostic) : Prop extends
    d.ErrorFor causes where
  code : d.code = d.cause.map Cause.code

variable {causes wider : Cause → Prop}

theorem Cause.raisedFor_at {cause : Cause} {pos : Position} (among : causes cause) :
    (cause.at pos).RaisedFor causes :=
  ⟨⟨rfl, cause, rfl, among⟩, rfl⟩

theorem Diagnostic.RaisedFor.mono {d : Diagnostic} (raised : d.RaisedFor causes)
    (widens : ∀ cause, causes cause → wider cause) : d.RaisedFor wider :=
  ⟨⟨raised.severity, raised.cause.imp fun _ found => ⟨found.1, widens _ found.2⟩⟩, raised.code⟩

namespace Lowering

variable {α β : Type} {x : Lowering α} {pos : Position}

/-- Lowerings put together from basic steps that give up for the causes only and that only ask for
temporaries of types that have a mark. What follows a step has to be so for the nodes that the step
can leave. -/
inductive Careful (causes : Cause → Prop) : {α : Type} → Lowering α → Prop
  | pure {α : Type} {a : α} : Careful causes (pure a)
  | bindRan {α β : Type} {x : Lowering α} {f : α → Lowering β} (first : Careful causes x)
      (follows : ∀ scope splice next, x scope = .ok (splice, next) →
        Careful causes (f splice.node)) : Careful causes (x >>= f)
  | fail {α : Type} {cause : Cause} {pos : Position} (among : causes cause) :
      Careful causes (fail (cause.at pos) : Lowering α)
  | hoist {statements : List Statement} : Careful causes (hoist statements)
  | emit {α : Type} {splice : Splice α} : Careful causes (emit splice)
  | typeOf {name : String} : Careful causes (typeOf? name)
  | modifyScope {f : Scope → Scope} : Careful causes (modifyScope f)
  | temporary {dataType mark : String} {pos : Position}
      (marked : Scope.temporaryMark? dataType = some mark) :
      Careful causes (temporary dataType pos)
  | isolate {α : Type} {x : Lowering α} (inner : Careful causes x) : Careful causes (isolate x)
  | within {α : Type} {x : Lowering α} {locals : Locals} {parameters : List Parameter}
      (inner : Careful causes x) : Careful causes (within locals parameters x)

theorem Careful.bind {f : α → Lowering β} (first : x.Careful causes)
    (follows : ∀ a, (f a).Careful causes) : (x >>= f).Careful causes :=
  first.bindRan fun _ splice _ _ => follows splice.node

theorem Careful.andReturn {g : α → β} (first : x.Careful causes) :
    (x >>= fun a => Pure.pure (g a)).Careful causes :=
  first.bind fun _ => .pure

/-- A temporary of a type without a mark would be an error of its own, so no cause but the given
ones is left. -/
theorem Careful.raisedFor (careful : x.Careful causes) {scope : Scope} {d : Diagnostic}
    (ran : x scope = .error d) : d.RaisedFor causes := by
  induction careful generalizing scope d with
  | pure | hoist | emit | typeOf | modifyScope => contradiction
  | fail among =>
      cases ran
      exact Cause.raisedFor_at among
  | temporary marked => simp [Lowering.temporary, Scope.temporary?, marked] at ran
  | @bindRan _ _ x f first follows ihFirst ihFollows =>
      simp only [Bind.bind] at ran
      cases ranFirst : x scope with
      | error cause =>
          simp only [ranFirst] at ran
          cases ran
          exact ihFirst ranFirst
      | ok result =>
          obtain ⟨left, next⟩ := result
          simp only [ranFirst] at ran
          cases ranSecond : f left.node next with
          | error cause =>
              simp only [ranSecond] at ran
              cases ran
              exact ihFollows scope left next ranFirst ranSecond
          | ok result => simp [ranSecond] at ran
  | @isolate _ x inner ih =>
      unfold Lowering.isolate at ran
      cases ranInner : x scope with
      | error cause =>
          simp only [ranInner] at ran
          cases ran
          exact ih ranInner
      | ok result => simp [ranInner] at ran
  | @within _ x locals parameters inner ih =>
      unfold Lowering.within at ran
      cases ranInner : x { locals, parameters } with
      | error cause =>
          simp only [ranInner] at ran
          cases ran
          exact ih ranInner
      | ok result => simp [ranInner] at ran

theorem stringTemporary_careful {text : String} :
    (stringTemporary text pos).Careful causes :=
  (Careful.temporary rfl).bind fun _ => Careful.hoist.andReturn

theorem storeFetched_careful {name : String} {targetPos : Position} {source : Splice Expr} :
    (storeFetched name targetPos source pos).Careful causes :=
  Careful.hoist.bind fun _ => Careful.typeOf.andReturn

theorem hoistAssign_careful {mode : AssignMode} {assign : Splice Assign} :
    (hoistAssign mode assign pos).Careful causes :=
  .hoist

theorem loopNames_careful {head : ForHead} : (loopNames head pos).Careful causes := by
  unfold loopNames
  dsimp only
  split
  case' h_1 => refine Careful.modifyScope.bind fun _ => ?_
  all_goals
    split
    · exact Careful.modifyScope.andReturn
    · exact (Careful.temporary rfl).andReturn

theorem loopStart_careful {head : ForHead} {key : Option String} {value : String}
    {iterated : Expr} : (loopStart head key value iterated pos).Careful causes := by
  unfold loopStart
  split
  · -- The index is the key, registered, or a temporary.
    unfold stringLoop
    cases key with
    | none =>
        refine (Careful.temporary rfl).bind fun index => ?_
        exact (Careful.temporary rfl).bind fun source => Careful.hoist.bind fun _ =>
          (Careful.temporary rfl).bind fun size => Careful.hoist.andReturn
    | some index =>
        refine Careful.modifyScope.bind fun _ => Careful.pure.bind fun index => ?_
        exact (Careful.temporary rfl).bind fun source => Careful.hoist.bind fun _ =>
          (Careful.temporary rfl).bind fun size => Careful.hoist.andReturn
  · exact .pure

theorem catchBinding_careful {binding : Option Expr} :
    (catchBinding binding pos).Careful causes := by
  cases binding with
  | none => exact (Careful.temporary rfl).andReturn
  | some binding =>
      unfold catchBinding
      dsimp only
      split
      · exact Careful.modifyScope.andReturn
      · exact .pure

theorem defaultCatch_careful : (defaultCatch pos).Careful causes :=
  (Careful.temporary rfl).andReturn

theorem fetchTarget_careful {target : Expr} :
    (fetchTarget target pos).Careful Cause.StopsLowering := by
  unfold fetchTarget
  split
  · exact .pure
  · exact .fail (.malformedNode _)

theorem resolveTarget_careful {assign : Assign} :
    (resolveTarget assign pos).Careful Cause.StopsLowering := by
  unfold resolveTarget
  split
  · exact stringTemporary_careful.andReturn
  · split
    · exact .fail (.malformedNode _)
    · exact stringTemporary_careful.andReturn
  · exact .pure

theorem pseudoCall_careful {owner : PrimitiveType} {method : String} {receiver : Expr}
    {arguments : List Expr} :
    (ofExcept (pseudoCall owner method receiver arguments pos)).Careful Cause.StopsLowering := by
  unfold pseudoCall
  split
  · exact .fail (.invalidPseudoCall _ _)
  · split
    · exact .pure
    · exact .fail (.invalidPseudoCallArity _ _ _)

theorem fetch_careful {target source : Expr} {g : Expr → β}
    (lowered : (lowerExpr source).Careful Cause.StopsLowering) :
    (do
      let name ← fetchTarget target pos
      let source ← isolate (lowerExpr source)
      let stored ← storeFetched name target.pos source pos
      pure (g stored)).Careful Cause.StopsLowering :=
  fetchTarget_careful.bind fun _ => lowered.isolate.bind fun _ => storeFetched_careful.andReturn

end Lowering

open Lowering

mutual

theorem lowerExpr_careful : (e : Expr) → (lowerExpr e).Careful Cause.StopsLowering
  | ⟨.null, pos, dataType, doCast⟩ => by
      rw [lowerExpr]
      · exact .pure
      all_goals simp
  | ⟨.literal kind text, pos, dataType, doCast⟩ => by
      by_cases plain : kind = .istring
      · subst plain
        rw [lowerExpr]
        exact .pure
      · rw [lowerExpr]
        · exact .pure
        all_goals simp_all
  | ⟨.emptyArray, pos, dataType, doCast⟩ => by
      rw [lowerExpr]
      · exact .pure
      all_goals simp
  | ⟨.array entries, pos, dataType, doCast⟩ => by
      rw [lowerExpr]
      exact (lowerEntries_careful entries).andReturn
  | ⟨.var name, pos, dataType, doCast⟩ => by
      rw [lowerExpr]
      exact Careful.typeOf.andReturn
  | ⟨.access kind object member, pos, dataType, doCast⟩ => by
      cases kind with
      | element | dynamicProperty =>
          rw [lowerExpr]
          exact (lowerExpr_careful object).bind fun _ => (lowerExpr_careful member).andReturn
      | property =>
          rw [lowerExpr]
          exact (lowerExpr_careful object).andReturn
      | stringProperty =>
          rw [lowerExpr]
          exact (lowerExpr_careful object).bind fun _ => (lowerExpr_careful member).bind fun _ =>
            (Careful.temporary rfl).bind fun _ => Careful.hoist.andReturn
      | staticProperty | classConstant =>
          rw [lowerExpr]
          · exact .pure
          all_goals simp
  | ⟨.call name callType arguments, pos, dataType, doCast⟩ => by
      rw [lowerExpr]
      exact (lowerExprs_careful arguments).andReturn
  | ⟨.methodCall receiver name callType arguments, pos, dataType, doCast⟩ => by
      rw [lowerExpr]
      refine (lowerExpr_careful receiver).bind fun receiver' =>
        (lowerExprs_careful arguments).bind fun arguments' => ?_
      split
      · exact pseudoCall_careful
      · exact .pure
  | ⟨.staticCall callee arguments, pos, dataType, doCast⟩ => by
      rw [lowerExpr]
      exact (lowerExprs_careful arguments).andReturn
  | ⟨.new className dynamic arguments, pos, dataType, doCast⟩ => by
      rw [lowerExpr]
      exact (lowerExprs_careful arguments).andReturn
  | ⟨.newType typeName arguments, pos, dataType, doCast⟩ => by
      rw [lowerExpr]
      split
      · exact .pure
      · split
        · exact .pure
        · exact .fail (.unsupportedNewType typeName)
  | ⟨.unary op operand, pos, dataType, doCast⟩ => by
      have lowered := lowerExpr_careful operand
      cases op with
      | likely | unlikely =>
          rw [lowerExpr]
          exact lowered
      | empty =>
          rw [lowerExpr]
          exact lowered.andReturn
      | group =>
          rw [lowerExpr]
          refine lowered.bind fun operand' => ?_
          split <;> exact .pure
      | not =>
          -- A negated fetch is one step: its source is lowered, and not the fetch itself.
          obtain ⟨kind, fetchPos, fetchType, fetchCast⟩ := operand
          cases kind with
          | fetch target source =>
              rw [lowerExpr]
              exact fetch_careful (lowerExpr_careful source)
          | _ =>
              rw [lowerExpr_unary pos dataType doCast (by simp) (by simp)]
              exact lowered.andReturn
      | _ =>
          rw [lowerExpr_unary pos dataType doCast (by simp) (by simp)]
          exact lowered.andReturn
  | ⟨.binary op left right, pos, dataType, doCast⟩ => by
      rw [lowerExpr]
      exact (lowerExpr_careful left).bind fun _ => (lowerExpr_careful right).andReturn
  | ⟨.instanceOf value className, pos, dataType, doCast⟩ => by
      rw [lowerExpr]
      exact (lowerExpr_careful value).andReturn
  | ⟨.range kind low high, pos, dataType, doCast⟩ => by
      rw [lowerExpr]
      exact (lowerExpr_careful low).bind fun _ => (lowerExpr_careful high).andReturn
  | ⟨.ternary condition yes no, pos, dataType, doCast⟩ => by
      rw [lowerExpr]
      exact (lowerExpr_careful condition).bind fun _ => (lowerExpr_careful yes).bind fun _ =>
        (lowerExpr_careful no).andReturn
  | ⟨.cast typeName operand, pos, dataType, doCast⟩ => by
      rw [lowerExpr]
      refine (lowerExpr_careful operand).bind fun operand' => ?_
      split <;> exact .pure
  | ⟨.typeHint hint operand, pos, dataType, doCast⟩ => by
      rw [lowerExpr]
      refine (lowerExpr_careful operand).bind fun operand' => ?_
      split <;> exact .pure
  | ⟨.fetch target source, pos, dataType, doCast⟩ => by
      rw [lowerExpr]
      exact fetch_careful (lowerExpr_careful source)
  | ⟨.closure parameters body locals, pos, dataType, doCast⟩ => by
      rw [lowerExpr]
      exact (lowerBlock_careful body).within.andReturn
  | ⟨.closureArrow parameter body, pos, dataType, doCast⟩ => by
      rw [lowerExpr]
      split
      · exact .fail (.malformedNode _)
      · rename_i name named
        refine (lowerExpr_careful body).within.bindRan fun scope splice next ran => ?_
        -- The lowered body has nothing after it, so that it can be returned.
        obtain ⟨-, -, nothing, -⟩ := (lowerExpr_derives _ body).within splice next ran
        have returned : arrowBody splice.node.1 pos =
            .ok (splice.node.1.before ++
              [{ kind := .ret (some splice.node.1.node), pos := splice.node.1.node.pos }]) := by
          simp [arrowBody, nothing]
        simp only [returned]
        exact Careful.pure.andReturn

theorem lowerExprs_careful : (es : List Expr) → (lowerExprs es).Careful Cause.StopsLowering
  | [] => by
      rw [lowerExprs]
      exact .pure
  | e :: rest => by
      rw [lowerExprs]
      exact (lowerExpr_careful e).bind fun _ => (lowerExprs_careful rest).andReturn

theorem lowerOption_careful : (e : Option Expr) → (lowerOption e).Careful Cause.StopsLowering
  | none => by
      rw [lowerOption]
      exact .pure
  | some e => by
      rw [lowerOption]
      exact (lowerExpr_careful e).andReturn

theorem lowerEntries_careful : (entries : List ArrayEntry) →
    (lowerEntries entries).Careful Cause.StopsLowering
  | [] => by
      rw [lowerEntries]
      exact .pure
  | ⟨key, value⟩ :: rest => by
      rw [lowerEntries]
      exact (lowerOption_careful key).bind fun _ => (lowerExpr_careful value).bind fun _ =>
        (lowerEntries_careful rest).andReturn

theorem lowerBlock_careful : (body : List Statement) →
    (lowerBlock body).Careful Cause.StopsLowering
  | [] => by
      rw [lowerBlock]
      exact .pure
  | s :: rest => by
      rw [lowerBlock]
      exact (lowerStatement_careful s).isolate.bind fun _ => (lowerBlock_careful rest).andReturn

theorem lowerStatement_careful : (s : Statement) →
    (lowerStatement s).Careful Cause.StopsLowering
  | ⟨kind, pos, docblocks⟩ => by
      rw [lowerStatement]
      exact (lowerKind_careful pos kind).isolate.bind fun _ => .emit

theorem lowerKind_careful (pos : Position) : (kind : StatementKind) →
    (lowerKind pos kind).Careful Cause.StopsLowering
  | .lets assignments => by
      rw [lowerKind]
      exact (lowerLets_careful assignments).andReturn
  | .declare dataType declared => by
      rw [lowerKind]
      exact Careful.modifyScope.bind fun _ => (lowerInitial_careful declared).andReturn
  | .fetch e => by
      obtain ⟨kind, fetchPos, dataType, doCast⟩ := e
      cases kind with
      | fetch target source =>
          rw [lowerKind]
          exact fetch_careful (lowerExpr_careful source)
      | _ =>
          rw [lowerKind]
          · exact .fail (.malformedNode _)
          · simp
  | .assign mode assign => by
      rw [lowerKind]
      exact (lowerAssign_careful assign).andReturn
  | .echo expressions => by
      rw [lowerKind]
      exact (lowerExprs_careful expressions).andReturn
  | .effect kind e => by
      by_cases method : kind = .methodCall
      · subst method
        rw [lowerKind]
        refine (lowerExpr_careful e).bind fun e' => ?_
        split <;> exact .pure
      · rw [lowerKind]
        · exact (lowerExpr_careful e).andReturn
        · exact method
  | .ret value => by
      rw [lowerKind]
      exact (lowerOption_careful value).andReturn
  | .jump kind => by
      rw [lowerKind]
      · exact .pure
      all_goals simp
  | .empty => by
      rw [lowerKind]
      · exact .pure
      all_goals simp
  | .branch condition body elseIfs otherwise => by
      rw [lowerKind]
      refine (lowerExpr_careful condition).bind fun _ => (lowerBlock_careful body).bind fun _ =>
        (lowerElseIfs_careful elseIfs).bind fun _ => ?_
      cases otherwise with
      | none => exact .pure
      | some final => exact (lowerBlock_careful final).andReturn
  | .whileLoop kind condition body => by
      rw [lowerKind]
      exact (lowerExpr_careful condition).bind fun _ => (lowerBlock_careful body).andReturn
  | .loop body => by
      rw [lowerKind]
      exact (lowerBlock_careful body).andReturn
  | .forLoop head iterated body => by
      rw [lowerKind]
      exact loopNames_careful.bind fun _ => (lowerExpr_careful iterated).bind fun _ =>
        loopStart_careful.bind fun _ => (lowerBlock_careful body).andReturn
  | .switch subject clauses => by
      rw [lowerKind]
      exact (lowerExpr_careful subject).bind fun _ => (lowerClauses_careful clauses).andReturn
  | .tryCatch body [] => by
      rw [lowerKind]
      exact (lowerBlock_careful body).bind fun _ => defaultCatch_careful.andReturn
  | .tryCatch body (clause :: catches) => by
      rw [lowerKind]
      · exact (lowerBlock_careful body).bind fun _ =>
          (lowerCatches_careful (clause :: catches)).andReturn
      · simp
  | .comment text => by
      rw [lowerKind]
      · exact .pure
      all_goals simp
  | .cblock text => by
      rw [lowerKind]
      exact .pure

theorem lowerAssign_careful : (assign : Assign) →
    (lowerAssign assign).Careful Cause.StopsLowering
  | ⟨target, operator, base, property, index, value⟩ => by
      rw [lowerAssign]
      exact (lowerOption_careful value).bind fun _ => (lowerExprs_careful index).andReturn

theorem lowerLets_careful : (assignments : List LetAssignment) →
    (lowerLets assignments).Careful Cause.StopsLowering
  | [] => by
      rw [lowerLets]
      exact .pure
  | ⟨⟨target, operator, base, property, index, value⟩, pos⟩ :: rest => by
      rw [lowerLets]
      refine resolveTarget_careful.bind fun resolved => Careful.bind (Careful.isolate ?_)
        fun _ => hoistAssign_careful.bind fun _ => lowerLets_careful rest
      exact (lowerOption_careful value).bind fun _ => (lowerExprs_careful index).andReturn

theorem lowerInitial_careful : (declared : List DeclaredVariable) →
    (lowerInitial declared).Careful Cause.StopsLowering
  | [] => by
      rw [lowerInitial]
      exact .pure
  | ⟨name, none, pos⟩ :: rest => by
      rw [lowerInitial]
      exact lowerInitial_careful rest
  | ⟨name, some value, pos⟩ :: rest => by
      rw [lowerInitial]
      refine Careful.bind (Careful.isolate ?_) fun _ => hoistAssign_careful.bind
        fun _ => lowerInitial_careful rest
      exact (lowerExpr_careful value).andReturn

theorem lowerElseIfs_careful : (elseIfs : List ElseIf) →
    (lowerElseIfs elseIfs).Careful Cause.StopsLowering
  | [] => by
      rw [lowerElseIfs]
      exact .pure
  | ⟨condition, body, pos⟩ :: rest => by
      rw [lowerElseIfs]
      exact (lowerExpr_careful condition).bind fun _ => (lowerBlock_careful body).bind fun _ =>
        (lowerElseIfs_careful rest).andReturn

theorem lowerClauses_careful : (clauses : List SwitchClause) →
    (lowerClauses clauses).Careful Cause.StopsLowering
  | [] => by
      rw [lowerClauses]
      exact .pure
  | ⟨test, body⟩ :: rest => by
      rw [lowerClauses]
      exact (lowerOption_careful test).bind fun _ => (lowerBlock_careful body).bind fun _ =>
        (lowerClauses_careful rest).andReturn

theorem lowerCatches_careful : (catches : List Catch) →
    (lowerCatches catches).Careful Cause.StopsLowering
  | [] => by
      rw [lowerCatches]
      exact .pure
  | ⟨classes, binding, body, pos⟩ :: rest => by
      rw [lowerCatches]
      exact (lowerBlock_careful body).bind fun _ => catchBinding_careful.bind fun _ =>
        (lowerCatches_careful rest).andReturn

end

theorem lowerBody_stops {locals : Locals} {parameters : List Parameter} {body : List Statement}
    {d : Diagnostic} (failed : lowerBody locals parameters body = .error d) :
    d.RaisedFor Cause.StopsLowering := by
  unfold lowerBody at failed
  cases ran : lowerBlock body { locals, parameters } with
  | error cause =>
      simp only [ran] at failed
      cases failed
      exact (lowerBlock_careful body).raisedFor ran
  | ok result => simp [ran] at failed

end Zephir
