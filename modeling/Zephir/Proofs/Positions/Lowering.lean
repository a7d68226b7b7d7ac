import Zephir.Proofs.Lowering.Derivation
import Zephir.Proofs.OrderedMap
import Zephir.Proofs.Positions.Basic

/-!
Lowering makes up no places. Whatever it puts into a tree, into the scope or into an error is at a
place of the tree that it was given. `Stays` says so of a step from any scope, whether the step
succeeds or fails; there is one rule for each step that a lowering is made of.
-/

namespace Zephir

variable {known : Position → Prop}

@[simp] theorem blockPositions_append (first second : List Statement) :
    blockPositions (first ++ second) = blockPositions first ++ blockPositions second := by
  induction first with
  | nil => simp [blockPositions]
  | cons s rest ih => simp [blockPositions, ih]

theorem allAt_localPositions {locals : Locals} :
    AllAt known (localPositions locals) ↔ ∀ var ∈ locals.values, known var.pos :=
  List.forall_mem_map

theorem allAt_insert {locals : Locals} {name : String} {var : Local}
    (places : AllAt known (localPositions locals)) (at_ : known var.pos) :
    AllAt known (localPositions (locals.insert name var)) := by
  rw [allAt_localPositions] at places ⊢
  exact OrderedMap.forall_values_insert places at_

theorem allAt_insertAll {locals : Locals} {entries : List (String × Local)}
    (places : AllAt known (localPositions locals)) (new : ∀ entry ∈ entries, known entry.2.pos) :
    AllAt known (localPositions (locals.insertAll entries)) := by
  rw [allAt_localPositions] at places ⊢
  exact OrderedMap.forall_values_insertAll places new

theorem known_pos {e : Expr} (places : AllAt known (exprPositions e)) : known e.pos := by
  obtain ⟨kind, pos, dataType, doCast⟩ := e
  rw [exprPositions, allAt_cons] at places
  exact places.1

@[simp] theorem allAt_at {cause : Cause} {pos : Position} :
    AllAt known (cause.at pos).positions ↔ known pos := by
  simp [Cause.at, Diagnostic.positions]

structure Splice.At {α : Type} (known : Position → Prop) (good : α → Prop) (s : Splice α) :
    Prop where
  before : AllAt known (blockPositions s.before)
  node : good s.node
  after : AllAt known (blockPositions s.after)

namespace Lowering

variable {α β : Type} {x : Lowering α} {good : α → Prop} {better : β → Prop}
  {pos : Position}

/-- From a scope with locals at known places, a step fails at known places, or leaves a splice and
locals at known places. -/
def Stays (known : Position → Prop) (x : Lowering α) (good : α → Prop) : Prop :=
  ∀ scope : Scope, AllAt known (localPositions scope.locals) →
    match x scope with
    | .error d => AllAt known d.positions
    | .ok (splice, next) => splice.At known good ∧ AllAt known (localPositions next.locals)

theorem stays_pure {a : α} (holds : good a) : (pure a : Lowering α).Stays known good :=
  fun _ places => ⟨⟨allAt_nil, holds, allAt_nil⟩, places⟩

theorem Stays.bind {f : α → Lowering β} (first : x.Stays known good)
    (follows : ∀ a, good a → (f a).Stays known better) : (x >>= f).Stays known better := by
  intro scope places
  have ran := first scope places
  simp only [Bind.bind]
  cases outcome : x scope with
  | error d => simpa only [outcome] using ran
  | ok result =>
      obtain ⟨left, mid⟩ := result
      simp only [outcome] at ran
      have ranLater := follows left.node ran.1.node mid ran.2
      dsimp only
      cases later : f left.node mid with
      | error d => simpa only [later] using ranLater
      | ok result =>
          obtain ⟨right, next⟩ := result
          simp only [later] at ranLater
          obtain ⟨at_, locals⟩ := ranLater
          refine ⟨⟨?_, at_.node, ?_⟩, locals⟩
          · rw [blockPositions_append, allAt_append]
            exact ⟨ran.1.before, at_.before⟩
          · rw [blockPositions_append, allAt_append]
            exact ⟨ran.1.after, at_.after⟩

theorem Stays.andReturn {g : α → β} (first : x.Stays known good)
    (holds : ∀ a, good a → better (g a)) : (x >>= fun a => pure (g a)).Stays known better :=
  first.bind fun a given => stays_pure (holds a given)

theorem stays_fail {d : Diagnostic} (places : AllAt known d.positions) :
    (fail d : Lowering α).Stays known good :=
  fun _ _ => places

theorem stays_failAt {cause : Cause} (at_ : known pos) :
    (fail (cause.at pos) : Lowering α).Stays known good :=
  stays_fail (allAt_at.mpr at_)

theorem stays_hoist {statements : List Statement}
    (places : AllAt known (blockPositions statements)) :
    (hoist statements).Stays known fun _ => True :=
  fun _ locals => ⟨⟨places, trivial, allAt_nil⟩, locals⟩

theorem stays_emit {splice : Splice α} (at_ : splice.At known good) :
    (emit splice).Stays known good :=
  fun _ locals => ⟨at_, locals⟩

theorem stays_typeOf (name : String) : (typeOf? name).Stays known fun _ => True :=
  fun _ locals => ⟨⟨allAt_nil, trivial, allAt_nil⟩, locals⟩

theorem stays_modifyScope {f : Scope → Scope}
    (keeps : ∀ scope, AllAt known (localPositions scope.locals) →
      AllAt known (localPositions (f scope).locals)) :
    (modifyScope f).Stays known fun _ => True :=
  fun scope locals => ⟨⟨allAt_nil, trivial, allAt_nil⟩, keeps scope locals⟩

theorem stays_declare {name dataType : String} (at_ : known pos) :
    (modifyScope (·.declare name dataType pos)).Stays known fun _ => True := by
  refine stays_modifyScope fun scope locals => ?_
  unfold Scope.declare
  split
  · exact locals
  · exact allAt_insert locals at_

theorem stays_temporary (dataType : String) (at_ : known pos) :
    (temporary dataType pos).Stays known fun _ => True := by
  intro scope locals
  unfold temporary Scope.temporary?
  cases Scope.temporaryMark? dataType with
  | none => exact allAt_at.mpr at_
  | some mark => exact ⟨⟨allAt_nil, trivial, allAt_nil⟩, allAt_insert locals at_⟩

theorem Stays.isolate (inner : x.Stays known good) :
    (isolate x).Stays known (Splice.At known good) := by
  intro scope locals
  have ran := inner scope locals
  unfold Lowering.isolate
  cases outcome : x scope with
  | error d => simpa only [outcome] using ran
  | ok result =>
      simp only [outcome] at ran
      exact ⟨⟨allAt_nil, ran.1, allAt_nil⟩, ran.2⟩

theorem Stays.within {locals : Locals} {parameters : List Parameter}
    (own : AllAt known (localPositions locals)) (inner : x.Stays known good) :
    (within locals parameters x).Stays known fun result =>
      result.1.At known good ∧ AllAt known (localPositions result.2) := by
  intro scope outer
  have ran := inner { locals, parameters } own
  unfold Lowering.within
  cases outcome : x { locals, parameters } with
  | error d => simpa only [outcome] using ran
  | ok result =>
      simp only [outcome] at ran
      exact ⟨⟨allAt_nil, ran, allAt_nil⟩, outer⟩

theorem allAt_assignTo {name : String} {value : Expr}
    (places : AllAt known (exprPositions value)) (at_ : known pos) :
    AllAt known (blockPositions [.assignTo name value pos]) := by
  simp [blockPositions, statementPositions, Statement.assignTo, docPositions, innerPositions,
    Assign.set, exprsPositions, optionPositions, places, at_]

theorem stays_fetchTarget {target : Expr} (at_ : known pos) :
    (fetchTarget target pos).Stays known fun _ => True := by
  unfold fetchTarget
  split
  · exact stays_pure trivial
  · exact stays_failAt at_

theorem allAt_fetchedValue {source : Expr} (places : AllAt known (exprPositions source))
    (at_ : known pos) : AllAt known (exprPositions (fetchedValue source pos)) := by
  simp [fetchedValue, Expr.plain, Expr.withType, Expr.nullAt, exprPositions, partPositions,
    known_pos places, places, at_]

theorem stays_storeFetched {name : String} {targetPos : Position} {source : Splice Expr}
    (atTarget : known targetPos) (at_ : known pos)
    (places : source.At known fun e => AllAt known (exprPositions e)) :
    (storeFetched name targetPos source pos).Stays known fun e =>
      AllAt known (exprPositions e) := by
  refine Stays.bind (stays_hoist ?_) fun _ _ => (stays_typeOf name).andReturn fun _ _ => ?_
  · simp only [blockPositions_append, allAt_append]
    exact ⟨⟨places.before, allAt_assignTo (allAt_fetchedValue places.node at_) atTarget⟩,
      places.after⟩
  · simpa [exprPositions, partPositions] using atTarget

theorem stays_stringTemporary {text : String} (at_ : known pos) :
    (stringTemporary text pos).Stays known fun _ => True := by
  refine (stays_temporary "string" at_).bind fun name _ => ?_
  refine Stays.andReturn (stays_hoist (allAt_assignTo ?_ at_)) fun _ _ => trivial
  simpa [Expr.str, Expr.plain, exprPositions, partPositions] using at_

theorem stays_resolveTarget {assign : Assign} (at_ : known pos) :
    (resolveTarget assign pos).Stays known fun _ => True := by
  unfold resolveTarget
  split
  · exact (stays_stringTemporary at_).andReturn fun _ _ => trivial
  · split
    · exact stays_failAt at_
    · exact (stays_stringTemporary at_).andReturn fun _ _ => trivial
  · exact stays_pure trivial

theorem stays_hoistAssign {mode : AssignMode} {assign : Splice Assign} (at_ : known pos)
    (places : assign.At known fun assign =>
      AllAt known (exprsPositions assign.index ++ optionPositions assign.value)) :
    (hoistAssign mode assign pos).Stays known fun _ => True := by
  obtain ⟨before, ⟨target, operator, base, property, index, value⟩, after⟩ := assign
  refine stays_hoist ?_
  simp only [blockPositions_append, allAt_append]
  refine ⟨⟨places.before, ?_⟩, places.after⟩
  have node := places.node
  simp only [allAt_append] at node
  simp [blockPositions, statementPositions, docPositions, innerPositions, at_, node]

theorem stays_loopNames {head : ForHead} (at_ : known pos) :
    (loopNames head pos).Stays known fun _ => True := by
  unfold loopNames
  dsimp only
  split
  · refine (stays_declare at_).bind fun _ _ => ?_
    split
    · exact (stays_declare at_).andReturn fun _ _ => trivial
    · exact (stays_temporary _ at_).andReturn fun _ _ => trivial
  · split
    · exact (stays_declare at_).andReturn fun _ _ => trivial
    · exact (stays_temporary _ at_).andReturn fun _ _ => trivial

theorem allAt_reversed {reverse overString : Bool} {iterated : Expr}
    (places : AllAt known (exprPositions iterated)) :
    AllAt known (exprPositions (reversed reverse overString iterated)) := by
  have at_ := known_pos places
  unfold reversed
  split
  · split <;> simp [Expr.callOf, Expr.plain, Expr.withType, exprPositions, partPositions,
      exprsPositions, at_, places]
  · exact places

structure LoopStart.At (known : Position → Prop) (start : LoopStart) : Prop where
  iterated : AllAt known (exprPositions start.iterated)
  opening : AllAt known (blockPositions start.opening)

theorem stays_stringLoop {key : Option String} {value : String} {iterated : Expr}
    (at_ : known pos) (places : AllAt known (exprPositions iterated)) :
    (stringLoop key value iterated pos).Stays known (LoopStart.At known) := by
  have atIterated := known_pos places
  have stored (source : String) : AllAt known (exprPositions
      ((Expr.var source iterated.pos).withType "string")) := by
    simpa [Expr.var, Expr.plain, Expr.withType, exprPositions, partPositions] using atIterated
  have counted (index : String) : (do
      let source ← temporary "string" iterated.pos
      hoist [.assignTo source iterated iterated.pos]
      let stored := (Expr.var source iterated.pos).withType "string"
      let size ← temporary "int" iterated.pos
      hoist [.assignTo size
        ((Expr.callOf "strlen" [stored] iterated.pos).withType "int") iterated.pos]
      let charAt := Expr.plain (.access .element stored ((Expr.var index pos).withType "int")) pos
      pure {
        head := { key := some index, value := some value, reverse := false, counted := true,
                  length := some size }
        iterated := stored
        opening := [.assignTo value charAt pos] } : Lowering LoopStart).Stays known
          (LoopStart.At known) := by
    refine (stays_temporary _ atIterated).bind fun source _ => ?_
    refine (stays_hoist (allAt_assignTo places atIterated)).bind fun _ _ => ?_
    refine (stays_temporary _ atIterated).bind fun size _ => ?_
    refine Stays.andReturn (stays_hoist (allAt_assignTo ?_ atIterated)) fun _ _ =>
      ⟨stored source, allAt_assignTo ?_ at_⟩
    · simp [Expr.callOf, Expr.var, Expr.plain, Expr.withType, exprPositions, partPositions,
        exprsPositions, atIterated]
    · simp [Expr.var, Expr.plain, Expr.withType, exprPositions, partPositions, at_, atIterated]
  unfold stringLoop
  cases key with
  | none => exact (stays_temporary _ at_).bind fun index _ => counted index
  | some index =>
      have registered : (modifyScope (·.register index "int" pos)).Stays known fun _ => True :=
        stays_modifyScope fun scope locals => allAt_insert locals at_
      exact registered.bind fun _ _ => counted index

theorem stays_loopStart {head : ForHead} {key : Option String} {value : String} {iterated : Expr}
    (at_ : known pos) (places : AllAt known (exprPositions iterated)) :
    (loopStart head key value iterated pos).Stays known (LoopStart.At known) := by
  unfold loopStart
  split
  · exact stays_stringLoop at_ (allAt_reversed places)
  · exact stays_pure ⟨allAt_reversed places, allAt_nil⟩

theorem stays_catchBinding {binding : Option Expr} (at_ : known pos)
    (places : AllAt known (optionPositions binding)) :
    (catchBinding binding pos).Stays known fun e => AllAt known (exprPositions e) := by
  cases binding with
  | none =>
      refine (stays_temporary _ at_).andReturn fun name _ => ?_
      simpa [Expr.var, Expr.plain, exprPositions, partPositions] using at_
  | some binding =>
      unfold catchBinding
      dsimp only
      split
      · exact (stays_declare (known_pos places)).andReturn fun _ _ => places
      · exact stays_pure places

theorem allAt_splitCatch {classes : List Expr} {binding : Expr} {body : List Statement}
    (atClasses : AllAt known (exprsPositions classes))
    (atBinding : AllAt known (exprPositions binding)) (atBody : AllAt known (blockPositions body))
    (at_ : known pos) : AllAt known (catchPositions (splitCatch classes binding body pos)) := by
  unfold splitCatch
  induction classes with
  | nil => simp [catchPositions]
  | cons name rest ih =>
      rw [exprsPositions, allAt_append] at atClasses
      simp [catchPositions, exprsPositions, optionPositions, atClasses.1, atBinding, atBody, at_,
        ih atClasses.2]

theorem allAt_baseException (at_ : known pos) :
    AllAt known (exprPositions (baseException pos)) := by
  simpa [baseException, Expr.var, Expr.plain, exprPositions, partPositions] using at_

theorem stays_defaultCatch (at_ : known pos) :
    (defaultCatch pos).Stays known fun catches => AllAt known (catchPositions catches) := by
  refine (stays_temporary _ at_).andReturn fun name _ => allAt_splitCatch ?_ ?_ allAt_nil at_
  · simpa [exprsPositions] using allAt_baseException at_
  · simpa [Expr.var, Expr.plain, exprPositions, partPositions] using at_

end Lowering

open Lowering

variable {pos : Position}

@[simp] theorem exprPositions_withType (e : Expr) (dataType : String) :
    exprPositions (e.withType dataType) = exprPositions e := by
  obtain ⟨kind, pos, known, doCast⟩ := e
  rfl

@[simp] theorem exprsPositions_append (first second : List Expr) :
    exprsPositions (first ++ second) = exprsPositions first ++ exprsPositions second := by
  induction first with
  | nil => simp [exprsPositions]
  | cons e rest ih => simp [exprsPositions, ih]

theorem allAt_callOf {function : String} {arguments : List Expr}
    (places : AllAt known (exprsPositions arguments)) (at_ : known pos) :
    AllAt known (exprPositions (.callOf function arguments pos)) := by
  simp [Expr.callOf, Expr.plain, exprPositions, partPositions, places, at_]

theorem allAt_arguments {placement : Placement} {receiver : Expr} {arguments : List Expr}
    (atReceiver : AllAt known (exprPositions receiver))
    (places : AllAt known (exprsPositions arguments)) (at_ : known pos) :
    AllAt known (exprsPositions (placement.arguments receiver arguments pos)) := by
  cases placement with
  | first => simp [Placement.arguments, exprsPositions, atReceiver, places]
  | last => simp [Placement.arguments, exprsPositions, atReceiver, places]
  | second =>
      cases arguments with
      | nil => simp [Placement.arguments, exprsPositions, atReceiver]
      | cons lead rest =>
          rw [exprsPositions, allAt_append] at places
          simp [Placement.arguments, exprsPositions, atReceiver, places]
  | afterLiteral text =>
      simp [Placement.arguments, exprsPositions, Expr.str, Expr.plain, exprPositions,
        partPositions, atReceiver, places, at_]

theorem stays_pseudoCall {owner : PrimitiveType} {method : String} {receiver : Expr}
    {arguments : List Expr} (atReceiver : AllAt known (exprPositions receiver))
    (places : AllAt known (exprsPositions arguments)) (at_ : known pos) :
    (ofExcept (pseudoCall owner method receiver arguments pos)).Stays known fun e =>
      AllAt known (exprPositions e) := by
  unfold pseudoCall
  split
  · exact stays_failAt at_
  · split
    · exact stays_pure (allAt_callOf (allAt_arguments atReceiver places at_) at_)
    · exact stays_failAt at_

theorem stays_arrowBody {body : Splice Expr} (at_ : known pos)
    (places : body.At known fun e => AllAt known (exprPositions e)) :
    (ofExcept (arrowBody body pos)).Stays known fun body => AllAt known (blockPositions body) := by
  unfold arrowBody
  split
  · refine stays_pure ?_
    simp [blockPositions, statementPositions, docPositions, innerPositions, optionPositions,
      places.before, places.node, known_pos places.node]
  · exact stays_failAt at_

theorem stays_fetch {β : Type} {better : β → Prop} {target source : Expr} {g : Expr → β}
    (at_ : known pos) (atTarget : AllAt known (exprPositions target))
    (lowered : (lowerExpr source).Stays known fun e => AllAt known (exprPositions e))
    (holds : ∀ stored, AllAt known (exprPositions stored) → better (g stored)) :
    (do
      let name ← fetchTarget target pos
      let source ← isolate (lowerExpr source)
      let stored ← storeFetched name target.pos source pos
      pure (g stored)).Stays known better := by
  refine (stays_fetchTarget at_).bind fun name _ => ?_
  refine lowered.isolate.bind fun source' places => ?_
  exact (stays_storeFetched (known_pos atTarget) at_ places).andReturn holds

theorem allAt_prependDocs {docs : List Docblock} {s : Statement}
    (atDocs : AllAt known (docPositions docs)) (places : AllAt known (statementPositions s)) :
    AllAt known (statementPositions (s.prependDocs docs)) := by
  obtain ⟨kind, pos, docblocks⟩ := s
  simp only [statementPositions, allAt_append, allAt_cons] at places
  simp only [docPositions] at atDocs places
  simp [Statement.prependDocs, statementPositions, docPositions, atDocs, places]

theorem Splice.At.prependDocs {docs : List Docblock} {s : Splice (Option Statement)}
    (atDocs : AllAt known (docPositions docs))
    (places : s.At known fun node => ∀ s ∈ node, AllAt known (statementPositions s)) :
    (s.prependDocs docs).At known fun node => ∀ s ∈ node, AllAt known (statementPositions s) := by
  obtain ⟨before, node, after⟩ := s
  obtain ⟨atBefore, atNode, atAfter⟩ := places
  cases before with
  | cons first rest =>
      simp only [blockPositions, allAt_append] at atBefore
      refine ⟨?_, atNode, atAfter⟩
      simp [Splice.prependDocs, blockPositions, allAt_prependDocs atDocs atBefore.1, atBefore.2]
  | nil =>
      cases node with
      | some node =>
          refine ⟨allAt_nil, ?_, atAfter⟩
          have first := allAt_prependDocs atDocs (atNode node rfl)
          simpa [Splice.prependDocs] using first
      | none =>
          cases after with
          | nil => exact ⟨allAt_nil, atNode, allAt_nil⟩
          | cons first rest =>
              simp only [blockPositions, allAt_append] at atAfter
              refine ⟨allAt_nil, atNode, ?_⟩
              simp [Splice.prependDocs, blockPositions, allAt_prependDocs atDocs atAfter.1,
                atAfter.2]

theorem allAt_toBlock {s : Splice (Option Statement)}
    (places : s.At known fun node => ∀ s ∈ node, AllAt known (statementPositions s)) :
    AllAt known (blockPositions s.toBlock) := by
  obtain ⟨before, node, after⟩ := s
  obtain ⟨atBefore, atNode, atAfter⟩ := places
  cases node with
  | none => simp_all [Splice.toBlock]
  | some node => simp_all [Splice.toBlock, blockPositions]

@[simp] theorem catchPositions_append (first second : List Catch) :
    catchPositions (first ++ second) = catchPositions first ++ catchPositions second := by
  induction first with
  | nil => simp [catchPositions]
  | cons clause rest ih =>
      obtain ⟨classes, binding, body, pos⟩ := clause
      simp [catchPositions, ih]

theorem declaredLocals_known {dataType : String} {declared : List DeclaredVariable}
    (places : AllAt known (declaredPositions declared)) :
    ∀ entry ∈ declaredLocals dataType declared, known entry.2.pos := by
  induction declared with
  | nil => simp [declaredLocals]
  | cons first rest ih =>
      obtain ⟨name, value, pos⟩ := first
      simp only [declaredPositions, allAt_append, allAt_cons] at places
      rw [declaredLocals, List.map_cons, List.forall_mem_cons]
      exact ⟨places.1.1, ih places.2⟩

mutual

theorem stays_expr : (e : Expr) → AllAt known (exprPositions e) →
    (lowerExpr e).Stays known fun e => AllAt known (exprPositions e)
  | ⟨.null, pos, dataType, doCast⟩, places => by
      rw [lowerExpr]
      · exact stays_pure places
      all_goals simp
  | ⟨.literal kind text, pos, dataType, doCast⟩, places => by
      by_cases plain : kind = .istring
      · subst plain
        rw [lowerExpr]
        exact stays_pure (by simpa [exprPositions, partPositions] using places)
      · rw [lowerExpr]
        · exact stays_pure places
        all_goals simp_all
  | ⟨.emptyArray, pos, dataType, doCast⟩, places => by
      rw [lowerExpr]
      · exact stays_pure places
      all_goals simp
  | ⟨.array entries, pos, dataType, doCast⟩, places => by
      simp only [exprPositions, partPositions, allAt_cons] at places
      rw [lowerExpr]
      refine (stays_entries entries places.2).andReturn fun entries' atEntries => ?_
      simp [exprPositions, partPositions, places.1, atEntries]
  | ⟨.var name, pos, dataType, doCast⟩, places => by
      rw [lowerExpr]
      refine (stays_typeOf name).andReturn fun _ _ => ?_
      simpa [exprPositions, partPositions] using places
  | ⟨.access kind object member, pos, dataType, doCast⟩, places => by
      have whole := places
      simp only [exprPositions, partPositions, allAt_cons, allAt_append] at places
      obtain ⟨at_, atObject, atMember⟩ := places
      cases kind with
      | element =>
          rw [lowerExpr]
          refine (stays_expr object atObject).bind fun object' atObject => ?_
          refine (stays_expr member atMember).andReturn fun member' atMember => ?_
          simp [exprPositions, partPositions, at_, atObject, atMember]
      | dynamicProperty =>
          rw [lowerExpr]
          refine (stays_expr object atObject).bind fun object' atObject => ?_
          refine (stays_expr member atMember).andReturn fun member' atMember => ?_
          simp [exprPositions, partPositions, at_, atObject, atMember]
      | property =>
          rw [lowerExpr]
          refine (stays_expr object atObject).andReturn fun object' atObject => ?_
          simp [exprPositions, partPositions, at_, atObject, atMember]
      | stringProperty =>
          rw [lowerExpr]
          refine (stays_expr object atObject).bind fun object' atObject => ?_
          refine (stays_expr member atMember).bind fun member' atMember => ?_
          refine (stays_temporary _ at_).bind fun name _ => ?_
          refine (stays_hoist (allAt_assignTo atMember at_)).andReturn fun _ _ => ?_
          simp [Expr.var, Expr.plain, exprPositions, partPositions, at_, atObject]
      | staticProperty | classConstant =>
          rw [lowerExpr]
          · exact stays_pure whole
          all_goals simp
  | ⟨.call name callType arguments, pos, dataType, doCast⟩, places => by
      simp only [exprPositions, partPositions, allAt_cons] at places
      rw [lowerExpr]
      refine (stays_exprs arguments places.2).andReturn fun arguments' atArguments => ?_
      simp [exprPositions, partPositions, places.1, atArguments]
  | ⟨.methodCall receiver name callType arguments, pos, dataType, doCast⟩, places => by
      simp only [exprPositions, partPositions, allAt_cons, allAt_append] at places
      obtain ⟨at_, atReceiver, atArguments⟩ := places
      rw [lowerExpr]
      refine (stays_expr receiver atReceiver).bind fun receiver' atReceiver => ?_
      refine (stays_exprs arguments atArguments).bind fun arguments' atArguments => ?_
      split
      · exact stays_pseudoCall atReceiver atArguments at_
      · refine stays_pure ?_
        simp [exprPositions, partPositions, at_, atReceiver, atArguments]
  | ⟨.staticCall callee arguments, pos, dataType, doCast⟩, places => by
      simp only [exprPositions, partPositions, allAt_cons] at places
      rw [lowerExpr]
      refine (stays_exprs arguments places.2).andReturn fun arguments' atArguments => ?_
      simp [exprPositions, partPositions, places.1, atArguments]
  | ⟨.new className dynamic arguments, pos, dataType, doCast⟩, places => by
      simp only [exprPositions, partPositions, allAt_cons] at places
      rw [lowerExpr]
      refine (stays_exprs arguments places.2).andReturn fun arguments' atArguments => ?_
      simp [exprPositions, partPositions, places.1, atArguments]
  | ⟨.newType typeName arguments, pos, dataType, doCast⟩, places => by
      have at_ := known_pos places
      rw [lowerExpr]
      split
      · exact stays_pure (by simpa [Expr.plain, exprPositions, partPositions] using at_)
      · split
        · exact stays_pure (by simpa [Expr.str, Expr.plain, exprPositions, partPositions] using at_)
        · exact stays_failAt at_
  | ⟨.unary op operand, pos, dataType, doCast⟩, places => by
      simp only [exprPositions, partPositions, allAt_cons] at places
      obtain ⟨at_, atOperand⟩ := places
      have lowered := stays_expr operand atOperand
      have rewrapped (op : UnaryOp) : (do
          let operand ← lowerExpr operand
          pure ⟨.unary op operand, pos, dataType, doCast⟩ : Lowering Expr).Stays known fun e =>
            AllAt known (exprPositions e) :=
        lowered.andReturn fun operand' atOperand => by
          simp [exprPositions, partPositions, at_, atOperand]
      cases op with
      | likely | unlikely =>
          rw [lowerExpr]
          exact lowered
      | empty =>
          rw [lowerExpr]
          refine lowered.andReturn fun operand' atOperand => ?_
          rw [exprPositions_withType]
          exact allAt_callOf (by simpa [exprsPositions] using atOperand) at_
      | group =>
          rw [lowerExpr]
          refine lowered.bind fun operand' atOperand => ?_
          split
          · exact stays_pure atOperand
          · exact stays_pure (by simp [exprPositions, partPositions, at_, atOperand])
      | not =>
          -- A negated fetch is one step: its source is lowered, and not the fetch itself.
          obtain ⟨kind, fetchPos, fetchType, fetchCast⟩ := operand
          cases kind with
          | fetch target source =>
              simp only [exprPositions, partPositions, allAt_cons, allAt_append] at atOperand
              rw [lowerExpr]
              refine stays_fetch atOperand.1 atOperand.2.1 (stays_expr source atOperand.2.2)
                fun stored atStored => ?_
              simp [exprPositions, partPositions, Expr.nullAt, Expr.plain, at_, atStored,
                atOperand.1]
          | _ =>
              rw [lowerExpr_unary pos dataType doCast (by simp) (by simp)]
              exact rewrapped .not
      | _ =>
          rw [lowerExpr_unary pos dataType doCast (by simp) (by simp)]
          exact rewrapped _
  | ⟨.binary op left right, pos, dataType, doCast⟩, places => by
      simp only [exprPositions, partPositions, allAt_cons, allAt_append] at places
      rw [lowerExpr]
      refine (stays_expr left places.2.1).bind fun left' atLeft => ?_
      refine (stays_expr right places.2.2).andReturn fun right' atRight => ?_
      simp [exprPositions, partPositions, places.1, atLeft, atRight]
  | ⟨.instanceOf value className, pos, dataType, doCast⟩, places => by
      simp only [exprPositions, partPositions, allAt_cons, allAt_append] at places
      rw [lowerExpr]
      refine (stays_expr value places.2.1).andReturn fun value' atValue => ?_
      simp [exprPositions, partPositions, places.1, places.2.2, atValue]
  | ⟨.range kind low high, pos, dataType, doCast⟩, places => by
      simp only [exprPositions, partPositions, allAt_cons, allAt_append] at places
      rw [lowerExpr]
      refine (stays_expr low places.2.1).bind fun low' atLow => ?_
      refine (stays_expr high places.2.2).andReturn fun high' atHigh => ?_
      rw [exprPositions_withType]
      exact allAt_callOf (by simp [exprsPositions, atLow, atHigh]) places.1
  | ⟨.ternary condition yes no, pos, dataType, doCast⟩, places => by
      simp only [exprPositions, partPositions, allAt_cons, allAt_append] at places
      rw [lowerExpr]
      refine (stays_expr condition places.2.1.1).bind fun condition' atCondition => ?_
      refine (stays_expr yes places.2.1.2).bind fun yes' atYes => ?_
      refine (stays_expr no places.2.2).andReturn fun no' atNo => ?_
      simp [exprPositions, partPositions, places.1, atCondition, atYes, atNo]
  | ⟨.cast typeName operand, pos, dataType, doCast⟩, places => by
      simp only [exprPositions, partPositions, allAt_cons] at places
      rw [lowerExpr]
      refine (stays_expr operand places.2).bind fun operand' atOperand => ?_
      split
      · exact stays_pure (by simp [exprPositions, partPositions, places.1, atOperand])
      · exact stays_pure (by simpa using atOperand)
  | ⟨.typeHint hint operand, pos, dataType, doCast⟩, places => by
      simp only [exprPositions, partPositions, allAt_cons, allAt_append] at places
      rw [lowerExpr]
      refine (stays_expr operand places.2.2).bind fun operand' atOperand => ?_
      split
      · exact stays_pure (by simpa using atOperand)
      · exact stays_pure atOperand
  | ⟨.fetch target source, pos, dataType, doCast⟩, places => by
      simp only [exprPositions, partPositions, allAt_cons, allAt_append] at places
      rw [lowerExpr]
      refine stays_fetch places.1 places.2.1 (stays_expr source places.2.2)
        fun stored atStored => ?_
      simp [exprPositions, partPositions, Expr.nullAt, Expr.plain, places.1, atStored]
  | ⟨.closure parameters body locals, pos, dataType, doCast⟩, places => by
      simp only [exprPositions, partPositions, allAt_cons, allAt_append] at places
      obtain ⟨at_, ⟨atParameters, atBody⟩, atLocals⟩ := places
      rw [lowerExpr]
      refine ((stays_block body atBody).within atLocals).andReturn fun result inner => ?_
      simp [exprPositions, partPositions, at_, atParameters, inner.1.node, inner.2]
  | ⟨.closureArrow parameter body, pos, dataType, doCast⟩, places => by
      simp only [exprPositions, partPositions, allAt_cons, allAt_append] at places
      obtain ⟨at_, atParameter, atBody⟩ := places
      have atName := known_pos atParameter
      rw [lowerExpr]
      split
      · exact stays_failAt atName
      · refine ((stays_expr body atBody).within allAt_nil).bind fun result inner => ?_
        refine (stays_arrowBody at_ inner.1).andReturn fun body' atBody => ?_
        simp [exprPositions, partPositions, parameterPositions, optionPositions, at_, atName,
          atBody, inner.2]

theorem stays_exprs : (es : List Expr) → AllAt known (exprsPositions es) →
    (lowerExprs es).Stays known fun es => AllAt known (exprsPositions es)
  | [], _ => by
      rw [lowerExprs]
      exact stays_pure allAt_nil
  | e :: rest, places => by
      rw [exprsPositions, allAt_append] at places
      rw [lowerExprs]
      refine (stays_expr e places.1).bind fun e' atFirst => ?_
      refine (stays_exprs rest places.2).andReturn fun rest' atRest => ?_
      simp [exprsPositions, atFirst, atRest]

theorem stays_option : (e : Option Expr) → AllAt known (optionPositions e) →
    (lowerOption e).Stays known fun e => AllAt known (optionPositions e)
  | none, _ => by
      rw [lowerOption]
      exact stays_pure allAt_nil
  | some e, places => by
      rw [lowerOption]
      exact (stays_expr e places).andReturn fun e' at_ => at_

theorem stays_entries : (entries : List ArrayEntry) → AllAt known (entryPositions entries) →
    (lowerEntries entries).Stays known fun entries => AllAt known (entryPositions entries)
  | [], _ => by
      rw [lowerEntries]
      exact stays_pure allAt_nil
  | ⟨key, value⟩ :: rest, places => by
      simp only [entryPositions, allAt_append] at places
      rw [lowerEntries]
      refine (stays_option key places.1.1).bind fun key' atKey => ?_
      refine (stays_expr value places.1.2).bind fun value' atValue => ?_
      refine (stays_entries rest places.2).andReturn fun rest' atRest => ?_
      simp [entryPositions, atKey, atValue, atRest]

theorem stays_block : (body : List Statement) → AllAt known (blockPositions body) →
    (lowerBlock body).Stays known fun body => AllAt known (blockPositions body)
  | [], _ => by
      rw [lowerBlock]
      exact stays_pure allAt_nil
  | s :: rest, places => by
      rw [blockPositions, allAt_append] at places
      rw [lowerBlock]
      refine (stays_statement s places.1).isolate.bind fun lowered atFirst => ?_
      refine (stays_block rest places.2).andReturn fun rest' atRest => ?_
      rw [blockPositions_append, allAt_append]
      exact ⟨allAt_toBlock atFirst, atRest⟩

theorem stays_statement : (s : Statement) → AllAt known (statementPositions s) →
    (lowerStatement s).Stays known fun node => ∀ s ∈ node, AllAt known (statementPositions s)
  | ⟨kind, pos, docblocks⟩, places => by
      simp only [statementPositions, allAt_append, allAt_cons] at places
      obtain ⟨⟨at_, atDocs⟩, atKind⟩ := places
      rw [lowerStatement]
      refine (stays_kind pos at_ kind atKind).isolate.bind fun lowered atLowered => ?_
      refine stays_emit (Splice.At.prependDocs atDocs ⟨atLowered.before, ?_, atLowered.after⟩)
      intro s left
      obtain ⟨kind', found, rfl⟩ := Option.map_eq_some_iff.mp left
      simp [statementPositions, docPositions, at_, atLowered.node kind' found]

theorem stays_kind (pos : Position) (at_ : known pos) : (kind : StatementKind) →
    AllAt known (innerPositions kind) →
    (lowerKind pos kind).Stays known fun left => ∀ kind ∈ left, AllAt known (innerPositions kind)
  | .lets assignments, places => by
      rw [lowerKind]
      exact (stays_lets assignments places).andReturn fun _ _ => by simp
  | .declare dataType declared, places => by
      rw [lowerKind]
      refine Stays.bind (stays_modifyScope fun scope locals => ?_) fun _ _ =>
        (stays_initial declared places).andReturn fun _ _ => by simp
      exact allAt_insertAll locals (declaredLocals_known places)
  | .fetch e, places => by
      obtain ⟨kind, fetchPos, dataType, doCast⟩ := e
      have atFetch : known fetchPos := known_pos places
      cases kind with
      | fetch target source =>
          simp only [innerPositions, exprPositions, partPositions, allAt_cons, allAt_append]
            at places
          rw [lowerKind]
          exact stays_fetch atFetch places.2.1 (stays_expr source places.2.2) fun _ _ => by simp
      | _ =>
          rw [lowerKind]
          · exact stays_failAt atFetch
          · simp
  | .assign mode ⟨target, operator, base, property, index, value⟩, places => by
      rw [lowerKind]
      refine (stays_assign ⟨target, operator, base, property, index, value⟩ places).andReturn
        fun assign' atAssign => ?_
      obtain ⟨target, operator, base, property, index, value⟩ := assign'
      simpa [innerPositions] using atAssign
  | .echo expressions, places => by
      rw [lowerKind]
      refine (stays_exprs expressions places).andReturn fun expressions' at_ => ?_
      simpa [innerPositions] using at_
  | .effect kind e, places => by
      have lowered := stays_expr e places
      by_cases method : kind = .methodCall
      · subst method
        rw [lowerKind]
        refine lowered.bind fun e' at_ => ?_
        split <;> exact stays_pure (by simpa [innerPositions] using at_)
      · rw [lowerKind]
        · exact lowered.andReturn fun e' at_ => by simpa [innerPositions] using at_
        · exact method
  | .ret value, places => by
      rw [lowerKind]
      refine (stays_option value places).andReturn fun value' at_ => ?_
      simpa [innerPositions] using at_
  | .jump kind, _ => by
      rw [lowerKind]
      · exact stays_pure (by simp [innerPositions])
      all_goals simp
  | .empty, _ => by
      rw [lowerKind]
      · exact stays_pure (by simp [innerPositions])
      all_goals simp
  | .branch condition body elseIfs otherwise, places => by
      simp only [innerPositions, allAt_append] at places
      obtain ⟨⟨⟨atCondition, atBody⟩, atElseIfs⟩, atOtherwise⟩ := places
      rw [lowerKind]
      refine (stays_expr condition atCondition).bind fun condition' atCondition => ?_
      refine (stays_block body atBody).bind fun body' atBody => ?_
      refine (stays_elseIfs elseIfs atElseIfs).bind fun elseIfs' atElseIfs => ?_
      cases otherwise with
      | none =>
          refine stays_pure ?_
          simp [innerPositions, otherwisePositions, atCondition, atBody, atElseIfs]
      | some final =>
          refine (stays_block final atOtherwise).andReturn fun final' atFinal => ?_
          simp [innerPositions, otherwisePositions, atCondition, atBody, atElseIfs, atFinal]
  | .whileLoop kind condition body, places => by
      simp only [innerPositions, allAt_append] at places
      rw [lowerKind]
      refine (stays_expr condition places.1).bind fun condition' atCondition => ?_
      refine (stays_block body places.2).andReturn fun body' atBody => ?_
      simp [innerPositions, atCondition, atBody]
  | .loop body, places => by
      rw [lowerKind]
      refine (stays_block body places).andReturn fun body' atBody => ?_
      simpa [innerPositions] using atBody
  | .forLoop head iterated body, places => by
      simp only [innerPositions, allAt_append] at places
      rw [lowerKind]
      refine (stays_loopNames at_).bind fun names _ => ?_
      refine (stays_expr iterated places.1).bind fun iterated' atIterated => ?_
      refine (stays_loopStart at_ atIterated).bind fun start atStart => ?_
      refine (stays_block body places.2).andReturn fun body' atBody => ?_
      simp [innerPositions, atStart.iterated, atStart.opening, atBody]
  | .switch subject clauses, places => by
      simp only [innerPositions, allAt_append] at places
      rw [lowerKind]
      refine (stays_expr subject places.1).bind fun subject' atSubject => ?_
      refine (stays_clauses clauses places.2).andReturn fun clauses' atClauses => ?_
      simp [innerPositions, atSubject, atClauses]
  | .tryCatch body [], places => by
      simp only [innerPositions, allAt_append] at places
      rw [lowerKind]
      refine (stays_block body places.1).bind fun body' atBody => ?_
      refine (stays_defaultCatch at_).andReturn fun catches atCatches => ?_
      simp [innerPositions, atBody, atCatches]
  | .tryCatch body (clause :: catches), places => by
      simp only [innerPositions, allAt_append] at places
      rw [lowerKind]
      · refine (stays_block body places.1).bind fun body' atBody => ?_
        refine (stays_catches (clause :: catches) places.2).andReturn fun catches' atCatches => ?_
        simp [innerPositions, atBody, atCatches]
      · simp
  | .comment text, _ => by
      rw [lowerKind]
      · exact stays_pure (by simp [innerPositions])
      all_goals simp
  | .cblock text, _ => by
      rw [lowerKind]
      exact stays_pure (by simp)

theorem stays_assign : (assign : Assign) →
    AllAt known (exprsPositions assign.index ++ optionPositions assign.value) →
    (lowerAssign assign).Stays known fun assign =>
      AllAt known (exprsPositions assign.index ++ optionPositions assign.value)
  | ⟨target, operator, base, property, index, value⟩, places => by
      simp only [allAt_append] at places
      rw [lowerAssign]
      refine (stays_option value places.2).bind fun value' atValue => ?_
      refine (stays_exprs index places.1).andReturn fun index' atIndex => ?_
      simp [atValue, atIndex]

theorem stays_lets : (assignments : List LetAssignment) →
    AllAt known (letPositions assignments) →
    (lowerLets assignments).Stays known fun _ => True
  | [], _ => by
      rw [lowerLets]
      exact stays_pure trivial
  | ⟨⟨target, operator, base, property, index, value⟩, pos⟩ :: rest, places => by
      simp only [letPositions, allAt_append, allAt_cons] at places
      obtain ⟨⟨⟨at_, atIndex⟩, atValue⟩, atRest⟩ := places
      rw [lowerLets]
      refine (stays_resolveTarget at_).bind fun resolved _ => ?_
      have assigned : (do
          let value ← lowerOption value
          let index ← lowerExprs index
          pure { resolved.2 with index, value } : Lowering Assign).Stays known fun assign =>
            AllAt known (exprsPositions assign.index ++ optionPositions assign.value) := by
        refine (stays_option value atValue).bind fun value' atValue => ?_
        refine (stays_exprs index atIndex).andReturn fun index' atIndex => ?_
        simp [atValue, atIndex]
      refine assigned.isolate.bind fun assign atAssign => ?_
      exact (stays_hoistAssign at_ atAssign).bind fun _ _ => stays_lets rest atRest

theorem stays_initial : (declared : List DeclaredVariable) →
    AllAt known (declaredPositions declared) →
    (lowerInitial declared).Stays known fun _ => True
  | [], _ => by
      rw [lowerInitial]
      exact stays_pure trivial
  | ⟨name, none, pos⟩ :: rest, places => by
      simp only [declaredPositions, allAt_append] at places
      rw [lowerInitial]
      exact stays_initial rest places.2
  | ⟨name, some value, pos⟩ :: rest, places => by
      simp only [declaredPositions, optionPositions, allAt_append, allAt_cons] at places
      obtain ⟨⟨at_, atValue⟩, atRest⟩ := places
      rw [lowerInitial]
      have assigned : (do
          let value ← lowerExpr value
          pure (Assign.set name value)).Stays known fun assign =>
            AllAt known (exprsPositions assign.index ++ optionPositions assign.value) :=
        (stays_expr value atValue).andReturn fun value' atValue => by
          simpa [Assign.set, exprsPositions, optionPositions] using atValue
      refine assigned.isolate.bind fun assign atAssign => ?_
      exact (stays_hoistAssign at_ atAssign).bind fun _ _ => stays_initial rest atRest

theorem stays_elseIfs : (elseIfs : List ElseIf) → AllAt known (elseIfPositions elseIfs) →
    (lowerElseIfs elseIfs).Stays known fun elseIfs => AllAt known (elseIfPositions elseIfs)
  | [], _ => by
      rw [lowerElseIfs]
      exact stays_pure allAt_nil
  | ⟨condition, body, pos⟩ :: rest, places => by
      simp only [elseIfPositions, allAt_append, allAt_cons] at places
      obtain ⟨⟨⟨at_, atCondition⟩, atBody⟩, atRest⟩ := places
      rw [lowerElseIfs]
      refine (stays_expr condition atCondition).bind fun condition' atCondition => ?_
      refine (stays_block body atBody).bind fun body' atBody => ?_
      refine (stays_elseIfs rest atRest).andReturn fun rest' atRest => ?_
      simp [elseIfPositions, at_, atCondition, atBody, atRest]

theorem stays_clauses : (clauses : List SwitchClause) → AllAt known (clausePositions clauses) →
    (lowerClauses clauses).Stays known fun clauses => AllAt known (clausePositions clauses)
  | [], _ => by
      rw [lowerClauses]
      exact stays_pure allAt_nil
  | ⟨test, body⟩ :: rest, places => by
      simp only [clausePositions, allAt_append] at places
      rw [lowerClauses]
      refine (stays_option test places.1.1).bind fun test' atTest => ?_
      refine (stays_block body places.1.2).bind fun body' atBody => ?_
      refine (stays_clauses rest places.2).andReturn fun rest' atRest => ?_
      simp [clausePositions, atTest, atBody, atRest]

theorem stays_catches : (catches : List Catch) → AllAt known (catchPositions catches) →
    (lowerCatches catches).Stays known fun catches => AllAt known (catchPositions catches)
  | [], _ => by
      rw [lowerCatches]
      exact stays_pure allAt_nil
  | ⟨classes, binding, body, pos⟩ :: rest, places => by
      simp only [catchPositions, allAt_append, allAt_cons] at places
      obtain ⟨⟨⟨⟨at_, atClasses⟩, atBinding⟩, atBody⟩, atRest⟩ := places
      rw [lowerCatches]
      refine (stays_block body atBody).bind fun body' atBody => ?_
      refine (stays_catchBinding at_ atBinding).bind fun binding' atBinding => ?_
      refine (stays_catches rest atRest).andReturn fun rest' atRest => ?_
      rw [catchPositions_append, allAt_append]
      refine ⟨allAt_splitCatch ?_ atBinding atBody at_, atRest⟩
      split
      · simpa [exprsPositions] using allAt_baseException at_
      · exact atClasses

end

end Zephir
