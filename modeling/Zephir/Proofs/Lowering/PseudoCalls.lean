import Mathlib.Data.List.Forall2
import Mathlib.Data.List.Perm.Subperm
import Zephir.Proofs.Lowering.CallSites
import Zephir.Proofs.Meaning.Early

/-!
Methods of primitive values. Wherever lowering goes, closures included, it leaves no method call on
a literal or on a variable of a primitive type: each such call has become one call of the function
that the table names, with the receiver at its place among the arguments. Whether a call can be
translated depends on the table alone, once its receiver and its arguments have been lowered.
-/

namespace Zephir

open Lowering

@[simp] theorem callsBlock_append (first second : List Statement) :
    callsBlock (first ++ second) = callsBlock first ++ callsBlock second := by
  induction first with
  | nil => simp
  | cons s rest ih => simp [ih]

@[simp] theorem callsCatches_append (first second : List Catch) :
    callsCatches (first ++ second) = callsCatches first ++ callsCatches second := by
  induction first with
  | nil => simp
  | cons clause rest ih =>
      obtain ⟨classes, binding, body, pos⟩ := clause
      simp [ih]

@[simp] theorem callsBlock_headDocs (docblocks : List Docblock) (block : List Statement) :
    callsBlock (headDocs docblocks block) = callsBlock block := by
  cases block with
  | nil => rfl
  | cons s rest =>
      obtain ⟨kind, pos, attached⟩ := s
      simp [headDocs, Statement.prependDocs]

@[simp] theorem callsExpr_withType (e : Expr) (dataType : String) :
    callsExpr (e.withType dataType) = callsExpr e := by
  obtain ⟨kind, pos, known, doCast⟩ := e
  rfl

@[simp] theorem callsStatement_assignTo (name : String) (value : Expr) (pos : Position) :
    callsStatement (.assignTo name value pos) = callsExpr value := by
  simp [Statement.assignTo, Assign.set]

@[simp] theorem callsExpr_plain (kind : ExprKind) (pos : Position) :
    callsExpr (.plain kind pos) = callsPart pos kind := rfl

@[simp] theorem callsExpr_callOf (function : String) (arguments : List Expr) (pos : Position) :
    callsExpr (.callOf function arguments pos) =
      .callOf function arguments pos :: callsExprs arguments := rfl

@[simp] theorem callsExpr_var (name : String) (pos : Position) :
    callsExpr (.var name pos) = [] := rfl

@[simp] theorem callsExpr_str (text : String) (pos : Position) :
    callsExpr (.str text pos) = [] := rfl

@[simp] theorem callsExpr_nullAt (pos : Position) : callsExpr (.nullAt pos) = [] := rfl

@[simp] theorem callsExprs_append (first second : List Expr) :
    callsExprs (first ++ second) = callsExprs first ++ callsExprs second := by
  induction first with
  | nil => simp
  | cons e rest ih => simp [ih]

theorem mem_callsCatches_splitCatch {classes : List Expr} {binding : Expr}
    {body : List Statement} {pos : Position} (some : classes ≠ []) (call : Expr) :
    call ∈ callsCatches (splitCatch classes binding body pos) ↔ call ∈ callsBlock body := by
  unfold splitCatch
  induction classes with
  | nil => contradiction
  | cons name rest ih =>
      cases rest with
      | nil => simp
      | cons other more =>
          rw [List.map_cons, callsCatches, List.mem_append, ih (by simp), or_self]

/-! ## Placement -/

def Placement.literals (pos : Position) : Placement → List Expr
  | .afterLiteral text => [.str text pos]
  | _ => []

/-- How many of the given arguments come before the receiver. -/
def Placement.leading (given : Nat) : Placement → Nat
  | .last => given
  | .second => min 1 given
  | _ => 0

/-- The literals, and then the given arguments in order with the receiver once among them. -/
def Placement.around (placement : Placement) (receiver : Expr) (arguments : List Expr)
    (pos : Position) : List Expr :=
  placement.literals pos ++ arguments.take (placement.leading arguments.length) ++
    receiver :: arguments.drop (placement.leading arguments.length)

theorem Placement.arguments_eq_around (placement : Placement) (receiver : Expr)
    (arguments : List Expr) (pos : Position) :
    placement.arguments receiver arguments pos = placement.around receiver arguments pos := by
  cases placement with
  | first => rfl
  | last => simp [Placement.arguments, around, literals, leading]
  | second => cases arguments <;> simp [Placement.arguments, around, literals, leading]
  | afterLiteral text => rfl

theorem Placement.callsExprs_arguments_perm (placement : Placement) (receiver : Expr)
    (arguments : List Expr) (pos : Position) :
    (callsExpr receiver ++ callsExprs arguments).Perm
      (callsExprs (placement.arguments receiver arguments pos)) := by
  cases placement with
  | first => exact .refl _
  | last => simpa [Placement.arguments] using List.perm_append_comm
  | second =>
      cases arguments with
      | nil => exact .refl _
      | cons lead rest => simpa [Placement.arguments] using List.perm_append_comm_assoc _ _ _
  | afterLiteral text => exact .refl _

/-- Literals of strings, characters, numbers and arrays, and variables of one of these types. -/
def Expr.IsPrimitive (e : Expr) : Prop :=
  match e.kind with
  | .literal kind _ => kind ∈ [.string, .istring, .char, .int, .double]
  | .array _ => True
  | .emptyArray => True
  | .var _ => ∃ dataType ∈ e.dataType, dataType ∈ ["array", "char", "int", "double", "string"]
  | _ => False

theorem isPrimitive_iff {e : Expr} : e.IsPrimitive ↔ (primitiveOwner? e).isSome = true := by
  obtain ⟨kind, pos, dataType, doCast⟩ := e
  cases kind with
  | literal kind text => cases kind <;> simp [Expr.IsPrimitive, primitiveOwner?]
  | var name =>
      cases dataType with
      | none => simp [Expr.IsPrimitive, primitiveOwner?]
      | some dataType =>
          simp [Expr.IsPrimitive, primitiveOwner?, PrimitiveType.ofName?, PrimitiveType.all,
            PrimitiveType.name, @eq_comm _ dataType]
  | _ => simp [Expr.IsPrimitive, primitiveOwner?]

theorem pseudoCall_ok_iff {owner : PrimitiveType} {name : String} {receiver called : Expr}
    {arguments : List Expr} {pos : Position} :
    pseudoCall owner name receiver arguments pos = .ok called ↔
      ∃ entry, owner.method? name = some entry ∧ entry.arity.accepts arguments.length = true ∧
        called = .callOf entry.function (entry.placement.arguments receiver arguments pos) pos := by
  unfold pseudoCall
  cases owner.method? name with
  | none => simp
  | some entry =>
      by_cases accepts : entry.arity.accepts arguments.length = true
      · simp [accepts, @eq_comm _ called]
      · simp [accepts]

/-! ## What becomes of the calls -/

/-- A call that is no method call on a primitive value. -/
def Expr.IsTranslated (call : Expr) : Prop :=
  ∀ receiver name callType arguments, call.kind = .methodCall receiver name callType arguments →
    ¬ receiver.IsPrimitive

/-- What a method call of the source becomes. The receiver and then the arguments are lowered in the
scope where lowering comes to the call, and there is one call of them: of the method, or, if the
receiver has a primitive type in that scope, of the function that the table names. -/
def CallSite.Becomes (site : CallSite) (call : Expr) : Prop :=
  ∃ first receiver' mid second arguments' next,
    (lowerExpr site.receiver).Runs site.scope first receiver' mid ∧
    (lowerExprs site.arguments).Runs mid second arguments' next ∧
    arguments'.length = site.arguments.length ∧
    (receiver'.IsPrimitive ↔ (site.scope.owner site.receiver).isSome = true) ∧
    match site.scope.owner site.receiver with
    | none => call = .plain (.methodCall receiver' site.name site.callType arguments') site.pos
    | some owner => ∃ entry, owner.method? site.name = some entry ∧
        entry.arity.accepts site.arguments.length = true ∧ call = .callOf entry.function
          (entry.placement.around receiver' arguments' site.pos) site.pos

/-- The calls of the output are translated, and each method call of the source has become one of
its own among them. -/
structure Covers (source : List CallSite) (out : List Expr) : Prop where
  translated : ∀ call ∈ out, call.IsTranslated
  becomes : ∃ made, List.Forall₂ CallSite.Becomes source made ∧ made.Subperm out

def Expr.IsFunctionCall (call : Expr) : Prop :=
  ∃ name callType arguments pos, call = .plain (.call name callType arguments) pos

@[grind .] theorem isFunctionCall_plain (name : String) (callType : UInt8) (arguments : List Expr)
    (pos : Position) : (Expr.plain (.call name callType arguments) pos).IsFunctionCall :=
  ⟨name, callType, arguments, pos, rfl⟩

@[grind .] theorem isFunctionCall_callOf (function : String) (arguments : List Expr)
    (pos : Position) : (Expr.callOf function arguments pos).IsFunctionCall :=
  isFunctionCall_plain function 1 arguments pos

theorem Expr.IsFunctionCall.isTranslated {call : Expr} (isCall : call.IsFunctionCall) :
    call.IsTranslated := by
  obtain ⟨name, callType, arguments, pos, rfl⟩ := isCall
  rintro _ _ _ _ ⟨⟩

namespace Covers

variable {source source' : List CallSite} {out out' : List Expr}

theorem nil : Covers [] [] :=
  ⟨List.forall_mem_nil _, [], .nil, List.nil_subperm⟩

theorem append (first : Covers source out) (second : Covers source' out') :
    Covers (source ++ source') (out ++ out') := by
  obtain ⟨made, becomes, among⟩ := first.becomes
  obtain ⟨made', becomes', among'⟩ := second.becomes
  refine ⟨List.forall_mem_append.mpr ⟨first.translated, second.translated⟩, made ++ made', ?_, ?_⟩
  · exact List.rel_append becomes becomes'
  · exact among.append among'

/-- Neither the order of the calls in the output matters nor how many functions it calls besides,
and calls of the output may be repeated. -/
theorem widen (covers : Covers source out) (kept : out.Subperm out')
    (new : ∀ call ∈ out', call ∈ out ∨ call.IsFunctionCall) : Covers source out' := by
  obtain ⟨made, becomes, among⟩ := covers.becomes
  refine ⟨fun call inside => ?_, made, becomes, among.trans kept⟩
  rcases new call inside with old | isCall
  · exact covers.translated call old
  · exact isCall.isTranslated

theorem perm (covers : Covers source out) (reordered : out.Perm out') : Covers source out' :=
  covers.widen reordered.subperm fun _ inside => .inl (reordered.mem_iff.mpr inside)

theorem recount (covers : Covers source out)
    (same : ∀ [DecidableEq Expr] (call : Expr), out.count call = out'.count call) :
    Covers source out' := by
  classical
  exact covers.perm (List.perm_iff_count.mpr fun call => same call)

theorem both {hoisted hoisted' left right : List Expr} (first : Covers source (hoisted ++ left))
    (second : Covers source' (hoisted' ++ right)) :
    Covers (source ++ source') (hoisted ++ hoisted' ++ (left ++ right)) := by
  refine (first.append second).perm ?_
  simpa using (List.perm_append_comm_assoc left hoisted' right).append_left hoisted

theorem callAmong {before after : List Expr} (covers : Covers source (before ++ after))
    {call : Expr} (isCall : call.IsFunctionCall) : Covers source (before ++ call :: after) := by
  refine covers.widen ((List.sublist_cons_self call after).append_left before).subperm ?_
  simp only [List.mem_append, List.mem_cons]
  rintro other (inside | rfl | inside)
  · exact .inl (.inl inside)
  · exact .inr isCall
  · exact .inl (.inr inside)

end Covers

theorem LowersExprs.length_eq {es es' : List Expr} {scope next : Scope} {before : List Statement}
    (lowers : LowersExprs es scope before es' next) : es'.length = es.length := by
  induction es generalizing es' scope before with
  | nil =>
      cases lowers
      rfl
  | cons e others ih =>
      cases lowers with
      | cons _ rest => exact congrArg Nat.succ (ih rest)

section Calls

variable {receiver receiver' called : Expr} {arguments arguments' : List Expr} {name : String}
  {callType : UInt8} {pos : Position} {scope mid next : Scope} {first second : List Statement}
  {source : List CallSite} {before after : List Expr}

theorem becomes_methodCall (loweredReceiver : LowersExpr receiver scope first receiver' mid)
    (loweredArguments : LowersExprs arguments mid second arguments' next)
    (object : primitiveOwner? receiver' = none) :
    CallSite.Becomes ⟨scope, receiver, name, callType, arguments, pos⟩
      (.plain (.methodCall receiver' name callType arguments') pos) := by
  have owned : scope.owner receiver = none := loweredReceiver.primitiveOwner_eq ▸ object
  refine ⟨first, receiver', mid, second, arguments', next, loweredReceiver.runs,
    loweredArguments.runs, loweredArguments.length_eq, ?_, ?_⟩
  · rw [isPrimitive_iff, loweredReceiver.primitiveOwner_eq]
  · simp only [owned]

theorem isTranslated_methodCall (object : primitiveOwner? receiver' = none) :
    (Expr.plain (.methodCall receiver' name callType arguments') pos).IsTranslated := by
  rintro _ _ _ _ ⟨⟩ primitive
  simp [isPrimitive_iff, object] at primitive

theorem becomes_pseudoCall {owner : PrimitiveType}
    (loweredReceiver : LowersExpr receiver scope first receiver' mid)
    (loweredArguments : LowersExprs arguments mid second arguments' next)
    (primitive : primitiveOwner? receiver' = some owner)
    (translated : pseudoCall owner name receiver' arguments' pos = .ok called) :
    CallSite.Becomes ⟨scope, receiver, name, callType, arguments, pos⟩ called := by
  have owned : scope.owner receiver = some owner := loweredReceiver.primitiveOwner_eq ▸ primitive
  obtain ⟨entry, found, accepts, rfl⟩ := pseudoCall_ok_iff.mp translated
  refine ⟨first, receiver', mid, second, arguments', next, loweredReceiver.runs,
    loweredArguments.runs, loweredArguments.length_eq, ?_, ?_⟩
  · rw [isPrimitive_iff, loweredReceiver.primitiveOwner_eq]
  · simp only [owned]
    refine ⟨entry, found, loweredArguments.length_eq ▸ accepts, ?_⟩
    rw [entry.placement.arguments_eq_around]

theorem Covers.call {site : CallSite} (covers : Covers source (before ++ after))
    (becomes : site.Becomes called) (translated : called.IsTranslated) :
    Covers (site :: source) (before ++ called :: after) := by
  obtain ⟨made, others, among⟩ := covers.becomes
  refine ⟨?_, called :: made, .cons becomes others, ?_⟩
  · have all : ∀ call ∈ called :: (before ++ after), call.IsTranslated :=
      List.forall_mem_cons.mpr ⟨translated, covers.translated⟩
    exact fun call inside => all call (List.perm_middle.mem_iff.mp inside)
  · exact ((List.subperm_cons called).mpr among).trans List.perm_middle.symm.subperm

/-- A fetch leaves its source twice: to be tested, and to be stored. -/
theorem Covers.fetched {hoisted : List Expr} {e : Expr}
    (covers : Covers source (hoisted ++ callsExpr e)) (pos : Position) :
    Covers source (hoisted ++ callsExpr (fetchedValue e pos)) := by
  have twice : callsExpr (fetchedValue e pos) = callsExpr e ++ callsExpr e := by
    simp [fetchedValue]
  rw [twice]
  refine covers.widen ?_ fun call inside => .inl ?_
  · exact ((List.sublist_append_left _ _).append_left _).subperm
  · simpa using inside

/-- Two nodes one after the other: the second one is walked in the scope after the first. -/
theorem Covers.beside {α : Type} {x : Lowering α} {a : α} {left right : List Expr}
    {sites : Scope → List CallSite} (covers : Covers source (callsBlock first ++ left))
    (ran : x.Runs scope first a mid) (more : Covers (sites mid) (callsBlock second ++ right)) :
    Covers (source ++ sites (x.scopeAfter scope))
      (callsBlock (first ++ second) ++ (left ++ right)) := by
  rw [ran.scopeAfter, callsBlock_append]
  exact covers.both more

theorem covers_reversed {reverse overString : Bool} {iterated : Expr} {out : List Expr}
    (covers : Covers source (out ++ callsExpr iterated)) :
    Covers source (out ++ callsExpr (reversed reverse overString iterated)) := by
  unfold reversed
  split
  · split <;> simpa using covers.callAmong (isFunctionCall_callOf _ [iterated] _)
  · exact covers

theorem Covers.loopStart {head : ForHead} {key : Option String} {value : String}
    {iterated : Expr} {start : LoopStart} {out : List Expr}
    (covers : Covers source (out ++ callsExpr iterated))
    (starts : (Lowering.loopStart head key value iterated pos).Runs scope first start next) :
    Covers source (out ++ (callsBlock first ++ callsExpr start.iterated)) ∧
      callsBlock start.opening = [] := by
  obtain ⟨-, ⟨stored, size, index, rfl, rfl⟩ | ⟨rfl, rfl⟩⟩ := loopStart_ensures _ _ starts
  · have turned : Covers source (out ++ callsExpr (reversed head.reverse true iterated) ++ []) := by
      simpa using covers_reversed covers
    exact ⟨by simpa using turned.callAmong (isFunctionCall_callOf _ _ _), by simp⟩
  · exact ⟨by simpa using covers_reversed covers, rfl⟩

theorem Covers.split {classes : List Expr} {binding : Expr} {body : List Statement}
    (covers : Covers source (callsBlock body)) (some : classes ≠ []) :
    Covers source (callsCatches (splitCatch classes binding body pos)) := by
  refine covers.widen ?_ fun call inside => .inl ((mem_callsCatches_splitCatch some call).mp inside)
  obtain ⟨name, rest, rfl⟩ := List.exists_cons_of_ne_nil some
  exact (List.sublist_append_left _ _).subperm

end Calls

mutual

theorem LowersExpr.covers {e e' : Expr} {scope next : Scope} {before : List Statement} :
    LowersExpr e scope before e' next →
      Covers (exprSites e scope) (callsBlock before ++ callsExpr e')
  | .null | .literal _ | .istring | .emptyArray | .var | .newArray | .newString => .nil
  | .staticAccess static => by rcases static with rfl | rfl <;> exact .nil
  | .array lowered => lowered.covers
  | .property lowered => lowered.covers
  | .access computed object member => by
      rcases computed with rfl | rfl <;> exact object.covers.beside object.runs member.covers
  | .stringProperty object member _ => by
      exact (object.covers.beside object.runs member.covers).recount fun call => by simp; omega
  | .call lowered => lowered.covers.callAmong (isFunctionCall_plain _ _ _ _)
  | .methodCall receiver arguments object =>
      (receiver.covers.beside receiver.runs arguments.covers).call
        (becomes_methodCall receiver arguments object) (isTranslated_methodCall object)
  | .pseudoCall receiver arguments primitive translated => by
      have covers := receiver.covers.beside receiver.runs arguments.covers
      obtain ⟨entry, -, -, rfl⟩ := pseudoCall_ok_iff.mp translated
      refine (covers.perm ?_).call (becomes_pseudoCall receiver arguments primitive translated)
        (isFunctionCall_callOf _ _ _).isTranslated
      exact (entry.placement.callsExprs_arguments_perm _ _ _).append_left _
  | .staticCall lowered => lowered.covers
  | .new lowered => lowered.covers
  | .likely hint lowered => lowered.covers
  | .empty lowered => by
      simpa using lowered.covers.callAmong (isFunctionCall_callOf _ _ _)
  | .ungroup lowered _ => lowered.covers
  | .group lowered _ => lowered.covers
  | .unary _ _ lowered => lowered.covers
  | .binary left right => left.covers.beside left.runs right.covers
  | .instanceOf lowered => lowered.covers
  | .range low high => by
      simpa using (low.covers.beside low.runs high.covers).callAmong (isFunctionCall_callOf _ _ _)
  | .ternary condition yes no => by
      have covers := (condition.covers.both yes.covers).both no.covers
      simpa [condition.runs.scopeAfter, yes.runs.scopeAfter] using covers
  | .cast lowered _ => lowered.covers
  | .castHint lowered _ => by simpa using lowered.covers
  | .typeHint lowered _ => by simpa using lowered.covers
  | .strayHint lowered _ => lowered.covers
  | .fetch _ lowered => by simpa using lowered.covers.fetched _
  | .notFetch _ lowered => by simpa using lowered.covers.fetched _
  | .closure lowered => lowered.covers
  | .closureArrow named lowered => by
      simpa [arrowScope, named] using lowered.covers

theorem LowersExprs.covers {es es' : List Expr} {scope next : Scope} {before : List Statement} :
    LowersExprs es scope before es' next →
      Covers (exprsSites es scope) (callsBlock before ++ callsExprs es')
  | .nil => .nil
  | .cons lowered rest => lowered.covers.beside lowered.runs rest.covers

theorem LowersOption.covers {e e' : Option Expr} {scope next : Scope} {before : List Statement} :
    LowersOption e scope before e' next →
      Covers (optionSites e scope) (callsBlock before ++ callsOption e')
  | .none => .nil
  | .some lowered => lowered.covers

theorem LowersEntries.covers {entries entries' : List ArrayEntry} {scope next : Scope}
    {before : List Statement} : LowersEntries entries scope before entries' next →
    Covers (entrySites entries scope) (callsBlock before ++ callsEntries entries')
  | .nil => .nil
  | .cons key value rest => by
      have covers := (key.covers.both value.covers).both rest.covers
      simpa [key.runs.scopeAfter, value.runs.scopeAfter] using covers

theorem LowersBlock.covers {body body' : List Statement} {scope next : Scope} :
    LowersBlock body scope body' next → Covers (blockSites body scope) (callsBlock body')
  | .nil => .nil
  | .cons lowered rest => by
      obtain ⟨_, _, ran, -⟩ := lowered.runs
      simpa [ran.scopeAfter] using lowered.covers.append rest.covers

theorem LowersStatement.covers {s : Statement} {stretch : List Statement} {scope next : Scope} :
    LowersStatement s scope stretch next → Covers (statementSites s scope) (callsBlock stretch)
  | @LowersStatement.mk _ kind' _ _ _ _ _ lowered => by
      have covers := lowered.covers
      rw [callsBlock_headDocs]
      cases kind' <;> simpa using covers

theorem LowersKind.covers {pos : Position} {kind : StatementKind} {kind' : Option StatementKind}
    {scope next : Scope} {before : List Statement} :
    LowersKind pos kind scope before kind' next →
      Covers (kindSites pos kind scope) (callsBlock before ++ kind'.elim [] callsKind)
  | .lets lowered => by simpa using lowered.covers
  | .declare lowered => by simpa using lowered.covers
  | .fetch _ lowered => by simpa using lowered.covers.fetched _
  | .assign (.mk value index) => value.covers.beside value.runs index.covers
  | .echo lowered => lowered.covers
  | .effect lowered _ => lowered.covers
  | .effectCall lowered _ => lowered.covers
  | .ret lowered => lowered.covers
  | .jump | .empty | .comment | .cblock => .nil
  | .branch condition body elseIfs otherwise => by
      have covers := ((condition.covers.append body.covers).append elseIfs.covers).append
        otherwise.covers
      rw [← elseIfs.runs.scopeAfter, ← body.runs.scopeAfter, ← condition.runs.scopeAfter] at covers
      exact covers.recount fun call => by simp; omega
  | .whileLoop condition body => by
      simpa [condition.runs.scopeAfter] using condition.covers.append body.covers
  | .loop body => body.covers
  | .forLoop names iterated starts body => by
      obtain ⟨opening, silent⟩ := iterated.covers.loopStart starts
      have covers := opening.append body.covers
      rw [← (loopOpening_runs names iterated.runs starts).scopeAfter] at covers
      simpa [names.scopeAfter, silent] using covers
  | .switch subject clauses => subject.covers.beside subject.runs clauses.covers
  | .tryAlone body fresh => by
      simpa [splitCatch] using body.covers
  | .tryCatch body catches => by
      simpa [body.runs.scopeAfter] using body.covers.append catches.covers

theorem LowersLets.covers {assignments : List LetAssignment} {scope next : Scope}
    {before : List Statement} :
    LowersLets assignments scope before next →
      Covers (letSites assignments scope) (callsBlock before)
  | .nil => .nil
  | .cons resolved value index rest => by
      have covers := (value.covers.both index.covers).append rest.covers
      obtain ⟨-, outcome⟩ := resolveTarget_ensures _ _ resolved
      rw [← index.runs.scopeAfter, ← value.runs.scopeAfter, ← resolved.scopeAfter] at covers
      rcases outcome with ⟨rfl, -⟩ | ⟨_, _, rfl, -⟩
      all_goals simpa using covers

theorem LowersInitial.covers {declared : List DeclaredVariable} {scope next : Scope}
    {before : List Statement} : LowersInitial declared scope before next →
    Covers (declaredSites declared scope) (callsBlock before)
  | .nil => .nil
  | .unset rest => by
      simpa [LowersOption.none.runs.scopeAfter] using rest.covers
  | .set value rest => by
      have covers := value.covers.append rest.covers
      simpa [(LowersOption.some value).runs.scopeAfter] using covers

theorem LowersElseIfs.covers {elseIfs elseIfs' : List ElseIf} {scope next : Scope}
    {before : List Statement} : LowersElseIfs elseIfs scope before elseIfs' next →
    Covers (elseIfSites elseIfs scope) (callsBlock before ++ callsElseIfs elseIfs')
  | .nil => .nil
  | .cons condition body rest => by
      have covers := (condition.covers.append body.covers).append rest.covers
      rw [← body.runs.scopeAfter, ← condition.runs.scopeAfter] at covers
      exact covers.recount fun call => by simp; omega

theorem LowersOtherwise.covers {otherwise otherwise' : Option (List Statement)}
    {scope next : Scope} : LowersOtherwise otherwise scope otherwise' next →
    Covers (otherwiseSites otherwise scope) (callsOtherwise otherwise')
  | .none => .nil
  | .some body => body.covers

theorem LowersClauses.covers {clauses clauses' : List SwitchClause} {scope next : Scope}
    {before : List Statement} : LowersClauses clauses scope before clauses' next →
    Covers (clauseSites clauses scope) (callsBlock before ++ callsClauses clauses')
  | .nil => .nil
  | .cons test body rest => by
      have covers := (test.covers.append body.covers).append rest.covers
      rw [← body.runs.scopeAfter, ← test.runs.scopeAfter] at covers
      exact covers.recount fun call => by simp; omega

theorem LowersCatches.covers {catches catches' : List Catch} {scope next : Scope} :
    LowersCatches catches scope catches' next →
      Covers (catchSites catches scope) (callsCatches catches')
  | .nil => .nil
  | .cons body binding rest => by
      have covers := rest.covers
      rw [← binding.scopeAfter, ← body.runs.scopeAfter] at covers
      rw [callsCatches_append]
      refine (body.covers.split ?_).append covers
      split <;> simp_all

end

/-! ## Bodies -/

/-- How a method call on a primitive value ends once its receiver and its arguments are lowered. If
it succeeds, it has become the call of the table's function, behind what was hoisted. -/
structure EndsByTable (owner : PrimitiveType) (name : String) (pos : Position)
    (hoisted : List Statement) (receiver : Expr) (arguments : List Expr) (next : Scope)
    (ended : Except Diagnostic (Splice Expr × Scope)) : Prop where
  unknown : (∃ d, ended = .error d ∧ d.code = some .e300) ↔ owner.method? name = none
  rejected : (∃ d, ended = .error d ∧ d.code = some .e301) ↔
    ∃ entry, owner.method? name = some entry ∧ entry.arity.accepts arguments.length = false
  succeeds : ∀ result, ended = .ok result ↔
    ∃ entry, owner.method? name = some entry ∧ entry.arity.accepts arguments.length = true ∧
      result = (⟨hoisted, .callOf entry.function (entry.placement.around receiver arguments pos)
        pos, []⟩, next)

theorem methodCall_endsByTable {receiver receiver' : Expr} {name : String} {callType : UInt8}
    {arguments arguments' : List Expr} {pos : Position} {dataType : Option String} {doCast : Bool}
    {scope mid next : Scope} {first second : List Statement} {owner : PrimitiveType}
    (ranReceiver : (lowerExpr receiver).Runs scope first receiver' mid)
    (ranArguments : (lowerExprs arguments).Runs mid second arguments' next)
    (owned : scope.owner receiver = some owner) :
    EndsByTable owner name pos (first ++ second) receiver' arguments' next
      (lowerExpr ⟨.methodCall receiver name callType arguments, pos, dataType, doCast⟩ scope) := by
  have primitive : primitiveOwner? receiver' = some owner := by
    rw [(lowerExpr_derives scope receiver _ _ ranReceiver).2.primitiveOwner_eq, owned]
  unfold Runs at ranReceiver ranArguments
  rw [lowerExpr]
  simp only [Bind.bind, ranReceiver, ranArguments, primitive, pseudoCall]
  cases found : owner.method? name with
  | none => constructor <;> simp [found, Lowering.ofExcept, fail, Cause.at, Cause.code]
  | some entry =>
      cases accepts : entry.arity.accepts arguments'.length with
      | false =>
          constructor <;> simp [found, accepts, Lowering.ofExcept, fail, Cause.at, Cause.code]
      | true =>
          refine ⟨?_, ?_, fun result => ?_⟩
          · simp [Lowering.ofExcept, pure, found, accepts]
          · simp [Lowering.ofExcept, pure, found, accepts]
          · rw [eq_comm]
            simp [Lowering.ofExcept, pure, found, accepts, entry.placement.arguments_eq_around]

/-- No method call on a primitive value is left in a lowered body, at any depth that lowering goes
to, and each method call of the source has become one call, in the scope where lowering comes to it.
A method call on a primitive value fails if the table lacks the method or if the method does not
take so many arguments, and becomes the call of the function otherwise. -/
theorem no_pseudoCall_survives :
    (∀ locals parameters body lowered after,
      lowerBody locals parameters body = .ok (lowered, after) →
        Covers (blockSites body { locals, parameters }) (callsBlock lowered) ∧
        (blockSites body { locals, parameters }).map CallSite.call =
          (callsBlock body).filter Expr.isMethodCall) ∧
    ∀ {receiver name callType arguments pos dataType doCast scope first receiver' mid second
      arguments' next owner}, (lowerExpr receiver).Runs scope first receiver' mid →
      (lowerExprs arguments).Runs mid second arguments' next →
      scope.owner receiver = some owner →
      arguments'.length = arguments.length ∧
      EndsByTable owner name pos (first ++ second) receiver' arguments' next
        (lowerExpr ⟨.methodCall receiver name callType arguments, pos, dataType, doCast⟩
          scope) := by
  refine ⟨?_, ?_⟩
  · intro locals parameters body lowered after ran
    refine ⟨?_, map_call_blockSites body _⟩
    unfold lowerBody at ran
    cases ranBlock : lowerBlock body { locals, parameters } with
    | error d => simp [ranBlock] at ran
    | ok result =>
        obtain ⟨splice, next⟩ := result
        simp only [ranBlock] at ran
        cases ran
        obtain ⟨-, -, derived⟩ := lowerBlock_derives _ body splice next ranBlock
        exact derived.covers
  · intro receiver name callType arguments pos dataType doCast scope first receiver' mid second
      arguments' next owner ranReceiver ranArguments owned
    exact ⟨(lowerExprs_derives mid arguments _ _ ranArguments).2.length_eq,
      methodCall_endsByTable ranReceiver ranArguments owned⟩

/-- A function over a string `s` and a variable `list`: a call with the string behind a hint and
parentheses, one with a literal as its receiver and a call in its arguments, one of an object in a
closure that takes a call as its argument, and one of an array at the end of its arguments. -/
def pseudoCallSample : List Statement :=
  let pos : Position := { file := "sample.zep", line := 3, column := 9 }
  let call (receiver : Expr) (name : String) (arguments : List Expr) : Expr :=
    .plain (.methodCall receiver name 1 arguments) pos
  let s : Expr := .plain (.unary .group (.plain (.unary .likely (.var "s" pos)) pos)) pos
  let list : Expr := .plain (.typeHint (.var "array" pos) (.var "list" pos)) pos
  [ { kind := .echo [call s "upper" [], call (.str "a,b" pos) "index" [call s "lower" []]], pos },
    { kind := .ret (some (.plain (.closure []
        [{ kind := .ret (some (call (.var "this" pos) "add" [call list "join" [.str "," pos]])),
           pos }] .empty) pos)), pos } ]

def Expr.calledName (call : Expr) : String :=
  match call.kind with
  | .call name _ _ => name
  | .methodCall _ name _ _ => name
  | _ => ""

theorem pseudoCallSample_translated :
    let s : Parameter := { name := "s", dataType := "string", pos := {} }
    let start : Scope := { locals := .empty, parameters := [s] }
    let text : Expr := .str "abc" {}
    (∃ lowered after, lowerBody .empty [s] pseudoCallSample = .ok (lowered, after) ∧
      (callsBlock lowered).map Expr.calledName =
        ["strtoupper", "strpos", "strtolower", "add", "implode"] ∧
      (blockSites pseudoCallSample start).map (fun site => site.scope.owner site.receiver) =
        [some .string, some .string, some .string, none, some .array] ∧
      Covers (blockSites pseudoCallSample start) (callsBlock lowered)) ∧
    ∀ method ∈ ["reverse", "index", "length"], EndsByTable .string method {} [] text [] start
      (lowerExpr (.plain (.methodCall text method 1 []) {}) start) := by
  intro s start text
  constructor
  · refine ⟨_, _, rfl, by decide +kernel, by decide +kernel, ?_⟩
    exact (no_pseudoCall_survives.1 .empty [s] pseudoCallSample _ _ rfl).1
  · have receiver : (lowerExpr text).Runs start [] text start := rfl
    have nothing : (lowerExprs []).Runs start [] [] start := rfl
    intro method _
    exact (no_pseudoCall_survives.2 receiver nothing rfl).2

end Zephir
