import Zephir.Proofs.Lowering.Scopes

/-!
The calls that lowering comes across, in closures as well, and the scope in which it comes to each
method call of the source.
-/

namespace Zephir

open Lowering

mutual

/-- The calls that lowering comes across in an expression, each as a plain expression at its
place. -/
@[simp] def callsExpr : Expr → List Expr
  | ⟨kind, pos, _, _⟩ => callsPart pos kind

@[simp] def callsPart (pos : Position) : ExprKind → List Expr
  | .array entries => callsEntries entries
  | .access .property object _ => callsExpr object
  | .access .staticProperty _ _ => []
  | .access .classConstant _ _ => []
  | .access _ object member => callsExpr object ++ callsExpr member
  | .call name callType arguments =>
    .plain (.call name callType arguments) pos :: callsExprs arguments
  | .methodCall receiver name callType arguments =>
    .plain (.methodCall receiver name callType arguments) pos ::
      (callsExpr receiver ++ callsExprs arguments)
  | .staticCall _ arguments => callsExprs arguments
  | .new _ _ arguments => callsExprs arguments
  | .unary _ operand => callsExpr operand
  | .binary _ left right => callsExpr left ++ callsExpr right
  | .instanceOf value _ => callsExpr value
  | .range _ low high => callsExpr low ++ callsExpr high
  | .ternary condition yes no => callsExpr condition ++ callsExpr yes ++ callsExpr no
  | .cast _ operand => callsExpr operand
  | .typeHint _ operand => callsExpr operand
  | .fetch _ source => callsExpr source
  | .closure _ body _ => callsBlock body
  | .closureArrow _ body => callsExpr body
  | _ => []

@[simp] def callsExprs : List Expr → List Expr
  | [] => []
  | e :: rest => callsExpr e ++ callsExprs rest

@[simp] def callsOption : Option Expr → List Expr
  | none => []
  | some e => callsExpr e

@[simp] def callsEntries : List ArrayEntry → List Expr
  | [] => []
  | ⟨key, value⟩ :: rest => callsOption key ++ callsExpr value ++ callsEntries rest

@[simp] def callsBlock : List Statement → List Expr
  | [] => []
  | s :: rest => callsStatement s ++ callsBlock rest

@[simp] def callsStatement : Statement → List Expr
  | ⟨kind, _, _⟩ => callsKind kind

@[simp] def callsKind : StatementKind → List Expr
  | .lets assignments => callsLets assignments
  | .declare _ declared => callsDeclared declared
  | .fetch e => callsExpr e
  | .assign _ ⟨_, _, _, _, index, value⟩ => callsOption value ++ callsExprs index
  | .echo expressions => callsExprs expressions
  | .effect _ e => callsExpr e
  | .ret value => callsOption value
  | .branch condition body elseIfs otherwise =>
    callsExpr condition ++ callsBlock body ++ callsElseIfs elseIfs ++ callsOtherwise otherwise
  | .whileLoop _ condition body => callsExpr condition ++ callsBlock body
  | .loop body => callsBlock body
  | .forLoop _ iterated body => callsExpr iterated ++ callsBlock body
  | .switch subject clauses => callsExpr subject ++ callsClauses clauses
  | .tryCatch body catches => callsBlock body ++ callsCatches catches
  | _ => []

@[simp] def callsLets : List LetAssignment → List Expr
  | [] => []
  | ⟨⟨_, _, _, _, index, value⟩, _⟩ :: rest =>
    callsOption value ++ callsExprs index ++ callsLets rest

@[simp] def callsDeclared : List DeclaredVariable → List Expr
  | [] => []
  | ⟨_, value, _⟩ :: rest => callsOption value ++ callsDeclared rest

@[simp] def callsElseIfs : List ElseIf → List Expr
  | [] => []
  | ⟨condition, body, _⟩ :: rest => callsExpr condition ++ callsBlock body ++ callsElseIfs rest

@[simp] def callsOtherwise : Option (List Statement) → List Expr
  | none => []
  | some body => callsBlock body

@[simp] def callsClauses : List SwitchClause → List Expr
  | [] => []
  | ⟨test, body⟩ :: rest => callsOption test ++ callsBlock body ++ callsClauses rest

@[simp] def callsCatches : List Catch → List Expr
  | [] => []
  | ⟨_, _, body, _⟩ :: rest => callsBlock body ++ callsCatches rest

end

/-! ### Calls of methods -/

/-- A method call of the source and the scope in which lowering comes to it. -/
structure CallSite where
  scope : Scope
  receiver : Expr
  name : String
  callType : UInt8
  arguments : List Expr
  pos : Position

def CallSite.call (site : CallSite) : Expr :=
  .plain (.methodCall site.receiver site.name site.callType site.arguments) site.pos

mutual

@[simp] def exprSites : Expr → Scope → List CallSite
  | ⟨kind, pos, _, _⟩, scope => partSites pos kind scope

@[simp] def partSites (pos : Position) : ExprKind → Scope → List CallSite
  | .array entries, scope => entrySites entries scope
  | .access .property object _, scope => exprSites object scope
  | .access .staticProperty _ _, _ => []
  | .access .classConstant _ _, _ => []
  | .access _ object member, scope =>
    exprSites object scope ++ exprSites member ((lowerExpr object).scopeAfter scope)
  | .call _ _ arguments, scope => exprsSites arguments scope
  | .methodCall receiver name callType arguments, scope =>
    ⟨scope, receiver, name, callType, arguments, pos⟩ ::
      (exprSites receiver scope ++ exprsSites arguments ((lowerExpr receiver).scopeAfter scope))
  | .staticCall _ arguments, scope => exprsSites arguments scope
  | .new _ _ arguments, scope => exprsSites arguments scope
  | .unary _ operand, scope => exprSites operand scope
  | .binary _ left right, scope =>
    exprSites left scope ++ exprSites right ((lowerExpr left).scopeAfter scope)
  | .instanceOf value _, scope => exprSites value scope
  | .range _ low high, scope =>
    exprSites low scope ++ exprSites high ((lowerExpr low).scopeAfter scope)
  | .ternary condition yes no, scope =>
    let mid := (lowerExpr condition).scopeAfter scope
    exprSites condition scope ++ exprSites yes mid ++
      exprSites no ((lowerExpr yes).scopeAfter mid)
  | .cast _ operand, scope => exprSites operand scope
  | .typeHint _ operand, scope => exprSites operand scope
  | .fetch _ source, scope => exprSites source scope
  | .closure parameters body locals, _ => blockSites body { locals, parameters }
  | .closureArrow parameter body, _ => exprSites body (arrowScope parameter)
  | _, _ => []

@[simp] def exprsSites : List Expr → Scope → List CallSite
  | [], _ => []
  | e :: rest, scope => exprSites e scope ++ exprsSites rest ((lowerExpr e).scopeAfter scope)

@[simp] def optionSites : Option Expr → Scope → List CallSite
  | none, _ => []
  | some e, scope => exprSites e scope

@[simp] def entrySites : List ArrayEntry → Scope → List CallSite
  | [], _ => []
  | ⟨key, value⟩ :: rest, scope =>
    let mid := (lowerOption key).scopeAfter scope
    optionSites key scope ++ exprSites value mid ++
      entrySites rest ((lowerExpr value).scopeAfter mid)

@[simp] def blockSites : List Statement → Scope → List CallSite
  | [], _ => []
  | s :: rest, scope =>
    statementSites s scope ++ blockSites rest ((lowerStatement s).scopeAfter scope)

@[simp] def statementSites : Statement → Scope → List CallSite
  | ⟨kind, pos, _⟩, scope => kindSites pos kind scope

@[simp] def kindSites (pos : Position) : StatementKind → Scope → List CallSite
  | .lets assignments, scope => letSites assignments scope
  | .declare dataType declared, scope => declaredSites declared
      { scope with locals := scope.locals.insertAll (declaredLocals dataType declared) }
  | .fetch e, scope => exprSites e scope
  | .assign _ ⟨_, _, _, _, index, value⟩, scope =>
    optionSites value scope ++ exprsSites index ((lowerOption value).scopeAfter scope)
  | .echo expressions, scope => exprsSites expressions scope
  | .effect _ e, scope => exprSites e scope
  | .ret value, scope => optionSites value scope
  | .branch condition body elseIfs otherwise, scope =>
    let mid := (lowerExpr condition).scopeAfter scope
    let last := (lowerBlock body).scopeAfter mid
    exprSites condition scope ++ blockSites body mid ++ elseIfSites elseIfs last ++
      otherwiseSites otherwise ((lowerElseIfs elseIfs).scopeAfter last)
  | .whileLoop _ condition body, scope =>
    exprSites condition scope ++ blockSites body ((lowerExpr condition).scopeAfter scope)
  | .loop body, scope => blockSites body scope
  | .forLoop head iterated body, scope =>
    exprSites iterated ((loopNames head pos).scopeAfter scope) ++
      blockSites body ((loopOpening head iterated pos).scopeAfter scope)
  | .switch subject clauses, scope =>
    exprSites subject scope ++ clauseSites clauses ((lowerExpr subject).scopeAfter scope)
  | .tryCatch body catches, scope =>
    blockSites body scope ++ catchSites catches ((lowerBlock body).scopeAfter scope)
  | _, _ => []

@[simp] def letSites : List LetAssignment → Scope → List CallSite
  | [], _ => []
  | ⟨⟨target, operator, base, property, index, value⟩, pos⟩ :: rest, scope =>
    let named :=
      (resolveTarget ⟨target, operator, base, property, [], none⟩ pos).scopeAfter scope
    let mid := (lowerOption value).scopeAfter named
    optionSites value named ++ exprsSites index mid ++
      letSites rest ((lowerExprs index).scopeAfter mid)

@[simp] def declaredSites : List DeclaredVariable → Scope → List CallSite
  | [], _ => []
  | ⟨_, value, _⟩ :: rest, scope =>
    optionSites value scope ++ declaredSites rest ((lowerOption value).scopeAfter scope)

@[simp] def elseIfSites : List ElseIf → Scope → List CallSite
  | [], _ => []
  | ⟨condition, body, _⟩ :: rest, scope =>
    let mid := (lowerExpr condition).scopeAfter scope
    exprSites condition scope ++ blockSites body mid ++
      elseIfSites rest ((lowerBlock body).scopeAfter mid)

@[simp] def otherwiseSites : Option (List Statement) → Scope → List CallSite
  | none, _ => []
  | some body, scope => blockSites body scope

@[simp] def clauseSites : List SwitchClause → Scope → List CallSite
  | [], _ => []
  | ⟨test, body⟩ :: rest, scope =>
    let mid := (lowerOption test).scopeAfter scope
    optionSites test scope ++ blockSites body mid ++
      clauseSites rest ((lowerBlock body).scopeAfter mid)

@[simp] def catchSites : List Catch → Scope → List CallSite
  | [], _ => []
  | ⟨_, binding, body, pos⟩ :: rest, scope =>
    let mid := (lowerBlock body).scopeAfter scope
    blockSites body scope ++ catchSites rest ((catchBinding binding pos).scopeAfter mid)

end

@[simp] def Expr.isMethodCall : Expr → Bool
  | ⟨.methodCall .., _, _, _⟩ => true
  | _ => false

mutual

/-- Whatever the scope, the walk comes to each method call once, in order. -/
theorem map_call_exprSites : (e : Expr) → (scope : Scope) →
    (exprSites e scope).map CallSite.call = (callsExpr e).filter Expr.isMethodCall
  | ⟨kind, pos, _, _⟩, scope => map_call_partSites pos kind scope

theorem map_call_partSites (pos : Position) : (kind : ExprKind) → (scope : Scope) →
    (partSites pos kind scope).map CallSite.call =
      (callsPart pos kind).filter Expr.isMethodCall
  | .array entries, scope => map_call_entrySites entries scope
  | .access kind object member, scope => by
      cases kind <;> simp [map_call_exprSites object, map_call_exprSites member]
  | .call name callType arguments, scope => by simp [Expr.plain, map_call_exprsSites arguments]
  | .methodCall receiver name callType arguments, scope => by
      simp [CallSite.call, Expr.plain, List.filter_cons, map_call_exprSites receiver,
        map_call_exprsSites arguments]
  | .staticCall _ arguments, scope => map_call_exprsSites arguments scope
  | .new _ _ arguments, scope => map_call_exprsSites arguments scope
  | .unary _ operand, scope => map_call_exprSites operand scope
  | .binary _ left right, scope => by
      simp [map_call_exprSites left, map_call_exprSites right]
  | .instanceOf value _, scope => map_call_exprSites value scope
  | .range _ low high, scope => by simp [map_call_exprSites low, map_call_exprSites high]
  | .ternary condition yes no, scope => by
      simp [map_call_exprSites condition, map_call_exprSites yes, map_call_exprSites no]
  | .cast _ operand, scope => map_call_exprSites operand scope
  | .typeHint _ operand, scope => map_call_exprSites operand scope
  | .fetch _ source, scope => map_call_exprSites source scope
  | .closure _ body _, _ => map_call_blockSites body _
  | .closureArrow _ body, _ => map_call_exprSites body _
  | .null, _ => rfl
  | .literal _ _, _ => rfl
  | .emptyArray, _ => rfl
  | .var _, _ => rfl
  | .newType _ _, _ => rfl

theorem map_call_exprsSites : (es : List Expr) → (scope : Scope) →
    (exprsSites es scope).map CallSite.call = (callsExprs es).filter Expr.isMethodCall
  | [], _ => rfl
  | e :: rest, scope => by simp [map_call_exprSites e, map_call_exprsSites rest]

theorem map_call_optionSites : (e : Option Expr) → (scope : Scope) →
    (optionSites e scope).map CallSite.call = (callsOption e).filter Expr.isMethodCall
  | none, _ => rfl
  | some e, scope => map_call_exprSites e scope

theorem map_call_entrySites : (entries : List ArrayEntry) → (scope : Scope) →
    (entrySites entries scope).map CallSite.call =
      (callsEntries entries).filter Expr.isMethodCall
  | [], _ => rfl
  | ⟨key, value⟩ :: rest, scope => by
      simp [map_call_optionSites key, map_call_exprSites value, map_call_entrySites rest]

theorem map_call_blockSites : (body : List Statement) → (scope : Scope) →
    (blockSites body scope).map CallSite.call = (callsBlock body).filter Expr.isMethodCall
  | [], _ => rfl
  | s :: rest, scope => by simp [map_call_statementSites s, map_call_blockSites rest]

theorem map_call_statementSites : (s : Statement) → (scope : Scope) →
    (statementSites s scope).map CallSite.call = (callsStatement s).filter Expr.isMethodCall
  | ⟨kind, pos, _⟩, scope => map_call_kindSites pos kind scope

theorem map_call_kindSites (pos : Position) : (kind : StatementKind) → (scope : Scope) →
    (kindSites pos kind scope).map CallSite.call = (callsKind kind).filter Expr.isMethodCall
  | .lets assignments, scope => map_call_letSites assignments scope
  | .declare _ declared, _ => map_call_declaredSites declared _
  | .fetch e, scope => map_call_exprSites e scope
  | .assign _ ⟨_, _, _, _, index, value⟩, scope => by
      simp [map_call_optionSites value, map_call_exprsSites index]
  | .echo expressions, scope => map_call_exprsSites expressions scope
  | .effect _ e, scope => map_call_exprSites e scope
  | .ret value, scope => map_call_optionSites value scope
  | .branch condition body elseIfs otherwise, scope => by
      simp [map_call_exprSites condition, map_call_blockSites body, map_call_elseIfSites elseIfs,
        map_call_otherwiseSites otherwise]
  | .whileLoop _ condition body, scope => by
      simp [map_call_exprSites condition, map_call_blockSites body]
  | .loop body, scope => map_call_blockSites body scope
  | .forLoop _ iterated body, scope => by
      simp [map_call_exprSites iterated, map_call_blockSites body]
  | .switch subject clauses, scope => by
      simp [map_call_exprSites subject, map_call_clauseSites clauses]
  | .tryCatch body catches, scope => by
      simp [map_call_blockSites body, map_call_catchSites catches]
  | .jump _, _ => rfl
  | .empty, _ => rfl
  | .comment _, _ => rfl
  | .cblock _, _ => rfl

theorem map_call_letSites : (assignments : List LetAssignment) → (scope : Scope) →
    (letSites assignments scope).map CallSite.call =
      (callsLets assignments).filter Expr.isMethodCall
  | [], _ => rfl
  | ⟨⟨_, _, _, _, index, value⟩, _⟩ :: rest, scope => by
      simp [map_call_optionSites value, map_call_exprsSites index, map_call_letSites rest]

theorem map_call_declaredSites : (declared : List DeclaredVariable) → (scope : Scope) →
    (declaredSites declared scope).map CallSite.call =
      (callsDeclared declared).filter Expr.isMethodCall
  | [], _ => rfl
  | ⟨_, value, _⟩ :: rest, scope => by
      simp [map_call_optionSites value, map_call_declaredSites rest]

theorem map_call_elseIfSites : (elseIfs : List ElseIf) → (scope : Scope) →
    (elseIfSites elseIfs scope).map CallSite.call =
      (callsElseIfs elseIfs).filter Expr.isMethodCall
  | [], _ => rfl
  | ⟨condition, body, _⟩ :: rest, scope => by
      simp [map_call_exprSites condition, map_call_blockSites body, map_call_elseIfSites rest]

theorem map_call_otherwiseSites : (otherwise : Option (List Statement)) → (scope : Scope) →
    (otherwiseSites otherwise scope).map CallSite.call =
      (callsOtherwise otherwise).filter Expr.isMethodCall
  | none, _ => rfl
  | some body, scope => map_call_blockSites body scope

theorem map_call_clauseSites : (clauses : List SwitchClause) → (scope : Scope) →
    (clauseSites clauses scope).map CallSite.call =
      (callsClauses clauses).filter Expr.isMethodCall
  | [], _ => rfl
  | ⟨test, body⟩ :: rest, scope => by
      simp [map_call_optionSites test, map_call_blockSites body, map_call_clauseSites rest]

theorem map_call_catchSites : (catches : List Catch) → (scope : Scope) →
    (catchSites catches scope).map CallSite.call =
      (callsCatches catches).filter Expr.isMethodCall
  | [], _ => rfl
  | ⟨_, _, body, _⟩ :: rest, scope => by
      simp [map_call_blockSites body, map_call_catchSites rest]

end

end Zephir
