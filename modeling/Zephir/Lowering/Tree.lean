import Zephir.Compaction
import Zephir.Lowering.Splice
import Zephir.PseudoMethod
import Zephir.Syntax.Form

/-!
Lowering bodies to the statements and expressions that PHP has. Work that PHP cannot do inside an
expression (storing a fetched value, naming a dynamic member) is hoisted in front of the statement
that contains the expression. Closures have a scope and a body of their own.
-/

namespace Zephir

def primitiveOwner? (receiver : Expr) : Option PrimitiveType :=
  match receiver.kind with
  | .literal .string _ => some .string
  | .literal .istring _ => some .string
  | .literal .char _ => some .char
  | .literal .int _ => some .int
  | .literal .double _ => some .double
  | .array _ => some .array
  | .emptyArray => some .array
  | .var _ => receiver.dataType.bind PrimitiveType.ofName?
  | _ => none

def Placement.arguments (placement : Placement) (receiver : Expr) (arguments : List Expr)
    (pos : Position) : List Expr :=
  match placement with
  | .first => receiver :: arguments
  | .last => arguments ++ [receiver]
  | .second =>
    match arguments with
    | [] => [receiver]
    | lead :: rest => lead :: receiver :: rest
  | .afterLiteral text => .str text pos :: receiver :: arguments

def pseudoCall (owner : PrimitiveType) (method : String) (receiver : Expr)
    (arguments : List Expr) (pos : Position) : Except Diagnostic Expr :=
  match owner.method? method with
  | none => .error ((Cause.invalidPseudoCall method owner).at pos)
  | some entry =>
    if entry.arity.accepts arguments.length then
      .ok (.callOf entry.function (entry.placement.arguments receiver arguments pos) pos)
    else
      .error ((Cause.invalidPseudoCallArity entry.function entry.arity arguments.length).at pos)

def ExprKind.isPrimary : ExprKind → Bool
  | .null => true
  | .literal kind _ => kind != .istring
  | .emptyArray => true
  | .array _ => true
  | .var _ => true
  | .access .element _ _ => true
  | .access .property _ _ => true
  | .access .staticProperty _ _ => true
  | .access .classConstant _ _ => true
  | .call .. => true
  | .methodCall .. => true
  | .staticCall .. => true
  | .unary .group _ => true
  | _ => false

def arrowBody (body : Splice Expr) (pos : Position) : Except Diagnostic (List Statement) :=
  if body.after.isEmpty then
    .ok (body.before ++ [{ kind := .ret (some body.node), pos := body.node.pos }])
  else .error (Cause.closureSideEffect.at pos)

/-- The value that a fetch stores: the source if it is set, and null otherwise. -/
def fetchedValue (source : Expr) (pos : Position) : Expr :=
  let isset := (Expr.plain (.unary .isset source) source.pos).withType "bool"
  .plain (.ternary isset source (.nullAt pos)) pos

def baseException (pos : Position) : Expr :=
  .var "\\Exception" pos

/-- One clause per class, each with the same variable and body. -/
def splitCatch (classes : List Expr) (binding : Expr) (body : List Statement) (pos : Position) :
    List Catch :=
  classes.map fun name => { classes := [name], binding := some binding, body, pos }

def AssignTarget.step : AssignTarget → AssignMode × AssignTarget
  | .incr => (.increment, .variable)
  | .decr => (.decrement, .variable)
  | .objectPropertyIncr => (.increment, .objectProperty)
  | .objectPropertyDecr => (.decrement, .objectProperty)
  | target => (.set, target)

namespace Lowering

def ofExcept {α : Type} : Except Diagnostic α → Lowering α
  | .ok a => pure a
  | .error d => fail d

def fetchTarget (target : Expr) (pos : Position) : Lowering String :=
  match target.asVar? with
  | some name => pure name
  | none =>
    fail ((Cause.malformedNode ("`fetch` target must be a variable, found `" ++
      target.kind.tag ++ "`")).at pos)

def storeFetched (name : String) (targetPos : Position) (source : Splice Expr)
    (pos : Position) : Lowering Expr := do
  hoist (source.before ++ [.assignTo name (fetchedValue source.node pos) targetPos] ++
    source.after)
  let dataType ← typeOf? name
  pure { kind := .var name, pos := targetPos, dataType }

def stringTemporary (text : String) (pos : Position) : Lowering String := do
  let name ← temporary "string" pos
  hoist [.assignTo name (.str text pos) pos]
  pure name

/-- The statement and location of a `let` assignment. Names given as strings go through
temporaries. -/
def resolveTarget (assign : Assign) (pos : Position) : Lowering (AssignMode × Assign) :=
  match assign.target with
  | .dynamicVariableString => do
    let base ← stringTemporary assign.base pos
    pure (.set, { assign with base, target := .dynamicVariable })
  | .stringDynamicObjectProperty =>
    match assign.property with
    | none =>
      fail ((Cause.malformedNode "dynamic property assignment without a property name").at pos)
    | some property => do
      let property ← stringTemporary property pos
      pure (.set,
        { assign with property := some property, target := .variableDynamicObjectProperty })
  | target =>
    let (mode, target) := target.step
    pure (mode, { assign with target })

def hoistAssign (mode : AssignMode) (assign : Splice Assign) (pos : Position) : Lowering Unit :=
  hoist (assign.before ++ [{ kind := .assign mode assign.node, pos }] ++ assign.after)

/-- The key and the value of a loop, declared as variables. The name `_` stands for none, and a
loop without a value gets a temporary. -/
def loopNames (head : ForHead) (pos : Position) : Lowering (Option String × String) := do
  let key := head.key.filter (· != "_")
  match key with
  | some key => modifyScope (·.declare key "variable" pos)
  | none => pure ()
  match head.value.filter (· != "_") with
  | some value => do
    modifyScope (·.declare value "variable" pos)
    pure (key, value)
  | none => do
    let value ← temporary "variable" pos
    pure (key, value)

def reversed (reverse overString : Bool) (iterated : Expr) : Expr :=
  if reverse then
    if overString then (Expr.callOf "strrev" [iterated] iterated.pos).withType "string"
    else (Expr.callOf "array_reverse" [iterated] iterated.pos).withType "array"
  else iterated

structure LoopStart where
  head : ForHead
  iterated : Expr
  opening : List Statement

/-- The start of a loop over a string. The string is stored once and measured before the loop,
and the body opens by taking the character at the index. -/
def stringLoop (key : Option String) (value : String) (iterated : Expr) (pos : Position) :
    Lowering LoopStart := do
  let index ←
    match key with
    | some key => do
      modifyScope (·.register key "int" pos)
      pure key
    | none => temporary "int" pos
  let source ← temporary "string" iterated.pos
  hoist [.assignTo source iterated iterated.pos]
  let stored := (Expr.var source iterated.pos).withType "string"
  let size ← temporary "int" iterated.pos
  hoist [.assignTo size ((Expr.callOf "strlen" [stored] iterated.pos).withType "int") iterated.pos]
  let charAt := Expr.plain (.access .element stored ((Expr.var index pos).withType "int")) pos
  pure {
    head := { key := some index, value := some value, reverse := false, counted := true,
              length := some size }
    iterated := stored
    opening := [.assignTo value charAt pos] }

def loopStart (head : ForHead) (key : Option String) (value : String) (iterated : Expr)
    (pos : Position) : Lowering LoopStart :=
  if iterated.dataType = some "string" then
    stringLoop key value (reversed head.reverse true iterated) pos
  else
    pure {
      head := { key, value := some value, reverse := false, counted := false, length := none }
      iterated := reversed head.reverse false iterated
      opening := [] }

def catchBinding (binding : Option Expr) (pos : Position) : Lowering Expr :=
  match binding with
  | none => do
    let name ← temporary "variable" pos
    pure (.var name pos)
  | some binding => do
    match binding.asVar? with
    | some name => modifyScope (·.declare name "variable" binding.pos)
    | none => pure ()
    pure binding

/-- The clauses of a `try` without any: one empty clause that catches everything. -/
def defaultCatch (pos : Position) : Lowering (List Catch) := do
  let name ← temporary "variable" pos
  pure (splitCatch [baseException pos] (.var name pos) [] pos)

end Lowering

open Lowering

mutual

def lowerExpr : Expr → Lowering Expr
  | ⟨.var name, pos, dataType, doCast⟩ => do
    let declared ← typeOf? name
    pure ⟨.var name, pos, declared <|> dataType, doCast⟩
  | ⟨.literal .istring text, pos, dataType, doCast⟩ =>
    pure ⟨.literal .string text, pos, dataType, doCast⟩
  | ⟨.array entries, pos, dataType, doCast⟩ => do
    let entries ← lowerEntries entries
    pure ⟨.array entries, pos, dataType, doCast⟩
  | ⟨.access .stringProperty object member, pos, dataType, doCast⟩ => do
    let object ← lowerExpr object
    let member ← lowerExpr member
    let name ← temporary "string" pos
    hoist [.assignTo name member pos]
    pure ⟨.access .dynamicProperty object ((Expr.var name pos).withType "string"), pos,
      dataType, doCast⟩
  | ⟨.access .element object member, pos, dataType, doCast⟩ => do
    let object ← lowerExpr object
    let member ← lowerExpr member
    pure ⟨.access .element object member, pos, dataType, doCast⟩
  | ⟨.access .dynamicProperty object member, pos, dataType, doCast⟩ => do
    let object ← lowerExpr object
    let member ← lowerExpr member
    pure ⟨.access .dynamicProperty object member, pos, dataType, doCast⟩
  | ⟨.access .property object member, pos, dataType, doCast⟩ => do
    let object ← lowerExpr object
    pure ⟨.access .property object member, pos, dataType, doCast⟩
  | ⟨.call name callType arguments, pos, dataType, doCast⟩ => do
    let arguments ← lowerExprs arguments
    pure ⟨.call name callType arguments, pos, dataType, doCast⟩
  | ⟨.staticCall callee arguments, pos, dataType, doCast⟩ => do
    let arguments ← lowerExprs arguments
    pure ⟨.staticCall callee arguments, pos, dataType, doCast⟩
  | ⟨.new className dynamic arguments, pos, dataType, doCast⟩ => do
    let arguments ← lowerExprs arguments
    pure ⟨.new className dynamic arguments, pos, dataType, doCast⟩
  | ⟨.methodCall receiver name callType arguments, pos, dataType, doCast⟩ => do
    let receiver ← lowerExpr receiver
    let arguments ← lowerExprs arguments
    match primitiveOwner? receiver with
    | some owner => ofExcept (pseudoCall owner name receiver arguments pos)
    | none => pure ⟨.methodCall receiver name callType arguments, pos, dataType, doCast⟩
  | ⟨.newType typeName _, pos, _, _⟩ =>
    if typeName = "array" then pure ((Expr.plain .emptyArray pos).withType "array")
    else if typeName = "string" then pure ((Expr.str "" pos).withType "string")
    else fail ((Cause.unsupportedNewType typeName).at pos)
  | ⟨.cast typeName operand, pos, _, _⟩ => do
    let operand ← lowerExpr operand
    if castTypes.contains typeName then pure ⟨.cast typeName operand, pos, some typeName, true⟩
    else pure (operand.withType typeName)
  | ⟨.typeHint hint operand, _, _, _⟩ => do
    let operand ← lowerExpr operand
    match hint.name? with
    | some name => pure (operand.withType name)
    | none => pure operand
  | ⟨.unary .likely operand, _, _, _⟩ => lowerExpr operand
  | ⟨.unary .unlikely operand, _, _, _⟩ => lowerExpr operand
  | ⟨.closure parameters body locals, pos, dataType, doCast⟩ => do
    let (body, locals) ← within locals parameters (lowerBlock body)
    pure ⟨.closure parameters body.node locals, pos, dataType, doCast⟩
  | ⟨.closureArrow parameter body, pos, dataType, doCast⟩ =>
    match parameter.asVar? with
    | none =>
      fail ((Cause.malformedNode ("closure arrow parameter must be a variable, found `" ++
        parameter.kind.tag ++ "`")).at parameter.pos)
    | some name => do
      let parameters : List Parameter :=
        [{ name, dataType := "variable", pos := parameter.pos }]
      let (body, locals) ← within .empty parameters (lowerExpr body)
      let body ← ofExcept (arrowBody body pos)
      pure ⟨.closure parameters body locals, pos, dataType, doCast⟩
  | ⟨.fetch target source, pos, dataType, doCast⟩ => do
    let name ← fetchTarget target pos
    let source ← isolate (lowerExpr source)
    let stored ← storeFetched name target.pos source pos
    pure ⟨.binary .notEquals stored (.nullAt pos), pos, dataType, doCast⟩
  | ⟨.unary .not ⟨.fetch target source, fetchPos, _, _⟩, pos, dataType, doCast⟩ => do
    let name ← fetchTarget target fetchPos
    let source ← isolate (lowerExpr source)
    let stored ← storeFetched name target.pos source fetchPos
    pure ⟨.binary .equals stored (.nullAt fetchPos), pos, dataType, doCast⟩
  | ⟨.unary .empty operand, pos, _, _⟩ => do
    let operand ← lowerExpr operand
    pure ((Expr.callOf "zephir_isempty" [operand] pos).withType "bool")
  | ⟨.range kind low high, pos, _, _⟩ => do
    let low ← lowerExpr low
    let high ← lowerExpr high
    let function := if kind = .inclusive then "range" else "zephir_erange"
    pure ((Expr.callOf function [low, high] pos).withType "array")
  | ⟨.unary .group operand, pos, dataType, doCast⟩ => do
    let operand ← lowerExpr operand
    if operand.kind.isPrimary then pure operand
    else pure ⟨.unary .group operand, pos, dataType, doCast⟩
  | ⟨.unary op operand, pos, dataType, doCast⟩ => do
    let operand ← lowerExpr operand
    pure ⟨.unary op operand, pos, dataType, doCast⟩
  | ⟨.binary op left right, pos, dataType, doCast⟩ => do
    let left ← lowerExpr left
    let right ← lowerExpr right
    pure ⟨.binary op left right, pos, dataType, doCast⟩
  | ⟨.instanceOf value className, pos, dataType, doCast⟩ => do
    let value ← lowerExpr value
    pure ⟨.instanceOf value className, pos, dataType, doCast⟩
  | ⟨.ternary condition yes no, pos, dataType, doCast⟩ => do
    let condition ← lowerExpr condition
    let yes ← lowerExpr yes
    let no ← lowerExpr no
    pure ⟨.ternary condition yes no, pos, dataType, doCast⟩
  | e => pure e

def lowerExprs : List Expr → Lowering (List Expr)
  | [] => pure []
  | e :: rest => do
    let e ← lowerExpr e
    let rest ← lowerExprs rest
    pure (e :: rest)

def lowerOption : Option Expr → Lowering (Option Expr)
  | none => pure none
  | some e => do
    let e ← lowerExpr e
    pure (some e)

def lowerEntries : List ArrayEntry → Lowering (List ArrayEntry)
  | [] => pure []
  | ⟨key, value⟩ :: rest => do
    let key ← lowerOption key
    let value ← lowerExpr value
    let rest ← lowerEntries rest
    pure (⟨key, value⟩ :: rest)

def lowerBlock : List Statement → Lowering (List Statement)
  | [] => pure []
  | s :: rest => do
    let lowered ← isolate (lowerStatement s)
    let rest ← lowerBlock rest
    pure (lowered.toBlock ++ rest)

/-- Lowers a statement. Its comments stay above the first statement that it becomes. -/
def lowerStatement : Statement → Lowering (Option Statement)
  | ⟨kind, pos, docblocks⟩ => do
    let lowered ← isolate (lowerKind pos kind)
    emit ((lowered.map fun kind => kind.map fun kind => ⟨kind, pos, []⟩).prependDocs docblocks)

def lowerKind (pos : Position) : StatementKind → Lowering (Option StatementKind)
  | .lets assignments => do
    lowerLets assignments
    pure none
  | .declare dataType declared => do
    modifyScope fun scope =>
      { scope with locals := scope.locals.insertAll (declaredLocals dataType declared) }
    lowerInitial declared
    pure none
  | .fetch ⟨.fetch target source, fetchPos, _, _⟩ => do
    let name ← fetchTarget target fetchPos
    let source ← isolate (lowerExpr source)
    let _ ← storeFetched name target.pos source fetchPos
    pure none
  | .fetch e =>
    fail ((Cause.malformedNode ("`fetch` statement holds a `" ++ e.kind.tag ++
      "` expression")).at e.pos)
  | .assign mode assign => do
    let assign ← lowerAssign assign
    pure (some (.assign mode assign))
  | .echo expressions => do
    let expressions ← lowerExprs expressions
    pure (some (.echo expressions))
  | .effect .methodCall e => do
    let e ← lowerExpr e
    match e.kind with
    | .call .. => pure (some (.effect .call e))
    | _ => pure (some (.effect .methodCall e))
  | .effect kind e => do
    let e ← lowerExpr e
    pure (some (.effect kind e))
  | .ret value => do
    let value ← lowerOption value
    pure (some (.ret value))
  | .branch condition body elseIfs otherwise => do
    let condition ← lowerExpr condition
    let body ← lowerBlock body
    let elseIfs ← lowerElseIfs elseIfs
    let otherwise ←
      match otherwise with
      | none => pure none
      | some body => do
        let body ← lowerBlock body
        pure (some body)
    pure (some (.branch condition body elseIfs otherwise))
  | .whileLoop kind condition body => do
    let condition ← lowerExpr condition
    let body ← lowerBlock body
    pure (some (.whileLoop kind condition body))
  | .loop body => do
    let body ← lowerBlock body
    pure (some (.loop body))
  | .forLoop head iterated body => do
    let (key, value) ← loopNames head pos
    let iterated ← lowerExpr iterated
    let start ← loopStart head key value iterated pos
    let body ← lowerBlock body
    pure (some (.forLoop start.head start.iterated (start.opening ++ body)))
  | .switch subject clauses => do
    let subject ← lowerExpr subject
    let clauses ← lowerClauses clauses
    pure (some (.switch subject clauses))
  | .tryCatch body [] => do
    let body ← lowerBlock body
    let catches ← defaultCatch pos
    pure (some (.tryCatch body catches))
  | .tryCatch body catches => do
    let body ← lowerBlock body
    let catches ← lowerCatches catches
    pure (some (.tryCatch body catches))
  | .cblock _ => pure none
  | kind => pure (some kind)

/-- Lowers the value and then the indices of an assignment. -/
def lowerAssign : Assign → Lowering Assign
  | ⟨target, operator, base, property, index, value⟩ => do
    let value ← lowerOption value
    let index ← lowerExprs index
    pure ⟨target, operator, base, property, index, value⟩

def lowerLets : List LetAssignment → Lowering Unit
  | [] => pure ()
  | ⟨⟨target, operator, base, property, index, value⟩, pos⟩ :: rest => do
    let (mode, location) ← resolveTarget ⟨target, operator, base, property, [], none⟩ pos
    let assign ← isolate do
      let value ← lowerOption value
      let index ← lowerExprs index
      pure { location with index, value }
    hoistAssign mode assign pos
    lowerLets rest

def lowerInitial : List DeclaredVariable → Lowering Unit
  | [] => pure ()
  | ⟨name, value, pos⟩ :: rest => do
    match value with
    | none => pure ()
    | some value => do
      let assign ← isolate do
        let value ← lowerExpr value
        pure (Assign.set name value)
      hoistAssign .set assign pos
    lowerInitial rest

/-- Lowers the branches of an `if`. What is hoisted out of a condition runs before the whole
statement. -/
def lowerElseIfs : List ElseIf → Lowering (List ElseIf)
  | [] => pure []
  | ⟨condition, body, pos⟩ :: rest => do
    let condition ← lowerExpr condition
    let body ← lowerBlock body
    let rest ← lowerElseIfs rest
    pure (⟨condition, body, pos⟩ :: rest)

def lowerClauses : List SwitchClause → Lowering (List SwitchClause)
  | [] => pure []
  | ⟨test, body⟩ :: rest => do
    let test ← lowerOption test
    let body ← lowerBlock body
    let rest ← lowerClauses rest
    pure (⟨test, body⟩ :: rest)

/-- Lowers the clauses of a `try` to clauses with one class and a variable each. -/
def lowerCatches : List Catch → Lowering (List Catch)
  | [] => pure []
  | ⟨classes, binding, body, pos⟩ :: rest => do
    let body ← lowerBlock body
    let binding ← catchBinding binding pos
    let classes := if classes.isEmpty then [baseException pos] else classes
    let rest ← lowerCatches rest
    pure (splitCatch classes binding body pos ++ rest)

end

def lowerBody (locals : Locals) (parameters : List Parameter) (body : List Statement) :
    Except Diagnostic (List Statement × Locals) :=
  match lowerBlock body { locals, parameters } with
  | .error d => .error d
  | .ok (lowered, scope) => .ok (lowered.node, scope.locals)

end Zephir
