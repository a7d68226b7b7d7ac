import Zephir.Php.Comment
import Zephir.Php.Literal
import Zephir.Php.Precedence
import Zephir.Syntax.Form
import Zephir.Text.UpperCase

/-!
PHP for expressions and statements. Each node becomes a script for the emitter; nodes that only
occur before lowering, and assignments that PHP cannot express, are failures.
-/

namespace Zephir.Php

open Script

inductive EmptyBlock
  | semicolon
  | braces
  deriving DecidableEq

/-- Statements in braces, or what stands in place of a block without any. -/
def block (isEmpty : Bool) (statements : Script) (opening closing : String)
    (onEmpty : EmptyBlock) : Script :=
  if isEmpty && onEmpty == .semicolon then semicolon
  else
    opIn "\x7b" opening ++ of [.flush, .indent] ++ statements ++ of [.flush, .unindent] ++
      opIn "\x7d" closing

def closing (last : Bool) : String :=
  if last then "block" else "chain"

def dollar (name : String) : String :=
  "$" ++ name

def nameText (dynamic : Bool) (name : String) : String :=
  if dynamic then dollar name else name

/-- An operand, in parentheses if it binds more loosely than the least level. -/
def operand (e : Expr) (inner : Script) (least : Nat) : Script :=
  if level e.kind < least then grouped inner else inner

def className (e : Expr) (inner : Script) : Script :=
  match e.name? with
  | some name => text name
  | none => inner

def memberName (e : Expr) (inner : Script) : Script :=
  match e.name? with
  | some name => text name
  | none => braced inner

def staticMember (kind : AccessKind) (member : Expr) (pos : Position) : Script :=
  match member.name? with
  | some name => text (nameText (kind == .staticProperty) name)
  | none =>
    malformed ("`" ++ (ExprForm.access kind).tag ++ "` needs a member name") pos

def methodText (callType : UInt8) (name : String) : String :=
  if callType = 1 then name
  else if callType = 2 then dollar name
  else "\x7b" ++ quote name ++ "\x7d"

/-- The text of a literal; those for which PHP has no text are not left by lowering. -/
def literal (kind : LiteralKind) (value : String) (pos : Position) : Script :=
  match kind with
  | .bool => text (Text.upper value)
  | .int | .double | .constant => text value
  | .string => text (stringLiteral value)
  | .char => text (quote value)
  | .istring => unhandled (ExprForm.literal kind).tag pos

def appends : AssignTarget → Bool
  | .variableAppend | .arrayIndexAppend | .objectPropertyAppend
  | .objectPropertyArrayIndexAppend | .staticPropertyAppend
  | .staticPropertyArrayIndexAppend => true
  | _ => false

def takesIndex : AssignTarget → Bool
  | .arrayIndex | .arrayIndexAppend | .objectPropertyArrayIndex
  | .objectPropertyArrayIndexAppend | .staticPropertyArrayIndex
  | .staticPropertyArrayIndexAppend => true
  | _ => false

def invalidTarget (statement : String) (target : AssignTarget) (pos : Position) : Script :=
  fail ((Cause.invalidAssignTarget statement target.name).at pos)

def withProperty (property : Option String) (pos : Position) (script : String → Script) :
    Script :=
  match property with
  | some name => script name
  | none => malformed "property assignment without a property name" pos

def targetBase (target : AssignTarget) (base : String) (property : Option String)
    (statement : String) (pos : Position) : Script :=
  match target with
  | .variable | .variableAppend | .arrayIndex | .arrayIndexAppend => text (dollar base)
  | .dynamicVariable => text (dollar (dollar base))
  | .objectProperty | .objectPropertyAppend | .objectPropertyArrayIndex
  | .objectPropertyArrayIndexAppend =>
    text (dollar base) ++ op "->" ++ withProperty property pos text
  | .variableDynamicObjectProperty =>
    text (dollar base) ++ op "->" ++ of [.token "\x7b" (some false) (some false)] ++
      withProperty property pos (fun name => text (dollar name)) ++
      of [.token "\x7d" (some false) none]
  | .staticProperty | .staticPropertyAppend | .staticPropertyArrayIndex
  | .staticPropertyArrayIndexAppend =>
    text base ++ op "::" ++ withProperty property pos fun name => text (dollar name)
  | .dynamicVariableString | .stringDynamicObjectProperty | .objectPropertyIncr
  | .objectPropertyDecr | .incr | .decr => invalidTarget statement target pos

def location (target : AssignTarget) (base : String) (property : Option String)
    (index : List Script) (statement : String) (pos : Position) : Script :=
  targetBase target base property statement pos ++
    (if takesIndex target then join (index.map indexed) else empty) ++
    (if appends target then opIn "[" "index" ++ op "]" else empty)

def assignment (target : Script) (operator : Option AssignOp) (value : Option Script)
    (pos : Position) : Script :=
  target ++
    (match value with
    | none => malformed "assignment without a value" pos
    | some value => op (operator.getD .assign).php ++ value)

def countedHead (key length : String) : Script :=
  word "for" ++ opIn "(" "control" ++ text (dollar key) ++ op "=" ++ text "0" ++ opIn ";" "for" ++
    text (dollar key) ++ op "<" ++ text (dollar length) ++ opIn ";" "for" ++ text (dollar key) ++
    op "++" ++ op ")"

def eachHead (iterated : Script) (key : Option String) (value : String) : Script :=
  word "foreach" ++ opIn "(" "control" ++ iterated ++ op "as" ++
    (match key with
    | some key => text (dollar key) ++ op "=>"
    | none => empty) ++
    text (dollar value) ++ op ")"

def loopHead (head : ForHead) (iterated : Script) (pos : Position) : Script :=
  match head.value with
  | none => malformed "`for` without a value variable" pos
  | some value =>
    if head.counted then
      match head.key, head.length with
      | some key, some length => countedHead key length
      | _, _ => malformed "counted `for` without index or length" pos
    else eachHead iterated head.key value

def catchVariable (binding : Option Expr) (pos : Position) : Script :=
  match binding with
  | none => empty
  | some binding =>
    match binding.asVar? with
    | some name => word (dollar name)
    | none => malformed "`catch` target is not a variable" pos

def catchClasses (classes : List Script) : Script :=
  match classes with
  | [] => text "\\Exception"
  | first :: rest => first ++ join (rest.map (op "|" ++ ·))

def jumpWord : JumpKind → String
  | .next => "continue"
  | .leave => "break"

def parenthesized (parameters : List Script) (context : String) : Script :=
  opIn "(" context ++ commas parameters ++ op ")"

def access (kind : AccessKind) (object member : Expr) (objectScript memberScript : Script)
    (pos : Position) : Script :=
  match kind with
  | .element => operand object objectScript primaryLevel ++ indexed memberScript
  | .property =>
    operand object objectScript primaryLevel ++ op "->" ++ memberName member memberScript
  | .dynamicProperty => operand object objectScript primaryLevel ++ op "->" ++ braced memberScript
  | .stringProperty => unhandled (ExprForm.access kind).tag pos
  | .staticProperty | .classConstant =>
    className object objectScript ++ op "::" ++ staticMember kind member pos

def unary (kind : UnaryOp) (inner : Expr) (script : Script) (pos : Position) : Script :=
  match kind with
  | .typeOf => call "zephir_typeof" [script]
  | .group => grouped script
  | .clone => word "clone" ++ operand inner script unaryLevel
  | .require => word "require" ++ script
  | kind =>
    match kind.sign? with
    | none => unhandled (ExprForm.unary kind).tag pos
    | some sign =>
      of [.token sign none (some false)] ++
        (if leadsWith inner sign then grouped script
        else operand inner script (unaryFormLevel kind))

def issetAccess (kind : AccessKind) (object member : Expr) (objectScript memberScript : Script)
    (pos : Position) : Script :=
  match kind with
  | .element => call "zephir_isset_array" [objectScript, memberScript]
  | .property =>
    call "zephir_isset_property" [objectScript,
      match member.name? with
      | some name => text (stringLiteral name)
      | none => memberScript]
  | .dynamicProperty => call "zephir_isset_property" [objectScript, memberScript]
  | .staticProperty =>
    call "isset" [className object objectScript ++ op "::" ++ staticMember kind member pos]
  | .stringProperty | .classConstant =>
    unhandled ("isset(" ++ (ExprForm.access kind).tag ++ ")") pos

mutual

def expr : Expr → Script
  | ⟨kind, pos, _, _⟩ => exprKind pos kind

def exprKind (pos : Position) : ExprKind → Script
  | .null => text "NULL"
  | .literal kind value => literal kind value pos
  | .emptyArray => op "[" ++ op "]"
  | .array entries => op "[" ++ commas (arrayEntries entries) ++ op "]"
  | .var name => text (dollar name)
  | .access kind object member => access kind object member (expr object) (expr member) pos
  | .call name callType args => call (nameText (callType != 1) name) (exprs args)
  | .methodCall receiver name callType args =>
    operand receiver (expr receiver) primaryLevel ++ op "->" ++
      call (methodText callType name) (exprs args)
  | .staticCall callee args =>
    text (nameText callee.dynamicClass callee.className) ++ op "::" ++
      call (nameText callee.dynamic callee.name) (exprs args)
  | .new name dynamic args => word "new" ++ call (nameText dynamic name) (exprs args)
  | .newType _ _ => unhandled ExprForm.newType.tag pos
  | .unary .isset target => isset target
  | .unary kind inner => unary kind inner (expr inner) pos
  | .binary kind left right =>
    operand left (expr left) (leftLevel kind) ++ op kind.php ++
      operand right (expr right) (binaryLevel kind + 1)
  | .instanceOf value name =>
    operand value (expr value) unaryLevel ++ op "instanceof" ++ className name (expr name)
  | .range kind _ _ => unhandled (ExprForm.range kind).tag pos
  | .ternary condition yes no =>
    operand condition (expr condition) (ternaryLevel + 1) ++ op "?" ++
      operand yes (expr yes) (ternaryLevel + 1) ++ op ":" ++
      operand no (expr no) (ternaryLevel + 1)
  | .cast typeName inner =>
    word ("(" ++ typeName ++ ")") ++ operand inner (expr inner) unaryLevel
  | .typeHint _ _ => unhandled ExprForm.typeHint.tag pos
  | .fetch _ _ => unhandled ExprForm.fetch.tag pos
  | .closure params body _ =>
    word "function" ++ parenthesized (parameters params) "closure" ++
      block body.isEmpty (statements body) "closure" "closure" .braces
  | .closureArrow _ _ => unhandled ExprForm.closureArrow.tag pos

def isset : Expr → Script
  | ⟨.access kind object member, pos, _, _⟩ =>
    issetAccess kind object member (expr object) (expr member) pos
  | ⟨.var name, _, _, _⟩ => call "isset" [text (dollar name)]
  | ⟨kind, pos, _, _⟩ => unhandled ("isset(" ++ kind.tag ++ ")") pos

def exprs : List Expr → List Script
  | [] => []
  | e :: rest => expr e :: exprs rest

def classNames : List Expr → List Script
  | [] => []
  | e :: rest => className e (expr e) :: classNames rest

def arrayEntries : List ArrayEntry → List Script
  | [] => []
  | ⟨key, value⟩ :: rest =>
    ((match key with
      | some key => expr key ++ op "=>"
      | none => empty) ++ expr value) :: arrayEntries rest

def initial : Option Expr → Script
  | none => empty
  | some e => op "=" ++ expr e

def parameters : List Parameter → List Script
  | [] => []
  | ⟨name, _, value, _, reference, _⟩ :: rest =>
    (text ((if reference then "&$" else "$") ++ name) ++ initial value) :: parameters rest

def statements : List Statement → Script
  | [] => empty
  | s :: rest => statement s ++ statements rest

def statement : Statement → Script
  | ⟨kind, pos, docs⟩ => docblocks docs ++ statementKind pos kind

def statementKind (pos : Position) : StatementKind → Script
  | .assign .set ⟨target, operator, base, property, index, value⟩ =>
    assignment (location target base property (exprs index) "assign" pos) operator
      (match value with
      | none => none
      | some value => some (expr value)) pos ++ semicolon
  | .assign .increment assign => counted assign "++" "incr" pos
  | .assign .decrement assign => counted assign "--" "decr" pos
  | .echo expressions => word "echo" ++ commas (exprs expressions) ++ semicolon
  | .effect .throw e => word "throw" ++ expr e ++ semicolon
  | .effect .unset e => call "unset" [expr e] ++ semicolon
  | .effect .require e => word "require" ++ expr e ++ semicolon
  | .effect _ e => expr e ++ semicolon
  | .ret none => word "return" ++ semicolon
  | .ret (some e) => word "return" ++ expr e ++ semicolon
  | .jump kind => word (jumpWord kind) ++ semicolon
  | .empty => empty
  | .branch test body elseIfs otherwise =>
    let hasElse :=
      match otherwise with
      | some (_ :: _) => true
      | _ => false
    word "if" ++ condition (expr test) ++
      block body.isEmpty (statements body) "control" (closing (elseIfs.isEmpty && !hasElse))
        .braces ++
      elseIfBranches hasElse elseIfs ++
      (match otherwise with
      | some (s :: rest) =>
        word "else" ++ block false (statements (s :: rest)) "control" "block" .braces
      | _ => empty)
  | .whileLoop .testFirst test body =>
    word "while" ++ condition (expr test) ++
      block body.isEmpty (statements body) "control" "block" .semicolon
  | .whileLoop .testLast test body =>
    word "do" ++ block body.isEmpty (statements body) "control" "chain" .braces ++
      word "while" ++ condition (expr test) ++ semicolon
  | .loop body =>
    word "do" ++ block body.isEmpty (statements body) "control" "chain" .braces ++
      word "while" ++ condition (text "TRUE") ++ semicolon
  | .forLoop head iterated body =>
    loopHead head (expr iterated) pos ++
      block body.isEmpty (statements body) "control" "block" .braces
  | .switch subject clauses =>
    word "switch" ++ condition (expr subject) ++ opIn "\x7b" "control" ++
      of [.flush, .indent] ++ switchClauses clauses ++ of [.unindent] ++ opIn "\x7d" "block"
  | .tryCatch body catches =>
    word "try" ++
      block body.isEmpty (statements body) "control" (closing catches.isEmpty) .braces ++
      catchClauses catches
  | .lets _ => unhandled StatementForm.lets.tag pos
  | .declare _ _ => unhandled StatementForm.declare.tag pos
  | .fetch _ => unhandled StatementForm.fetch.tag pos
  | .comment _ => unhandled StatementForm.comment.tag pos
  | .cblock _ => unhandled StatementForm.cblock.tag pos

def counted (assign : Assign) (sign name : String) (pos : Position) : Script :=
  match assign with
  | ⟨target, _, base, property, index, _⟩ =>
    if appends target then invalidTarget name target pos
    else location target base property (exprs index) name pos ++ op sign ++ semicolon

def elseIfBranches (hasElse : Bool) : List ElseIf → Script
  | [] => empty
  | ⟨test, body, _⟩ :: rest =>
    word "elseif" ++ condition (expr test) ++
      block body.isEmpty (statements body) "control" (closing (rest.isEmpty && !hasElse))
        .braces ++
      elseIfBranches hasElse rest

def switchClauses : List SwitchClause → Script
  | [] => empty
  | ⟨test, body⟩ :: rest =>
    (match test with
    | some e => word "case" ++ expr e
    | none => word "default") ++
      opIn ":" "case" ++ of [.flush, .indent] ++ statements body ++ of [.flush, .unindent] ++
      switchClauses rest

def catchClauses : List Catch → Script
  | [] => empty
  | ⟨classes, binding, body, pos⟩ :: rest =>
    word "catch" ++ opIn "(" "control" ++ catchClasses (classNames classes) ++
      catchVariable binding pos ++ op ")" ++
      block body.isEmpty (statements body) "control" (closing rest.isEmpty) .braces ++
      catchClauses rest

end

end Zephir.Php
