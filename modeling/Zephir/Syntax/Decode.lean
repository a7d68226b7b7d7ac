import Zephir.Json.Fields
import Zephir.Syntax.Form

/-!
Reading the syntax tree out of JSON. Every node is an object with a `type` field, the fields of
its kind, and the fields of its place among them. Expressions and statements contain each other,
so their readers are given readers for what lies one level deeper.
-/

namespace Zephir

def Position.ofFields? (fields : Fields) : Option Position := do
  let file ← fields.withDefault "file" "" Json.string?
  let line ← fields.withDefault "line" 0 Json.word32?
  let column ← fields.withDefault "char" 0 Json.word32?
  return { file, line, column }

def DocLines.ofJson? : Json → Option DocLines
  | .string line => some (.one line)
  | json => (json.list? Json.string?).map .many

def Docblock.ofJson? (json : Json) : Option Docblock := do
  let fields ← json.object?
  let lines ← fields.required "lines" DocLines.ofJson?
  let multiLine ← fields.withDefault "multi-line" false Json.bool?
  let document ← fields.withDefault "document" false Json.bool?
  let pos ← Position.ofFields? fields
  return { lines, multiLine, document, pos }

def Local.ofJson? (json : Json) : Option Local := do
  let fields ← json.object?
  let dataType ← fields.required "data-type" Json.string?
  let pos ← Position.ofFields? fields
  return { dataType, pos }

def Locals.ofJson? (json : Json) : Option Locals :=
  (json.map? Local.ofJson?).map OrderedMap.ofList

structure TreeReader where
  expr : Json → Option Expr
  statement : Json → Option Statement

namespace TreeReader

variable (inner : TreeReader)

def block? (fields : Fields) (name : String) : Option (List Statement) :=
  fields.withDefault name [] (Json.list? inner.statement)

def exprs? (fields : Fields) (name : String) : Option (List Expr) :=
  fields.withDefault name [] (Json.list? inner.expr)

def argument? (json : Json) : Option Expr := do
  let fields ← json.record? ["parameter"]
  fields.required "parameter" inner.expr

def arguments? (fields : Fields) : Option (List Expr) :=
  fields.withDefault "parameters" [] (Json.list? inner.argument?)

def arrayEntry? (json : Json) : Option ArrayEntry := do
  let fields ← json.record? ["key", "value"]
  let key ← fields.optional "key" inner.expr
  let value ← fields.required "value" inner.expr
  return { key, value }

def parameter? (json : Json) : Option Parameter := do
  let fields ← json.object?
  let name ← fields.required "name" Json.string?
  let dataType ← fields.withDefault "data-type" "variable" Json.string?
  let initial ← fields.optional "default" inner.expr
  let constant ← fields.withDefault "const" false Json.flag?
  let reference ← fields.withDefault "reference" false Json.flag?
  let pos ← Position.ofFields? fields
  return { name, dataType, initial, constant, reference, pos }

def exprKind? (fields : Fields) : ExprForm → Option ExprKind
  | .null => some .null
  | .literal kind => do
    return .literal kind (← fields.required "value" Json.scalarText?)
  | .emptyArray => some .emptyArray
  | .array => do
    return .array (← fields.withDefault "left" [] (Json.list? inner.arrayEntry?))
  | .var => do
    return .var (← fields.required "value" Json.string?)
  | .access kind => do
    let object ← fields.required "left" inner.expr
    let member ← fields.required "right" inner.expr
    return .access kind object member
  | .call => do
    let name ← fields.required "name" Json.string?
    let callType ← fields.withDefault "call-type" 1 Json.word8?
    return .call name callType (← inner.arguments? fields)
  | .methodCall => do
    let receiver ← fields.required "variable" inner.expr
    let name ← fields.required "name" Json.string?
    let callType ← fields.withDefault "call-type" 1 Json.word8?
    return .methodCall receiver name callType (← inner.arguments? fields)
  | .staticCall => do
    let className ← fields.required "class" Json.string?
    let dynamicClass ← fields.withDefault "dynamic-class" false Json.flag?
    let name ← fields.required "name" Json.string?
    let dynamic ← fields.withDefault "dynamic" false Json.flag?
    return .staticCall { className, dynamicClass, name, dynamic } (← inner.arguments? fields)
  | .new => do
    let className ← fields.required "class" Json.string?
    let dynamic ← fields.withDefault "dynamic" false Json.flag?
    return .new className dynamic (← inner.arguments? fields)
  | .newType => do
    let typeName ← fields.required "internal-type" Json.string?
    return .newType typeName (← inner.arguments? fields)
  | .unary op => do
    return .unary op (← fields.required "left" inner.expr)
  | .binary op => do
    let left ← fields.required "left" inner.expr
    let right ← fields.required "right" inner.expr
    return .binary op left right
  | .instanceOf => do
    let value ← fields.required "left" inner.expr
    let className ← fields.required "right" inner.expr
    return .instanceOf value className
  | .range kind => do
    let low ← fields.required "left" inner.expr
    let high ← fields.required "right" inner.expr
    return .range kind low high
  | .ternary => do
    let condition ← fields.required "left" inner.expr
    let yes ← fields.required "right" inner.expr
    let no ← fields.required "extra" inner.expr
    return .ternary condition yes no
  | .cast => do
    let typeName ← fields.required "left" Json.string?
    let operand ← fields.required "right" inner.expr
    return .cast typeName operand
  | .typeHint => do
    let hint ← fields.required "left" inner.expr
    let operand ← fields.required "right" inner.expr
    return .typeHint hint operand
  | .fetch => do
    let target ← fields.required "left" inner.expr
    let source ← fields.required "right" inner.expr
    return .fetch target source
  | .closure => do
    let parameters ← fields.withDefault "left" [] (Json.list? inner.parameter?)
    let body ← inner.block? fields "right"
    let locals ← fields.withDefault "locals" .empty Locals.ofJson?
    return .closure parameters body locals
  | .closureArrow => do
    let parameter ← fields.required "left" inner.expr
    let body ← fields.required "right" inner.expr
    return .closureArrow parameter body

def exprOf? (json : Json) : Option Expr := do
  let fields ← json.object?
  let form ← fields.required "type" (Json.choice? ExprForm.all ExprForm.tags)
  let kind ← inner.exprKind? fields form
  let pos ← Position.ofFields? fields
  let dataType ← fields.optional "data-type" Json.string?
  let doCast ← fields.withDefault "do-cast" false Json.bool?
  return { kind, pos, dataType, doCast }

def assign? (fields : Fields) : Option Assign := do
  let target ← fields.required "assign-type" (Json.constant? AssignTarget.all AssignTarget.name)
  let operator ← fields.optional "operator" (Json.constant? AssignOp.all AssignOp.name)
  let base ← fields.required "variable" Json.string?
  let property ← fields.optional "property" Json.string?
  let index ← inner.exprs? fields "index-expr"
  let value ← fields.optional "expr" inner.expr
  return { target, operator, base, property, index, value }

def letAssignment? (json : Json) : Option LetAssignment := do
  let fields ← json.object?
  let assign ← inner.assign? fields
  let pos ← Position.ofFields? fields
  return { assign, pos }

def declaredVariable? (json : Json) : Option DeclaredVariable := do
  let fields ← json.object?
  let name ← fields.required "variable" Json.string?
  let value ← fields.optional "expr" inner.expr
  let pos ← Position.ofFields? fields
  return { name, value, pos }

def elseIf? (json : Json) : Option ElseIf := do
  let fields ← json.object?
  let condition ← fields.required "expr" inner.expr
  let body ← inner.block? fields "statements"
  let pos ← Position.ofFields? fields
  return { condition, body, pos }

def clauseOf? (fields : Fields) : ClauseForm → Option SwitchClause
  | .case => do
    let test ← fields.required "expr" inner.expr
    let body ← inner.block? fields "statements"
    return { test := some test, body }
  | .otherwise => do
    let body ← inner.block? fields "statements"
    return { test := none, body }

/-- The fields of a clause in the order in which an array gives them after the tag. -/
def clauseFields : ClauseForm → List String
  | .case => ["expr", "statements"]
  | .otherwise => ["statements"]

def switchClause? (json : Json) : Option SwitchClause :=
  let form? := Json.choice? ClauseForm.all fun form => [form.tag]
  match json with
  | .object fields => do
    inner.clauseOf? fields (← Fields.required fields "type" form?)
  | .array (tag :: items) => do
    let form ← form? tag
    inner.clauseOf? (← (Json.array items).record? (clauseFields form)) form
  | _ => none

def catch? (json : Json) : Option Catch := do
  let fields ← json.object?
  let classes ← inner.exprs? fields "classes"
  let binding ← fields.optional "variable" inner.expr
  let body ← inner.block? fields "statements"
  let pos ← Position.ofFields? fields
  return { classes, binding, body, pos }

def statementKind? (fields : Fields) : StatementForm → Option StatementKind
  | .lets => do
    return .lets (← fields.withDefault "assignments" [] (Json.list? inner.letAssignment?))
  | .declare => do
    let dataType ← fields.required "data-type" Json.string?
    let declared ←
      fields.withDefault "variables" [] (Json.list? inner.declaredVariable?)
    return .declare dataType declared
  | .fetch => do
    return .fetch (← fields.required "expr" inner.expr)
  | .assign mode => do
    return .assign mode (← inner.assign? fields)
  | .echo => do
    return .echo (← inner.exprs? fields "expressions")
  | .effect kind => do
    return .effect kind (← fields.required "expr" inner.expr)
  | .ret => do
    return .ret (← fields.optional "expr" inner.expr)
  | .jump kind => some (.jump kind)
  | .empty => some .empty
  | .branch => do
    let condition ← fields.required "expr" inner.expr
    let body ← inner.block? fields "statements"
    let elseIfs ← fields.withDefault "elseif_statements" [] (Json.list? inner.elseIf?)
    let otherwise ← fields.optional "else_statements" (Json.list? inner.statement)
    return .branch condition body elseIfs otherwise
  | .whileLoop kind => do
    let condition ← fields.required "expr" inner.expr
    return .whileLoop kind condition (← inner.block? fields "statements")
  | .loop => do
    return .loop (← inner.block? fields "statements")
  | .forLoop => do
    let key ← fields.optional "key" Json.string?
    let value ← fields.optional "value" Json.string?
    let reverse ← fields.withDefault "reverse" false Json.flag?
    let iterated ← fields.required "expr" inner.expr
    let body ← inner.block? fields "statements"
    let counted ← fields.withDefault "basic-for" false Json.bool?
    let length ← fields.optional "length" Json.string?
    return .forLoop { key, value, reverse, counted, length } iterated body
  | .switch => do
    let subject ← fields.required "expr" inner.expr
    let clauses ← fields.withDefault "clauses" [] (Json.list? inner.switchClause?)
    return .switch subject clauses
  | .tryCatch => do
    let body ← inner.block? fields "statements"
    let catches ← fields.withDefault "catches" [] (Json.list? inner.catch?)
    return .tryCatch body catches
  | .comment => do
    return .comment (← fields.withDefault "value" "" Json.string?)
  | .cblock => do
    return .cblock (← fields.withDefault "value" "" Json.string?)

def docblocks? (fields : Fields) : Option (List Docblock) :=
  fields.withDefault "docblocks" [] (Json.list? Docblock.ofJson?)

def statementOf? (json : Json) : Option Statement := do
  let fields ← json.object?
  let form ← fields.required "type"
    (Json.choice? StatementForm.all fun form => [form.tag])
  let kind ← inner.statementKind? fields form
  let pos ← Position.ofFields? fields
  let docblocks ← docblocks? fields
  return { kind, pos, docblocks }

/-- The reader of trees that are nested at most `depth` deep. -/
def ofDepth : Nat → TreeReader
  | 0 => { expr := fun _ => none, statement := fun _ => none }
  | depth + 1 =>
    let inner := ofDepth depth
    { expr := inner.exprOf?, statement := inner.statementOf? }

end TreeReader

namespace TreeReader

variable (tree : TreeReader)

def constant? (json : Json) : Option Constant := do
  let fields ← json.object?
  let name ← fields.required "name" Json.string?
  let value ← fields.optional "default" tree.expr
  let docblock ← fields.optional "docblock" Json.string?
  let docblocks ← docblocks? fields
  let pos ← Position.ofFields? fields
  return { name, value, docblock, docblocks, pos }

def shortcut? (json : Json) : Option Shortcut := do
  let fields ← json.object?
  let name ← fields.required "name" Json.string?
  let pos ← Position.ofFields? fields
  return { name, pos }

def property? (json : Json) : Option Property := do
  let fields ← json.object?
  let name ← fields.required "name" Json.string?
  let visibility ← fields.withDefault "visibility" [] (Json.list? Json.string?)
  let value ← fields.optional "default" tree.expr
  let shortcuts ← fields.withDefault "shortcuts" [] (Json.list? shortcut?)
  let docblock ← fields.optional "docblock" Json.string?
  let docblocks ← docblocks? fields
  let pos ← Position.ofFields? fields
  return { name, visibility, value, shortcuts, docblock, docblocks, pos }

def method? (json : Json) : Option Method := do
  let fields ← json.object?
  let name ← fields.required "name" Json.string?
  let visibility ← fields.withDefault "visibility" [] (Json.list? Json.string?)
  let parameters ← fields.withDefault "parameters" [] (Json.list? tree.parameter?)
  let body ← tree.block? fields "statements"
  let locals ← fields.withDefault "locals" .empty Locals.ofJson?
  let shortcut ← fields.optional "shortcut" Json.string?
  let docblock ← fields.optional "docblock" Json.string?
  let docblocks ← docblocks? fields
  let pos ← Position.ofFields? fields
  return { name, visibility, parameters, body, locals, shortcut, docblock, docblocks, pos }

def definition? (json : Json) : Option Definition := do
  let fields ← json.record? ["constants", "properties", "methods"]
  let constants ← fields.withDefault "constants" [] (Json.list? tree.constant?)
  let properties ← fields.withDefault "properties" [] (Json.list? tree.property?)
  let methods ← fields.withDefault "methods" [] (Json.list? tree.method?)
  return { constants, properties, methods }

def members? (fields : Fields) : Option Members := do
  let definition ← fields.optional "definition" tree.definition?
  let constants ← fields.withDefault "constants" [] (Json.map? tree.constant?)
  let properties ← fields.withDefault "properties" [] (Json.map? tree.property?)
  let methods ← fields.withDefault "methods" [] (Json.map? tree.method?)
  return {
    definition, constants := .ofList constants, properties := .ofList properties,
    methods := .ofList methods }

def useAlias? (json : Json) : Option UseAlias := do
  let fields ← json.record? ["name", "alias"]
  let name ← fields.required "name" Json.string?
  let shortName ← fields.optional "alias" Json.string?
  return { name, shortName }

def nodeKind? (fields : Fields) : NodeForm → Option NodeKind
  | .namespaceDecl => do
    return .namespaceDecl (← fields.required "name" Json.string?)
  | .useDecl => do
    return .useDecl (← fields.withDefault "aliases" [] (Json.list? useAlias?))
  | .require => do
    return .require (← fields.required "expr" tree.expr)
  | .comment => do
    return .comment (← fields.withDefault "value" "" Json.string?)
  | .cblock => do
    return .cblock (← fields.withDefault "value" "" Json.string?)
  | .functionDecl => do
    let name ← fields.required "name" Json.string?
    let parameters ← fields.withDefault "parameters" [] (Json.list? tree.parameter?)
    let body ← tree.block? fields "statements"
    let locals ← fields.withDefault "locals" .empty Locals.ofJson?
    let docblock ← fields.optional "docblock" Json.string?
    return .functionDecl { name, parameters, body, locals, docblock }
  | .classDecl => do
    let name ← fields.required "name" Json.string?
    let isAbstract ← fields.withDefault "abstract" false Json.flag?
    let isFinal ← fields.withDefault "final" false Json.flag?
    let parent ← fields.optional "extends" Json.string?
    let interfaces ← tree.exprs? fields "implements"
    let docblock ← fields.optional "docblock" Json.string?
    let members ← tree.members? fields
    return .classDecl { name, isAbstract, isFinal, parent, interfaces, docblock, members }
  | .interfaceDecl => do
    let name ← fields.required "name" Json.string?
    let parents ← tree.exprs? fields "extends"
    let docblock ← fields.optional "docblock" Json.string?
    let members ← tree.members? fields
    return .interfaceDecl { name, parents, docblock, members }

def node? (json : Json) : Option Node := do
  let fields ← json.object?
  let form ← fields.required "type" (Json.choice? NodeForm.all fun form => [form.tag])
  let kind ← tree.nodeKind? fields form
  let pos ← Position.ofFields? fields
  let docblocks ← docblocks? fields
  return { kind, pos, docblocks }

end TreeReader

/-- The top-level nodes of a unit. No tree is nested deeper than the JSON it is read from. -/
def unitOfJson? (json : Json) : Option (List Node) :=
  json.list? (TreeReader.ofDepth json.depth).node?

end Zephir
