import Zephir.Syntax.Declaration

/-!
The form of a node: its kind without its contents. Every form has a tag, the text of the node's
`type` field, and a place in the list of its family, which a `type` field may give instead.
-/

namespace Zephir

inductive ExprForm
  | null
  | literal (kind : LiteralKind)
  | emptyArray
  | array
  | var
  | access (kind : AccessKind)
  | call
  | methodCall
  | staticCall
  | new
  | newType
  | unary (op : UnaryOp)
  | binary (op : BinaryOp)
  | instanceOf
  | range (kind : RangeKind)
  | ternary
  | cast
  | typeHint
  | fetch
  | closure
  | closureArrow
  deriving DecidableEq

inductive StatementForm
  | lets
  | declare
  | fetch
  | assign (mode : AssignMode)
  | echo
  | effect (kind : EffectKind)
  | ret
  | jump (kind : JumpKind)
  | empty
  | branch
  | whileLoop (kind : LoopKind)
  | loop
  | forLoop
  | switch
  | tryCatch
  | comment
  | cblock
  deriving DecidableEq

inductive ClauseForm
  | case
  | otherwise
  deriving DecidableEq

inductive NodeForm
  | namespaceDecl
  | useDecl
  | require
  | comment
  | cblock
  | functionDecl
  | classDecl
  | interfaceDecl
  deriving DecidableEq

namespace ExprForm

def all : List ExprForm :=
  [.null, .literal .bool, .literal .int, .literal .double, .literal .string, .literal .istring,
    .literal .char, .literal .constant, .emptyArray, .array, .var, .access .element,
    .access .property, .access .dynamicProperty, .access .stringProperty,
    .access .staticProperty, .access .classConstant, .call, .methodCall, .staticCall, .new,
    .newType, .unary .not, .unary .bitNot, .unary .minus, .unary .plus, .unary .clone,
    .unary .isset, .unary .empty, .unary .typeOf, .unary .likely, .unary .unlikely,
    .unary .group, .unary .require, .binary .add, .binary .sub, .binary .mul, .binary .div,
    .binary .mod, .binary .bitOr, .binary .bitAnd, .binary .bitXor, .binary .shiftLeft,
    .binary .shiftRight, .binary .concat, .binary .equals, .binary .notEquals,
    .binary .identical, .binary .notIdentical, .binary .and, .binary .or, .instanceOf,
    .binary .less, .binary .lessEqual, .binary .greater, .binary .greaterEqual,
    .range .inclusive, .range .exclusive, .ternary, .cast, .typeHint, .fetch, .closure,
    .closureArrow]

def tag : ExprForm → String
  | .null => "null"
  | .literal .bool => "bool"
  | .literal .int => "int"
  | .literal .double => "double"
  | .literal .string => "string"
  | .literal .istring => "istring"
  | .literal .char => "char"
  | .literal .constant => "constant"
  | .emptyArray => "empty-array"
  | .array => "array"
  | .var => "variable"
  | .access .element => "array-access"
  | .access .property => "property-access"
  | .access .dynamicProperty => "property-dynamic-access"
  | .access .stringProperty => "property-string-access"
  | .access .staticProperty => "static-property-access"
  | .access .classConstant => "static-constant-access"
  | .call => "fcall"
  | .methodCall => "mcall"
  | .staticCall => "scall"
  | .new => "new"
  | .newType => "new-type"
  | .unary .not => "not"
  | .unary .bitNot => "bitwise_not"
  | .unary .minus => "minus"
  | .unary .plus => "plus"
  | .unary .clone => "clone"
  | .unary .isset => "isset"
  | .unary .empty => "empty"
  | .unary .typeOf => "typeof"
  | .unary .likely => "likely"
  | .unary .unlikely => "unlikely"
  | .unary .group => "list"
  | .unary .require => "require"
  | .binary .add => "add"
  | .binary .sub => "sub"
  | .binary .mul => "mul"
  | .binary .div => "div"
  | .binary .mod => "mod"
  | .binary .bitOr => "bitwise_or"
  | .binary .bitAnd => "bitwise_and"
  | .binary .bitXor => "bitwise_xor"
  | .binary .shiftLeft => "bitwise_shiftleft"
  | .binary .shiftRight => "bitwise_shiftright"
  | .binary .concat => "concat"
  | .binary .equals => "equals"
  | .binary .notEquals => "not-equals"
  | .binary .identical => "identical"
  | .binary .notIdentical => "not-identical"
  | .binary .and => "and"
  | .binary .or => "or"
  | .instanceOf => "instanceof"
  | .binary .less => "less"
  | .binary .lessEqual => "less-equal"
  | .binary .greater => "greater"
  | .binary .greaterEqual => "greater-equal"
  | .range .inclusive => "irange"
  | .range .exclusive => "erange"
  | .ternary => "ternary"
  | .cast => "cast"
  | .typeHint => "type-hint"
  | .fetch => "fetch"
  | .closure => "closure"
  | .closureArrow => "closure-arrow"

/-- The tags that are read as the form. Those of the bitwise operators may also be spelled with a
hyphen. -/
def tags : ExprForm → List String
  | .unary .bitNot => ["bitwise_not", "bitwise-not"]
  | .binary .bitOr => ["bitwise_or", "bitwise-or"]
  | .binary .bitAnd => ["bitwise_and", "bitwise-and"]
  | .binary .bitXor => ["bitwise_xor", "bitwise-xor"]
  | .binary .shiftLeft => ["bitwise_shiftleft", "bitwise-shiftleft"]
  | .binary .shiftRight => ["bitwise_shiftright", "bitwise-shiftright"]
  | form => [form.tag]

end ExprForm

namespace StatementForm

def all : List StatementForm :=
  [.lets, .declare, .fetch, .assign .set, .assign .increment, .assign .decrement, .echo,
    .effect .methodCall, .effect .call, .effect .staticCall, .ret, .effect .throw,
    .effect .unset, .effect .require, .jump .next, .jump .leave, .empty, .branch,
    .whileLoop .testFirst, .whileLoop .testLast, .loop, .forLoop, .switch, .tryCatch, .comment,
    .cblock]

def tag : StatementForm → String
  | .lets => "let"
  | .declare => "declare"
  | .fetch => "fetch"
  | .assign .set => "assign"
  | .assign .increment => "incr"
  | .assign .decrement => "decr"
  | .echo => "echo"
  | .effect .methodCall => "mcall"
  | .effect .call => "fcall"
  | .effect .staticCall => "scall"
  | .ret => "return"
  | .effect .throw => "throw"
  | .effect .unset => "unset"
  | .effect .require => "require"
  | .jump .next => "continue"
  | .jump .leave => "break"
  | .empty => "empty"
  | .branch => "if"
  | .whileLoop .testFirst => "while"
  | .whileLoop .testLast => "do-while"
  | .loop => "loop"
  | .forLoop => "for"
  | .switch => "switch"
  | .tryCatch => "try-catch"
  | .comment => "comment"
  | .cblock => "cblock"

end StatementForm

namespace ClauseForm

def all : List ClauseForm := [.case, .otherwise]

def tag : ClauseForm → String
  | .case => "case"
  | .otherwise => "default"

end ClauseForm

namespace NodeForm

def all : List NodeForm :=
  [.namespaceDecl, .useDecl, .require, .comment, .cblock, .functionDecl, .classDecl,
    .interfaceDecl]

def tag : NodeForm → String
  | .namespaceDecl => "namespace"
  | .useDecl => "use"
  | .require => "require"
  | .comment => "comment"
  | .cblock => "cblock"
  | .functionDecl => "function"
  | .classDecl => "class"
  | .interfaceDecl => "interface"

end NodeForm

def ExprKind.form : ExprKind → ExprForm
  | .null => .null
  | .literal kind _ => .literal kind
  | .emptyArray => .emptyArray
  | .array _ => .array
  | .var _ => .var
  | .access kind _ _ => .access kind
  | .call .. => .call
  | .methodCall .. => .methodCall
  | .staticCall .. => .staticCall
  | .new .. => .new
  | .newType .. => .newType
  | .unary op _ => .unary op
  | .binary op _ _ => .binary op
  | .instanceOf .. => .instanceOf
  | .range kind _ _ => .range kind
  | .ternary .. => .ternary
  | .cast .. => .cast
  | .typeHint .. => .typeHint
  | .fetch .. => .fetch
  | .closure .. => .closure
  | .closureArrow .. => .closureArrow

def ExprKind.tag (kind : ExprKind) : String :=
  kind.form.tag

def StatementKind.form : StatementKind → StatementForm
  | .lets _ => .lets
  | .declare .. => .declare
  | .fetch _ => .fetch
  | .assign mode _ => .assign mode
  | .echo _ => .echo
  | .effect kind _ => .effect kind
  | .ret _ => .ret
  | .jump kind => .jump kind
  | .empty => .empty
  | .branch .. => .branch
  | .whileLoop kind _ _ => .whileLoop kind
  | .loop _ => .loop
  | .forLoop .. => .forLoop
  | .switch .. => .switch
  | .tryCatch .. => .tryCatch
  | .comment _ => .comment
  | .cblock _ => .cblock

def StatementKind.tag (kind : StatementKind) : String :=
  kind.form.tag

def NodeKind.form : NodeKind → NodeForm
  | .namespaceDecl _ => .namespaceDecl
  | .useDecl _ => .useDecl
  | .require _ => .require
  | .comment _ => .comment
  | .cblock _ => .cblock
  | .functionDecl _ => .functionDecl
  | .classDecl _ => .classDecl
  | .interfaceDecl _ => .interfaceDecl

def NodeKind.tag (kind : NodeKind) : String :=
  kind.form.tag

end Zephir
