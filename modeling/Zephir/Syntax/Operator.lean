/-!
The closed families of names inside the syntax tree: kinds of literals and accesses, operators,
and the locations that assignments write to.
-/

namespace Zephir

inductive LiteralKind
  | bool
  | int
  | double
  | string
  | istring
  | char
  | constant
  deriving DecidableEq

inductive AccessKind
  | element
  | property
  | dynamicProperty
  | stringProperty
  | staticProperty
  | classConstant
  deriving DecidableEq

/-- Forms with one operand. `group` is an expression in parentheses. -/
inductive UnaryOp
  | not
  | bitNot
  | minus
  | plus
  | clone
  | isset
  | empty
  | typeOf
  | likely
  | unlikely
  | group
  | require
  deriving DecidableEq

inductive BinaryOp
  | add
  | sub
  | mul
  | div
  | mod
  | bitOr
  | bitAnd
  | bitXor
  | shiftLeft
  | shiftRight
  | concat
  | equals
  | notEquals
  | identical
  | notIdentical
  | and
  | or
  | less
  | lessEqual
  | greater
  | greaterEqual
  deriving DecidableEq

inductive RangeKind
  | inclusive
  | exclusive
  deriving DecidableEq

inductive AssignMode
  | set
  | increment
  | decrement
  deriving DecidableEq

/-- How the variable, the property and the indices of an assignment make up a location. -/
inductive AssignTarget
  | variable
  | dynamicVariable
  | dynamicVariableString
  | variableAppend
  | arrayIndex
  | arrayIndexAppend
  | objectProperty
  | objectPropertyAppend
  | objectPropertyArrayIndex
  | objectPropertyArrayIndexAppend
  | objectPropertyIncr
  | objectPropertyDecr
  | stringDynamicObjectProperty
  | variableDynamicObjectProperty
  | staticProperty
  | staticPropertyAppend
  | staticPropertyArrayIndex
  | staticPropertyArrayIndexAppend
  | incr
  | decr
  deriving DecidableEq

inductive AssignOp
  | assign
  | add
  | sub
  | mul
  | div
  | concat
  | mod
  deriving DecidableEq

inductive EffectKind
  | methodCall
  | call
  | staticCall
  | throw
  | unset
  | require
  deriving DecidableEq

inductive JumpKind
  | next
  | leave
  deriving DecidableEq

inductive LoopKind
  | testFirst
  | testLast
  deriving DecidableEq

namespace AssignTarget

def all : List AssignTarget :=
  [.variable, .dynamicVariable, .dynamicVariableString, .variableAppend, .arrayIndex,
    .arrayIndexAppend, .objectProperty, .objectPropertyAppend, .objectPropertyArrayIndex,
    .objectPropertyArrayIndexAppend, .objectPropertyIncr, .objectPropertyDecr,
    .stringDynamicObjectProperty, .variableDynamicObjectProperty, .staticProperty,
    .staticPropertyAppend, .staticPropertyArrayIndex, .staticPropertyArrayIndexAppend, .incr,
    .decr]

def name : AssignTarget → String
  | .variable => "variable"
  | .dynamicVariable => "dynamic-variable"
  | .dynamicVariableString => "dynamic-variable-string"
  | .variableAppend => "variable-append"
  | .arrayIndex => "array-index"
  | .arrayIndexAppend => "array-index-append"
  | .objectProperty => "object-property"
  | .objectPropertyAppend => "object-property-append"
  | .objectPropertyArrayIndex => "object-property-array-index"
  | .objectPropertyArrayIndexAppend => "object-property-array-index-append"
  | .objectPropertyIncr => "object-property-incr"
  | .objectPropertyDecr => "object-property-decr"
  | .stringDynamicObjectProperty => "string-dynamic-object-property"
  | .variableDynamicObjectProperty => "variable-dynamic-object-property"
  | .staticProperty => "static-property"
  | .staticPropertyAppend => "static-property-append"
  | .staticPropertyArrayIndex => "static-property-array-index"
  | .staticPropertyArrayIndexAppend => "static-property-array-index-append"
  | .incr => "incr"
  | .decr => "decr"

end AssignTarget

namespace AssignOp

def all : List AssignOp :=
  [.assign, .add, .sub, .mul, .div, .concat, .mod]

def name : AssignOp → String
  | .assign => "assign"
  | .add => "add-assign"
  | .sub => "sub-assign"
  | .mul => "mul-assign"
  | .div => "div-assign"
  | .concat => "concat-assign"
  | .mod => "mod-assign"

def php : AssignOp → String
  | .assign => "="
  | .add => "+="
  | .sub => "-="
  | .mul => "*="
  | .div => "/="
  | .concat => ".="
  | .mod => "%="

end AssignOp

def BinaryOp.php : BinaryOp → String
  | .add => "+"
  | .sub => "-"
  | .mul => "*"
  | .div => "/"
  | .mod => "%"
  | .bitOr => "|"
  | .bitAnd => "&"
  | .bitXor => "^"
  | .shiftLeft => "<<"
  | .shiftRight => ">>"
  | .concat => "."
  | .equals => "=="
  | .notEquals => "!="
  | .identical => "==="
  | .notIdentical => "!=="
  | .and => "&&"
  | .or => "||"
  | .less => "<"
  | .lessEqual => "<="
  | .greater => ">"
  | .greaterEqual => ">="

def UnaryOp.sign? : UnaryOp → Option String
  | .not => some "!"
  | .bitNot => some "~"
  | .minus => some "-"
  | .plus => some "+"
  | _ => none

end Zephir
