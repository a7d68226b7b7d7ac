import Zephir.Syntax.Tree

/-!
How tightly expressions bind in PHP: the higher the level, the tighter. An operand that binds more
loosely than its place allows is written in parentheses.
-/

namespace Zephir.Php

def equalityLevel : Nat := 7

def comparisonLevel : Nat := 8

def unaryLevel : Nat := 15

def primaryLevel : Nat := 16

def ternaryLevel : Nat := 1

def binaryLevel : BinaryOp → Nat
  | .or => 2
  | .and => 3
  | .bitOr => 4
  | .bitXor => 5
  | .bitAnd => 6
  | .equals | .notEquals | .identical | .notIdentical => equalityLevel
  | .less | .lessEqual | .greater | .greaterEqual => comparisonLevel
  | .concat => 9
  | .shiftLeft | .shiftRight => 10
  | .add | .sub => 11
  | .mul | .div | .mod => 12

def leftLevel (op : BinaryOp) : Nat :=
  let level := binaryLevel op
  if level = equalityLevel ∨ level = comparisonLevel then level + 1 else level

def unaryFormLevel : UnaryOp → Nat
  | .require => 0
  | .not => 13
  | .bitNot | .minus | .plus | .clone => unaryLevel
  | _ => primaryLevel

def level : ExprKind → Nat
  | .closure .. => 0
  | .ternary .. => ternaryLevel
  | .binary op _ _ => binaryLevel op
  | .instanceOf .. => 14
  | .unary op _ => unaryFormLevel op
  | .cast .. => unaryLevel
  | .new .. => unaryLevel
  | _ => primaryLevel

/-- Whether the text of an expression starts with the sign, so that the same sign in front of it
would run into it. -/
def leadsWith (e : Expr) (sign : String) : Bool :=
  match e.kind with
  | .unary .minus _ => sign == "-"
  | .unary .plus _ => sign == "+"
  | .literal .int text => sign.toList.isPrefixOf text.toList
  | .literal .double text => sign.toList.isPrefixOf text.toList
  | _ => false

end Zephir.Php
