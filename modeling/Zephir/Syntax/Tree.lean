import Zephir.OrderedMap
import Zephir.Syntax.Operator
import Zephir.Syntax.Position

/-!
Expressions and statements. The same tree holds what the parser wrote and what the phases leave:
some kinds (`let`, `declare`, `fetch` and their like) only occur before the phases, others only
after them.
-/

namespace Zephir

structure Local where
  dataType : String
  pos : Position
  deriving DecidableEq

abbrev Locals := OrderedMap Local

structure StaticCallee where
  className : String
  dynamicClass : Bool
  name : String
  dynamic : Bool
  deriving DecidableEq

/-- The head of a `for` loop. A `counted` loop runs its key from zero up to the variable that
`length` names. -/
structure ForHead where
  key : Option String
  value : Option String
  reverse : Bool
  counted : Bool
  length : Option String
  deriving DecidableEq

mutual

/-- An expression with its place, its static type if that is known, and whether it is a cast. -/
structure Expr where
  kind : ExprKind
  pos : Position
  dataType : Option String := none
  doCast : Bool := false

inductive ExprKind
  | null
  | literal (kind : LiteralKind) (text : String)
  | emptyArray
  | array (entries : List ArrayEntry)
  | var (name : String)
  | access (kind : AccessKind) (object member : Expr)
  | call (name : String) (callType : UInt8) (arguments : List Expr)
  | methodCall (receiver : Expr) (name : String) (callType : UInt8) (arguments : List Expr)
  | staticCall (callee : StaticCallee) (arguments : List Expr)
  | new (className : String) (dynamic : Bool) (arguments : List Expr)
  | newType (typeName : String) (arguments : List Expr)
  | unary (op : UnaryOp) (operand : Expr)
  | binary (op : BinaryOp) (left right : Expr)
  | instanceOf (value className : Expr)
  | range (kind : RangeKind) (low high : Expr)
  | ternary (condition yes no : Expr)
  | cast (typeName : String) (operand : Expr)
  | typeHint (hint operand : Expr)
  | fetch (target source : Expr)
  | closure (parameters : List Parameter) (body : List Statement) (locals : Locals)
  | closureArrow (parameter body : Expr)

structure ArrayEntry where
  key : Option Expr
  value : Expr

structure Parameter where
  name : String
  dataType : String
  initial : Option Expr := none
  constant : Bool := false
  reference : Bool := false
  pos : Position

structure Statement where
  kind : StatementKind
  pos : Position
  docblocks : List Docblock := []

inductive StatementKind
  | lets (assignments : List LetAssignment)
  | declare (dataType : String) (declared : List DeclaredVariable)
  | fetch (expr : Expr)
  | assign (mode : AssignMode) (assign : Assign)
  | echo (expressions : List Expr)
  | effect (kind : EffectKind) (expr : Expr)
  | ret (value : Option Expr)
  | jump (kind : JumpKind)
  | empty
  | branch (condition : Expr) (body : List Statement) (elseIfs : List ElseIf)
      (otherwise : Option (List Statement))
  | whileLoop (kind : LoopKind) (condition : Expr) (body : List Statement)
  | loop (body : List Statement)
  | forLoop (head : ForHead) (iterated : Expr) (body : List Statement)
  | switch (subject : Expr) (clauses : List SwitchClause)
  | tryCatch (body : List Statement) (catches : List Catch)
  | comment (text : String)
  | cblock (text : String)

structure Assign where
  target : AssignTarget
  operator : Option AssignOp
  base : String
  property : Option String
  index : List Expr
  value : Option Expr

structure LetAssignment where
  assign : Assign
  pos : Position

structure DeclaredVariable where
  name : String
  value : Option Expr
  pos : Position

structure ElseIf where
  condition : Expr
  body : List Statement
  pos : Position

structure SwitchClause where
  test : Option Expr
  body : List Statement

structure Catch where
  classes : List Expr
  binding : Option Expr
  body : List Statement
  pos : Position

end

namespace Expr

def plain (kind : ExprKind) (pos : Position) : Expr :=
  { kind, pos }

def withType (e : Expr) (dataType : String) : Expr :=
  { e with dataType := some dataType }

def var (name : String) (pos : Position) : Expr :=
  plain (.var name) pos

def str (text : String) (pos : Position) : Expr :=
  plain (.literal .string text) pos

def nullAt (pos : Position) : Expr :=
  plain .null pos

def callOf (function : String) (arguments : List Expr) (pos : Position) : Expr :=
  plain (.call function 1 arguments) pos

def asVar? (e : Expr) : Option String :=
  match e.kind with
  | .var name => some name
  | _ => none

def name? (e : Expr) : Option String :=
  match e.kind with
  | .var name => some name
  | .literal .constant text => some text
  | .literal .string text => some text
  | _ => none

end Expr

def Assign.set (base : String) (value : Expr) : Assign :=
  { target := .variable, operator := some .assign, base, property := none, index := [],
    value := some value }

namespace Statement

def assignTo (name : String) (value : Expr) (pos : Position) : Statement :=
  { kind := .assign .set (.set name value), pos }

def prependDocs (docblocks : List Docblock) (s : Statement) : Statement :=
  { s with docblocks := docblocks ++ s.docblocks }

end Statement

end Zephir
