import Zephir.Syntax.Declaration
import Zephir.Syntax.Form

/-!
What holds of every node of a tree. A check says which forms, assignments, loops and handlers may
occur, and a tree passes it if all of its nodes do, at any depth and inside closures too.
-/

namespace Zephir

def ExprForm.isSource : ExprForm → Bool
  | .literal .istring => true
  | .access .stringProperty => true
  | .newType => true
  | .unary .empty => true
  | .unary .likely => true
  | .unary .unlikely => true
  | .range _ => true
  | .typeHint => true
  | .fetch => true
  | .closureArrow => true
  | _ => false

def StatementForm.isSource : StatementForm → Bool
  | .lets => true
  | .declare => true
  | .fetch => true
  | .comment => true
  | .cblock => true
  | _ => false

/-- A test of nodes, by what is looked at in each. -/
structure Check where
  expr : ExprForm → Prop := fun _ => True
  statement : StatementForm → Prop := fun _ => True
  assign : AssignMode → AssignTarget → Prop := fun _ _ => True
  loop : ForHead → Prop := fun _ => True
  handlers : List Catch → Prop := fun _ => True

mutual

/-- Every node of an expression passes the check. -/
def EveryExpr (c : Check) : Expr → Prop
  | ⟨kind, _, _, _⟩ => c.expr kind.form ∧ EveryPart c kind

def EveryPart (c : Check) : ExprKind → Prop
  | .array entries => EveryEntries c entries
  | .access _ object member => EveryExpr c object ∧ EveryExpr c member
  | .call _ _ arguments => EveryExprs c arguments
  | .methodCall receiver _ _ arguments => EveryExpr c receiver ∧ EveryExprs c arguments
  | .staticCall _ arguments => EveryExprs c arguments
  | .new _ _ arguments => EveryExprs c arguments
  | .newType _ arguments => EveryExprs c arguments
  | .unary _ operand => EveryExpr c operand
  | .binary _ left right => EveryExpr c left ∧ EveryExpr c right
  | .instanceOf value className => EveryExpr c value ∧ EveryExpr c className
  | .range _ low high => EveryExpr c low ∧ EveryExpr c high
  | .ternary condition yes no => EveryExpr c condition ∧ EveryExpr c yes ∧ EveryExpr c no
  | .cast _ operand => EveryExpr c operand
  | .typeHint hint operand => EveryExpr c hint ∧ EveryExpr c operand
  | .fetch target source => EveryExpr c target ∧ EveryExpr c source
  | .closure parameters body _ => EveryParameters c parameters ∧ EveryBlock c body
  | .closureArrow parameter body => EveryExpr c parameter ∧ EveryExpr c body
  | _ => True

def EveryExprs (c : Check) : List Expr → Prop
  | [] => True
  | e :: rest => EveryExpr c e ∧ EveryExprs c rest

def EveryOption (c : Check) : Option Expr → Prop
  | none => True
  | some e => EveryExpr c e

def EveryEntries (c : Check) : List ArrayEntry → Prop
  | [] => True
  | ⟨key, value⟩ :: rest => EveryOption c key ∧ EveryExpr c value ∧ EveryEntries c rest

def EveryParameters (c : Check) : List Parameter → Prop
  | [] => True
  | ⟨_, _, initial, _, _, _⟩ :: rest => EveryOption c initial ∧ EveryParameters c rest

def EveryBlock (c : Check) : List Statement → Prop
  | [] => True
  | s :: rest => EveryStatement c s ∧ EveryBlock c rest

def EveryStatement (c : Check) : Statement → Prop
  | ⟨kind, _, _⟩ => c.statement kind.form ∧ EveryInner c kind

/-- Every node inside a statement of the kind passes the check, and so do its own assignment, loop
head and handlers. -/
def EveryInner (c : Check) : StatementKind → Prop
  | .lets assignments => EveryLets c assignments
  | .declare _ declared => EveryDeclared c declared
  | .fetch e => EveryExpr c e
  | .assign mode ⟨target, _, _, _, index, value⟩ =>
    c.assign mode target ∧ EveryExprs c index ∧ EveryOption c value
  | .echo expressions => EveryExprs c expressions
  | .effect _ e => EveryExpr c e
  | .ret value => EveryOption c value
  | .branch condition body elseIfs otherwise =>
    EveryExpr c condition ∧ EveryBlock c body ∧ EveryElseIfs c elseIfs ∧ EveryOtherwise c otherwise
  | .whileLoop _ condition body => EveryExpr c condition ∧ EveryBlock c body
  | .loop body => EveryBlock c body
  | .forLoop head iterated body => c.loop head ∧ EveryExpr c iterated ∧ EveryBlock c body
  | .switch subject clauses => EveryExpr c subject ∧ EveryClauses c clauses
  | .tryCatch body catches => c.handlers catches ∧ EveryBlock c body ∧ EveryCatches c catches
  | _ => True

def EveryLets (c : Check) : List LetAssignment → Prop
  | [] => True
  | ⟨⟨_, _, _, _, index, value⟩, _⟩ :: rest =>
    EveryExprs c index ∧ EveryOption c value ∧ EveryLets c rest

def EveryDeclared (c : Check) : List DeclaredVariable → Prop
  | [] => True
  | ⟨_, value, _⟩ :: rest => EveryOption c value ∧ EveryDeclared c rest

def EveryElseIfs (c : Check) : List ElseIf → Prop
  | [] => True
  | ⟨condition, body, _⟩ :: rest => EveryExpr c condition ∧ EveryBlock c body ∧ EveryElseIfs c rest

def EveryOtherwise (c : Check) : Option (List Statement) → Prop
  | none => True
  | some body => EveryBlock c body

def EveryClauses (c : Check) : List SwitchClause → Prop
  | [] => True
  | ⟨test, body⟩ :: rest => EveryOption c test ∧ EveryBlock c body ∧ EveryClauses c rest

def EveryCatches (c : Check) : List Catch → Prop
  | [] => True
  | ⟨classes, binding, body, _⟩ :: rest =>
    EveryExprs c classes ∧ EveryOption c binding ∧ EveryBlock c body ∧ EveryCatches c rest

end

def EveryMethod (c : Check) (m : Method) : Prop :=
  EveryParameters c m.parameters ∧ EveryBlock c m.body

structure EveryMembers (c : Check) (m : Members) : Prop where
  constants : ∀ constant ∈ m.constants.values, EveryOption c constant.value
  properties : ∀ property ∈ m.properties.values, EveryOption c property.value
  methods : ∀ method ∈ m.methods.values, EveryMethod c method

/-- Every node of a declaration passes the check. A comment or C block on the top level counts as
the statement of that form. -/
def EveryNode (c : Check) : NodeKind → Prop
  | .namespaceDecl _ => True
  | .useDecl _ => True
  | .require e => EveryExpr c e
  | .comment _ => c.statement .comment
  | .cblock _ => c.statement .cblock
  | .functionDecl decl => EveryParameters c decl.parameters ∧ EveryBlock c decl.body
  | .classDecl decl => EveryExprs c decl.interfaces ∧ EveryMembers c decl.members
  | .interfaceDecl decl => EveryExprs c decl.parents ∧ EveryMembers c decl.members

def EveryUnit (c : Check) (unit : List Node) : Prop :=
  ∀ node ∈ unit, EveryNode c node.kind

variable {c : Check}

@[simp] theorem everyExprs_append {left right : List Expr} :
    EveryExprs c (left ++ right) ↔ EveryExprs c left ∧ EveryExprs c right := by
  induction left with
  | nil => simp [EveryExprs]
  | cons e rest ih => simp [EveryExprs, ih, and_assoc]

@[simp] theorem everyBlock_append {left right : List Statement} :
    EveryBlock c (left ++ right) ↔ EveryBlock c left ∧ EveryBlock c right := by
  induction left with
  | nil => simp [EveryBlock]
  | cons s rest ih => simp [EveryBlock, ih, and_assoc]

@[simp] theorem everyCatches_append {left right : List Catch} :
    EveryCatches c (left ++ right) ↔ EveryCatches c left ∧ EveryCatches c right := by
  induction left with
  | nil => simp [EveryCatches]
  | cons clause rest ih =>
      obtain ⟨classes, binding, body, pos⟩ := clause
      simp [EveryCatches, ih, and_assoc]

@[simp] theorem everyExpr_withType {e : Expr} {dataType : String} :
    EveryExpr c (e.withType dataType) ↔ EveryExpr c e := by
  obtain ⟨kind, pos, own, doCast⟩ := e
  simp [Expr.withType, EveryExpr]

@[simp] theorem everyExpr_plain {kind : ExprKind} {pos : Position} :
    EveryExpr c (.plain kind pos) ↔ c.expr kind.form ∧ EveryPart c kind := by
  rw [Expr.plain, EveryExpr]

end Zephir
