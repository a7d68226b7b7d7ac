import Zephir.Diagnostic.Basic
import Zephir.Syntax.Declaration

/-!
The places that a tree speaks of: those of its nodes, of its parameters and locals, and of the
comments attached to it, at any depth and inside closures too.
-/

namespace Zephir

def Diagnostic.positions (d : Diagnostic) : List Position :=
  d.labels.map (·.pos)

def docPositions (docblocks : List Docblock) : List Position :=
  docblocks.map (·.pos)

def localPositions (locals : Locals) : List Position :=
  locals.values.map (·.pos)

mutual

def exprPositions : Expr → List Position
  | ⟨kind, pos, _, _⟩ => pos :: partPositions kind

def partPositions : ExprKind → List Position
  | .array entries => entryPositions entries
  | .access _ object member => exprPositions object ++ exprPositions member
  | .call _ _ arguments => exprsPositions arguments
  | .methodCall receiver _ _ arguments => exprPositions receiver ++ exprsPositions arguments
  | .staticCall _ arguments => exprsPositions arguments
  | .new _ _ arguments => exprsPositions arguments
  | .newType _ arguments => exprsPositions arguments
  | .unary _ operand => exprPositions operand
  | .binary _ left right => exprPositions left ++ exprPositions right
  | .instanceOf value className => exprPositions value ++ exprPositions className
  | .range _ low high => exprPositions low ++ exprPositions high
  | .ternary condition yes no =>
    exprPositions condition ++ exprPositions yes ++ exprPositions no
  | .cast _ operand => exprPositions operand
  | .typeHint hint operand => exprPositions hint ++ exprPositions operand
  | .fetch target source => exprPositions target ++ exprPositions source
  | .closure parameters body locals =>
    parameterPositions parameters ++ blockPositions body ++ localPositions locals
  | .closureArrow parameter body => exprPositions parameter ++ exprPositions body
  | _ => []

def exprsPositions : List Expr → List Position
  | [] => []
  | e :: rest => exprPositions e ++ exprsPositions rest

def optionPositions : Option Expr → List Position
  | none => []
  | some e => exprPositions e

def entryPositions : List ArrayEntry → List Position
  | [] => []
  | ⟨key, value⟩ :: rest => optionPositions key ++ exprPositions value ++ entryPositions rest

def parameterPositions : List Parameter → List Position
  | [] => []
  | ⟨_, _, initial, _, _, pos⟩ :: rest => pos :: optionPositions initial ++ parameterPositions rest

def blockPositions : List Statement → List Position
  | [] => []
  | s :: rest => statementPositions s ++ blockPositions rest

def statementPositions : Statement → List Position
  | ⟨kind, pos, docblocks⟩ => pos :: docPositions docblocks ++ innerPositions kind

def innerPositions : StatementKind → List Position
  | .lets assignments => letPositions assignments
  | .declare _ declared => declaredPositions declared
  | .fetch e => exprPositions e
  | .assign _ ⟨_, _, _, _, index, value⟩ => exprsPositions index ++ optionPositions value
  | .echo expressions => exprsPositions expressions
  | .effect _ e => exprPositions e
  | .ret value => optionPositions value
  | .branch condition body elseIfs otherwise =>
    exprPositions condition ++ blockPositions body ++ elseIfPositions elseIfs ++
      otherwisePositions otherwise
  | .whileLoop _ condition body => exprPositions condition ++ blockPositions body
  | .loop body => blockPositions body
  | .forLoop _ iterated body => exprPositions iterated ++ blockPositions body
  | .switch subject clauses => exprPositions subject ++ clausePositions clauses
  | .tryCatch body catches => blockPositions body ++ catchPositions catches
  | _ => []

def letPositions : List LetAssignment → List Position
  | [] => []
  | ⟨⟨_, _, _, _, index, value⟩, pos⟩ :: rest =>
    pos :: exprsPositions index ++ optionPositions value ++ letPositions rest

def declaredPositions : List DeclaredVariable → List Position
  | [] => []
  | ⟨_, value, pos⟩ :: rest => pos :: optionPositions value ++ declaredPositions rest

def elseIfPositions : List ElseIf → List Position
  | [] => []
  | ⟨condition, body, pos⟩ :: rest =>
    pos :: exprPositions condition ++ blockPositions body ++ elseIfPositions rest

def otherwisePositions : Option (List Statement) → List Position
  | none => []
  | some body => blockPositions body

def clausePositions : List SwitchClause → List Position
  | [] => []
  | ⟨test, body⟩ :: rest => optionPositions test ++ blockPositions body ++ clausePositions rest

def catchPositions : List Catch → List Position
  | [] => []
  | ⟨classes, binding, body, pos⟩ :: rest =>
    pos :: exprsPositions classes ++ optionPositions binding ++ blockPositions body ++
      catchPositions rest

end

def Constant.positions (c : Constant) : List Position :=
  c.pos :: docPositions c.docblocks ++ optionPositions c.value

def Property.positions (p : Property) : List Position :=
  p.pos :: docPositions p.docblocks ++ optionPositions p.value ++ p.shortcuts.map (·.pos)

def Method.positions (m : Method) : List Position :=
  m.pos :: docPositions m.docblocks ++ parameterPositions m.parameters ++ blockPositions m.body ++
    localPositions m.locals

def Definition.positions (raw : Definition) : List Position :=
  raw.constants.flatMap Constant.positions ++ raw.properties.flatMap Property.positions ++
    raw.methods.flatMap Method.positions

def Members.positions (m : Members) : List Position :=
  m.definition.toList.flatMap Definition.positions ++
    m.constants.values.flatMap Constant.positions ++
    m.properties.values.flatMap Property.positions ++
    m.methods.values.flatMap Method.positions

def NodeKind.positions : NodeKind → List Position
  | .require e => exprPositions e
  | .functionDecl decl =>
    parameterPositions decl.parameters ++ blockPositions decl.body ++ localPositions decl.locals
  | .classDecl decl => exprsPositions decl.interfaces ++ decl.members.positions
  | .interfaceDecl decl => exprsPositions decl.parents ++ decl.members.positions
  | _ => []

def Node.positions (n : Node) : List Position :=
  n.pos :: docPositions n.docblocks ++ n.kind.positions

/-- All places of a unit. -/
def unitPositions (unit : List Node) : List Position :=
  unit.flatMap Node.positions

def AllAt (known : Position → Prop) (positions : List Position) : Prop :=
  ∀ pos ∈ positions, known pos

section AllAt

variable {known : Position → Prop} {first second : List Position}

@[simp] theorem allAt_nil : AllAt known [] := by
  simp [AllAt]

@[simp] theorem allAt_cons {pos : Position} :
    AllAt known (pos :: first) ↔ known pos ∧ AllAt known first :=
  List.forall_mem_cons

@[simp] theorem allAt_append :
    AllAt known (first ++ second) ↔ AllAt known first ∧ AllAt known second :=
  List.forall_mem_append

theorem allAt_flatMap {α : Type} {values : List α} {positions : α → List Position} :
    AllAt known (values.flatMap positions) ↔ ∀ value ∈ values, AllAt known (positions value) :=
  List.forall_mem_flatMap

end AllAt

end Zephir
