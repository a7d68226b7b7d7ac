import Zephir.Diagnostic.Basic
import Zephir.Syntax.Declaration

/-!
Compaction brings a loaded unit into the shape that the phases work on. Members are kept by name,
declared variables become locals of their body with a `let` in place of each initial value, and C
blocks are dropped with a warning.

What a body becomes, what it declares and what is dropped from it are three functions of the body
alone, each of which walks through the same blocks.
-/

namespace Zephir

def DeclaredVariable.initialAssignment? (v : DeclaredVariable) : Option LetAssignment :=
  v.value.map fun value => { assign := .set v.name value, pos := v.pos }

def initialLets (declared : List DeclaredVariable) : List Statement :=
  declared.filterMap fun v =>
    v.initialAssignment?.map fun assignment => { kind := .lets [assignment], pos := v.pos }

def declaredLocals (dataType : String) (declared : List DeclaredVariable) :
    List (String × Local) :=
  declared.map fun v => (v.name, { dataType, pos := v.pos })

mutual

/-- The statements of a block without C blocks and with `let` in place of `declare`. -/
def compactBlock : List Statement → List Statement
  | [] => []
  | ⟨.cblock _, _, _⟩ :: rest => compactBlock rest
  | ⟨.declare _ declared, _, _⟩ :: rest => initialLets declared ++ compactBlock rest
  | ⟨kind, pos, docblocks⟩ :: rest => ⟨compactKind kind, pos, docblocks⟩ :: compactBlock rest

def compactKind : StatementKind → StatementKind
  | .branch condition body elseIfs otherwise =>
    .branch condition (compactBlock body) (compactElseIfs elseIfs)
      (match otherwise with
      | none => none
      | some body => some (compactBlock body))
  | .whileLoop kind condition body => .whileLoop kind condition (compactBlock body)
  | .loop body => .loop (compactBlock body)
  | .forLoop head iterated body => .forLoop head iterated (compactBlock body)
  | .switch subject clauses => .switch subject (compactClauses clauses)
  | .tryCatch body catches => .tryCatch (compactBlock body) (compactCatches catches)
  | kind => kind

def compactElseIfs : List ElseIf → List ElseIf
  | [] => []
  | ⟨condition, body, pos⟩ :: rest => ⟨condition, compactBlock body, pos⟩ :: compactElseIfs rest

def compactClauses : List SwitchClause → List SwitchClause
  | [] => []
  | ⟨test, body⟩ :: rest => ⟨test, compactBlock body⟩ :: compactClauses rest

def compactCatches : List Catch → List Catch
  | [] => []
  | ⟨classes, binding, body, pos⟩ :: rest =>
    ⟨classes, binding, compactBlock body, pos⟩ :: compactCatches rest

end

mutual

def blockLocals : List Statement → List (String × Local)
  | [] => []
  | ⟨.declare dataType declared, _, _⟩ :: rest =>
    declaredLocals dataType declared ++ blockLocals rest
  | ⟨kind, _, _⟩ :: rest => kindLocals kind ++ blockLocals rest

def kindLocals : StatementKind → List (String × Local)
  | .branch _ body elseIfs otherwise =>
    blockLocals body ++ elseIfsLocals elseIfs ++
      (match otherwise with
      | none => []
      | some body => blockLocals body)
  | .whileLoop _ _ body => blockLocals body
  | .loop body => blockLocals body
  | .forLoop _ _ body => blockLocals body
  | .switch _ clauses => clausesLocals clauses
  | .tryCatch body catches => blockLocals body ++ catchesLocals catches
  | _ => []

def elseIfsLocals : List ElseIf → List (String × Local)
  | [] => []
  | ⟨_, body, _⟩ :: rest => blockLocals body ++ elseIfsLocals rest

def clausesLocals : List SwitchClause → List (String × Local)
  | [] => []
  | ⟨_, body⟩ :: rest => blockLocals body ++ clausesLocals rest

def catchesLocals : List Catch → List (String × Local)
  | [] => []
  | ⟨_, _, body, _⟩ :: rest => blockLocals body ++ catchesLocals rest

end

mutual

def blockCblocks : List Statement → List Position
  | [] => []
  | ⟨.cblock _, pos, _⟩ :: rest => pos :: blockCblocks rest
  | ⟨kind, _, _⟩ :: rest => kindCblocks kind ++ blockCblocks rest

def kindCblocks : StatementKind → List Position
  | .branch _ body elseIfs otherwise =>
    blockCblocks body ++ elseIfsCblocks elseIfs ++
      (match otherwise with
      | none => []
      | some body => blockCblocks body)
  | .whileLoop _ _ body => blockCblocks body
  | .loop body => blockCblocks body
  | .forLoop _ _ body => blockCblocks body
  | .switch _ clauses => clausesCblocks clauses
  | .tryCatch body catches => blockCblocks body ++ catchesCblocks catches
  | _ => []

def elseIfsCblocks : List ElseIf → List Position
  | [] => []
  | ⟨_, body, _⟩ :: rest => blockCblocks body ++ elseIfsCblocks rest

def clausesCblocks : List SwitchClause → List Position
  | [] => []
  | ⟨_, body⟩ :: rest => blockCblocks body ++ clausesCblocks rest

def catchesCblocks : List Catch → List Position
  | [] => []
  | ⟨_, _, body, _⟩ :: rest => blockCblocks body ++ catchesCblocks rest

end

def droppedCblock (pos : Position) : Diagnostic :=
  (Diagnostic.warning "C block has no PHP equivalent and was dropped").withLabel pos "dropped"

def Method.compact (m : Method) : Method :=
  { m with body := compactBlock m.body, locals := m.locals.insertAll (blockLocals m.body) }

def Function.compact (f : Function) : Function :=
  { f with body := compactBlock f.body, locals := f.locals.insertAll (blockLocals f.body) }

def duplicateMember (group : MemberSection) (name : String) (pos first : Position) :
    Diagnostic :=
  ((Cause.duplicateDefinition group name).at pos).withContext first "first defined here"

/-- Adds members by name, and fails on the first name that is there already. -/
def addMembers {α : Type} (group : MemberSection) (name : α → String) (pos : α → Position)
    (map : OrderedMap α) : List α → Except Diagnostic (OrderedMap α)
  | [] => .ok map
  | member :: rest =>
    match map.get? (name member) with
    | some first => .error (duplicateMember group (name member) (pos member) (pos first))
    | none => addMembers group name pos (map.insert (name member) member) rest

/-- Moves the raw member lists into the maps and gives the places of dropped C blocks. Members
without raw lists are compact already. -/
def Members.compact (m : Members) : Except Diagnostic (Members × List Position) :=
  match m.definition with
  | none => .ok (m, [])
  | some raw => do
    let constants ← addMembers .constant Constant.name Constant.pos .empty raw.constants
    let properties ← addMembers .property Property.name Property.pos .empty raw.properties
    let methods ← addMembers .method Method.name Method.pos .empty raw.methods
    return ({ definition := none, constants, properties,
              methods := methods.mapValues Method.compact },
      methods.values.flatMap fun method => blockCblocks method.body)

def Node.compact (n : Node) : Except Diagnostic (Option Node × List Position) :=
  match n.kind with
  | .cblock _ => .ok (none, [n.pos])
  | .functionDecl decl =>
    .ok (some { n with kind := .functionDecl decl.compact }, blockCblocks decl.body)
  | .classDecl decl => do
    let (members, dropped) ← decl.members.compact
    return (some { n with kind := .classDecl { decl with members } }, dropped)
  | .interfaceDecl decl => do
    let (members, dropped) ← decl.members.compact
    return (some { n with kind := .interfaceDecl { decl with members } }, dropped)
  | _ => .ok (some n, [])

def compact (unit : List Node) (collector : Collector) :
    Except Diagnostic (List Node × Collector) :=
  match unit with
  | [] => .ok ([], collector)
  | node :: rest => do
    let (node, dropped) ← node.compact
    let (nodes, collector) ←
      compact rest ((dropped.map droppedCblock).foldl Collector.emit collector)
    return (node.toList ++ nodes, collector)

end Zephir
