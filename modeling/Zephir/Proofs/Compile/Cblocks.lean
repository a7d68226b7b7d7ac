import Zephir.Proofs.Compile.MemberOrder
import Zephir.Proofs.Positions.Compile

/-!
Which C blocks of a unit are reported. Compaction warns of every C block on the top level, in the
body of a function, and in the body of a method that the parser listed, at the depth of any
statement. It does not look into closures, nor at members that are kept by name already: C blocks in
them go without a warning.
-/

namespace Zephir

mutual

def cblocksInExpr : Expr → List Position
  | ⟨kind, _, _, _⟩ => cblocksInPart kind

def cblocksInPart : ExprKind → List Position
  | .array entries => cblocksInEntries entries
  | .access _ object member => cblocksInExpr object ++ cblocksInExpr member
  | .call _ _ arguments => cblocksInExprs arguments
  | .methodCall receiver _ _ arguments => cblocksInExpr receiver ++ cblocksInExprs arguments
  | .staticCall _ arguments => cblocksInExprs arguments
  | .new _ _ arguments => cblocksInExprs arguments
  | .newType _ arguments => cblocksInExprs arguments
  | .unary _ operand => cblocksInExpr operand
  | .binary _ left right => cblocksInExpr left ++ cblocksInExpr right
  | .instanceOf value className => cblocksInExpr value ++ cblocksInExpr className
  | .range _ low high => cblocksInExpr low ++ cblocksInExpr high
  | .ternary condition yes no => cblocksInExpr condition ++ cblocksInExpr yes ++ cblocksInExpr no
  | .cast _ operand => cblocksInExpr operand
  | .typeHint hint operand => cblocksInExpr hint ++ cblocksInExpr operand
  | .fetch target source => cblocksInExpr target ++ cblocksInExpr source
  | .closure parameters body _ => cblocksInParameters parameters ++ cblocksInBlock body
  | .closureArrow parameter body => cblocksInExpr parameter ++ cblocksInExpr body
  | _ => []

def cblocksInExprs : List Expr → List Position
  | [] => []
  | e :: rest => cblocksInExpr e ++ cblocksInExprs rest

def cblocksInOption : Option Expr → List Position
  | none => []
  | some e => cblocksInExpr e

def cblocksInEntries : List ArrayEntry → List Position
  | [] => []
  | ⟨key, value⟩ :: rest => cblocksInOption key ++ cblocksInExpr value ++ cblocksInEntries rest

def cblocksInParameters : List Parameter → List Position
  | [] => []
  | ⟨_, _, initial, _, _, _⟩ :: rest => cblocksInOption initial ++ cblocksInParameters rest

def cblocksInBlock : List Statement → List Position
  | [] => []
  | ⟨.cblock _, pos, _⟩ :: rest => pos :: cblocksInBlock rest
  | ⟨kind, _, _⟩ :: rest => cblocksInKind kind ++ cblocksInBlock rest

def cblocksInKind : StatementKind → List Position
  | .lets assignments => cblocksInLets assignments
  | .declare _ declared => cblocksInDeclared declared
  | .fetch e => cblocksInExpr e
  | .assign _ ⟨_, _, _, _, index, value⟩ => cblocksInExprs index ++ cblocksInOption value
  | .echo expressions => cblocksInExprs expressions
  | .effect _ e => cblocksInExpr e
  | .ret value => cblocksInOption value
  | .branch condition body elseIfs otherwise =>
    cblocksInExpr condition ++ cblocksInBlock body ++ cblocksInElseIfs elseIfs ++
      cblocksInOtherwise otherwise
  | .whileLoop _ condition body => cblocksInExpr condition ++ cblocksInBlock body
  | .loop body => cblocksInBlock body
  | .forLoop _ iterated body => cblocksInExpr iterated ++ cblocksInBlock body
  | .switch subject clauses => cblocksInExpr subject ++ cblocksInClauses clauses
  | .tryCatch body catches => cblocksInBlock body ++ cblocksInCatches catches
  | _ => []

def cblocksInLets : List LetAssignment → List Position
  | [] => []
  | ⟨⟨_, _, _, _, index, value⟩, _⟩ :: rest =>
    cblocksInExprs index ++ cblocksInOption value ++ cblocksInLets rest

def cblocksInDeclared : List DeclaredVariable → List Position
  | [] => []
  | ⟨_, value, _⟩ :: rest => cblocksInOption value ++ cblocksInDeclared rest

def cblocksInElseIfs : List ElseIf → List Position
  | [] => []
  | ⟨condition, body, _⟩ :: rest =>
    cblocksInExpr condition ++ cblocksInBlock body ++ cblocksInElseIfs rest

def cblocksInOtherwise : Option (List Statement) → List Position
  | none => []
  | some body => cblocksInBlock body

def cblocksInClauses : List SwitchClause → List Position
  | [] => []
  | ⟨test, body⟩ :: rest => cblocksInOption test ++ cblocksInBlock body ++ cblocksInClauses rest

def cblocksInCatches : List Catch → List Position
  | [] => []
  | ⟨classes, binding, body, _⟩ :: rest =>
    cblocksInExprs classes ++ cblocksInOption binding ++ cblocksInBlock body ++
      cblocksInCatches rest

end

mutual

def enclosedInBlock : List Statement → List Position
  | [] => []
  | ⟨kind, _, _⟩ :: rest => enclosedInKind kind ++ enclosedInBlock rest

def enclosedInKind : StatementKind → List Position
  | .branch condition body elseIfs otherwise =>
    cblocksInExpr condition ++ enclosedInBlock body ++ enclosedInElseIfs elseIfs ++
      enclosedInOtherwise otherwise
  | .whileLoop _ condition body => cblocksInExpr condition ++ enclosedInBlock body
  | .loop body => enclosedInBlock body
  | .forLoop _ iterated body => cblocksInExpr iterated ++ enclosedInBlock body
  | .switch subject clauses => cblocksInExpr subject ++ enclosedInClauses clauses
  | .tryCatch body catches => enclosedInBlock body ++ enclosedInCatches catches
  | kind => cblocksInKind kind

def enclosedInElseIfs : List ElseIf → List Position
  | [] => []
  | ⟨condition, body, _⟩ :: rest =>
    cblocksInExpr condition ++ enclosedInBlock body ++ enclosedInElseIfs rest

def enclosedInOtherwise : Option (List Statement) → List Position
  | none => []
  | some body => enclosedInBlock body

def enclosedInClauses : List SwitchClause → List Position
  | [] => []
  | ⟨test, body⟩ :: rest => cblocksInOption test ++ enclosedInBlock body ++ enclosedInClauses rest

def enclosedInCatches : List Catch → List Position
  | [] => []
  | ⟨classes, binding, body, _⟩ :: rest =>
    cblocksInExprs classes ++ cblocksInOption binding ++ enclosedInBlock body ++
      enclosedInCatches rest

end

/-- All places of C blocks in a part of a unit are those that are reported and those that are
missed. -/
def Splits (all reported missed : List Position) : Prop :=
  all.Perm (reported ++ missed)

namespace Splits

variable {all reported missed all' reported' missed' : List Position}

theorem missing : Splits missed [] missed :=
  .refl _

theorem append (first : Splits all reported missed) (second : Splits all' reported' missed') :
    Splits (all ++ all') (reported ++ reported') (missed ++ missed') := by
  unfold Splits at *
  refine (List.Perm.append first second).trans ?_
  rw [List.append_assoc, List.append_assoc, ← List.append_assoc missed,
    ← List.append_assoc reported']
  exact (List.perm_append_comm.append_right _).append_left _

theorem after (first : Splits all reported missed) (outside : List Position) :
    Splits (outside ++ all) reported (outside ++ missed) :=
  missing.append first

theorem flatMap {α : Type} {values : List α} {f g h : α → List Position}
    (each : ∀ value ∈ values, Splits (f value) (g value) (h value)) :
    Splits (values.flatMap f) (values.flatMap g) (values.flatMap h) := by
  induction values with
  | nil => exact .refl _
  | cons value rest ih =>
      rw [List.forall_mem_cons] at each
      simp only [List.flatMap_cons]
      exact each.1.append (ih each.2)

theorem length (split : Splits all reported missed) :
    all.length = reported.length + missed.length := by
  rw [split.length_eq, List.length_append]

end Splits

mutual

theorem splits_block : (body : List Statement) →
    Splits (cblocksInBlock body) (blockCblocks body) (enclosedInBlock body)
  | [] => by
      rw [cblocksInBlock, blockCblocks, enclosedInBlock]
      exact .missing
  | ⟨kind, pos, docblocks⟩ :: rest => by
      have inner := (splits_kind kind).append (splits_block rest)
      cases kind with
      | cblock text =>
          rw [cblocksInBlock, blockCblocks, enclosedInBlock]
          exact inner.cons pos
      | _ =>
          rw [cblocksInBlock, blockCblocks, enclosedInBlock]
          · exact inner
          all_goals simp

theorem splits_kind (kind : StatementKind) :
    Splits (cblocksInKind kind) (kindCblocks kind) (enclosedInKind kind) := by
  cases kind with
  | branch condition body elseIfs otherwise =>
      have branches := ((splits_block body).after (cblocksInExpr condition)).append
        (splits_elseIfs elseIfs)
      cases otherwise with
      | none =>
          rw [cblocksInKind, kindCblocks, enclosedInKind, cblocksInOtherwise, enclosedInOtherwise]
          exact branches.append .missing
      | some final =>
          rw [cblocksInKind, kindCblocks, enclosedInKind, cblocksInOtherwise, enclosedInOtherwise]
          exact branches.append (splits_block final)
  | whileLoop kind condition body =>
      rw [cblocksInKind, kindCblocks, enclosedInKind]
      exact (splits_block body).after _
  | loop body =>
      rw [cblocksInKind, kindCblocks, enclosedInKind]
      exact splits_block body
  | forLoop head iterated body =>
      rw [cblocksInKind, kindCblocks, enclosedInKind]
      exact (splits_block body).after _
  | switch subject clauses =>
      rw [cblocksInKind, kindCblocks, enclosedInKind]
      exact (splits_clauses clauses).after _
  | tryCatch body catches =>
      rw [cblocksInKind, kindCblocks, enclosedInKind]
      exact (splits_block body).append (splits_catches catches)
  | _ =>
      rw [kindCblocks, enclosedInKind]
      · exact .missing
      all_goals simp

theorem splits_elseIfs : (elseIfs : List ElseIf) →
    Splits (cblocksInElseIfs elseIfs) (elseIfsCblocks elseIfs) (enclosedInElseIfs elseIfs)
  | [] => by
      rw [cblocksInElseIfs, elseIfsCblocks, enclosedInElseIfs]
      exact .missing
  | ⟨condition, body, pos⟩ :: rest => by
      rw [cblocksInElseIfs, elseIfsCblocks, enclosedInElseIfs]
      exact ((splits_block body).after _).append (splits_elseIfs rest)

theorem splits_clauses : (clauses : List SwitchClause) →
    Splits (cblocksInClauses clauses) (clausesCblocks clauses) (enclosedInClauses clauses)
  | [] => by
      rw [cblocksInClauses, clausesCblocks, enclosedInClauses]
      exact .missing
  | ⟨test, body⟩ :: rest => by
      rw [cblocksInClauses, clausesCblocks, enclosedInClauses]
      exact ((splits_block body).after _).append (splits_clauses rest)

theorem splits_catches : (catches : List Catch) →
    Splits (cblocksInCatches catches) (catchesCblocks catches) (enclosedInCatches catches)
  | [] => by
      rw [cblocksInCatches, catchesCblocks, enclosedInCatches]
      exact .missing
  | ⟨classes, binding, body, pos⟩ :: rest => by
      rw [cblocksInCatches, catchesCblocks, enclosedInCatches]
      exact ((splits_block body).after _).append (splits_catches rest)

end

/-! ## Declarations -/

def Constant.cblocks (c : Constant) : List Position :=
  cblocksInOption c.value

def Property.cblocks (p : Property) : List Position :=
  cblocksInOption p.value

def Method.cblocks (m : Method) : List Position :=
  cblocksInParameters m.parameters ++ cblocksInBlock m.body

def Definition.cblocks (raw : Definition) : List Position :=
  raw.constants.flatMap Constant.cblocks ++ raw.properties.flatMap Property.cblocks ++
    raw.methods.flatMap Method.cblocks

/-- The places of the C blocks in members that are kept by name. -/
def Members.keyedCblocks (m : Members) : List Position :=
  m.constants.values.flatMap Constant.cblocks ++ m.properties.values.flatMap Property.cblocks ++
    m.methods.values.flatMap Method.cblocks

def Members.cblocks (m : Members) : List Position :=
  m.definition.toList.flatMap Definition.cblocks ++ m.keyedCblocks

def Node.cblocks (n : Node) : List Position :=
  match n.kind with
  | .cblock _ => [n.pos]
  | .require e => cblocksInExpr e
  | .functionDecl decl => cblocksInParameters decl.parameters ++ cblocksInBlock decl.body
  | .classDecl decl => cblocksInExprs decl.interfaces ++ decl.members.cblocks
  | .interfaceDecl decl => cblocksInExprs decl.parents ++ decl.members.cblocks
  | _ => []

def unitCblocks (unit : List Node) : List Position :=
  unit.flatMap Node.cblocks

def Definition.reportedCblocks (raw : Definition) : List Position :=
  raw.methods.flatMap fun method => blockCblocks method.body

def Members.reportedCblocks (m : Members) : List Position :=
  m.definition.toList.flatMap Definition.reportedCblocks

/-- The C blocks that stand on the top level or among the statements of a body that is compacted. -/
def Node.reportedCblocks (n : Node) : List Position :=
  match n.kind with
  | .cblock _ => [n.pos]
  | .functionDecl decl => blockCblocks decl.body
  | .classDecl decl => decl.members.reportedCblocks
  | .interfaceDecl decl => decl.members.reportedCblocks
  | _ => []

def reportedCblocks (unit : List Node) : List Position :=
  unit.flatMap Node.reportedCblocks

def Method.enclosedCblocks (m : Method) : List Position :=
  cblocksInParameters m.parameters ++ enclosedInBlock m.body

def Definition.missedCblocks (raw : Definition) : List Position :=
  raw.constants.flatMap Constant.cblocks ++ raw.properties.flatMap Property.cblocks ++
    raw.methods.flatMap Method.enclosedCblocks

def Members.missedCblocks (m : Members) : List Position :=
  m.definition.toList.flatMap Definition.missedCblocks ++ m.keyedCblocks

/-- The C blocks that stand in closures or in members that are kept by name already. -/
def Node.missedCblocks (n : Node) : List Position :=
  match n.kind with
  | .require e => cblocksInExpr e
  | .functionDecl decl => cblocksInParameters decl.parameters ++ enclosedInBlock decl.body
  | .classDecl decl => cblocksInExprs decl.interfaces ++ decl.members.missedCblocks
  | .interfaceDecl decl => cblocksInExprs decl.parents ++ decl.members.missedCblocks
  | _ => []

def missedCblocks (unit : List Node) : List Position :=
  unit.flatMap Node.missedCblocks

theorem splits_definition (raw : Definition) :
    Splits raw.cblocks raw.reportedCblocks raw.missedCblocks := by
  have methods : Splits (raw.methods.flatMap Method.cblocks) raw.reportedCblocks
      (raw.methods.flatMap Method.enclosedCblocks) :=
    .flatMap fun m _ => (splits_block m.body).after _
  exact methods.after _

theorem splits_members (owner : Members) :
    Splits owner.cblocks owner.reportedCblocks owner.missedCblocks := by
  have raw : Splits (owner.definition.toList.flatMap Definition.cblocks) owner.reportedCblocks
      (owner.definition.toList.flatMap Definition.missedCblocks) :=
    .flatMap fun raw _ => splits_definition raw
  have keyed : Splits owner.keyedCblocks [] owner.keyedCblocks := .missing
  have whole := raw.append keyed
  rw [List.append_nil] at whole
  exact whole

theorem splits_node (n : Node) : Splits n.cblocks n.reportedCblocks n.missedCblocks := by
  obtain ⟨kind, pos, docblocks⟩ := n
  cases kind with
  | cblock text => exact .refl _
  | functionDecl decl => exact (splits_block decl.body).after _
  | classDecl decl => exact (splits_members decl.members).after _
  | interfaceDecl decl => exact (splits_members decl.members).after _
  | _ => exact .missing

theorem splits_unit (unit : List Node) :
    Splits (unitCblocks unit) (reportedCblocks unit) (missedCblocks unit) :=
  .flatMap fun n _ => splits_node n

/-! ## Warnings -/

theorem Members.compact_reports {owner made : Members} {dropped : List Position}
    (ran : owner.compact = .ok (made, dropped)) : dropped = owner.reportedCblocks := by
  obtain ⟨definition, constants, properties, methods⟩ := owner
  cases definition with
  | none =>
      cases ran
      rfl
  | some raw =>
      obtain ⟨constants', -, ran⟩ := except_bind_ok ran
      obtain ⟨properties', -, ran⟩ := except_bind_ok ran
      obtain ⟨methods', ranMethods, built⟩ := except_bind_ok ran
      cases built
      have same : methods'.values = raw.methods := addMembers_ok ranMethods
      rw [same, Members.reportedCblocks, Option.toList_some, List.flatMap_singleton,
        Definition.reportedCblocks]

theorem Node.compact_reports {node : Node} {made : Option Node} {dropped : List Position}
    (ran : node.compact = .ok (made, dropped)) : dropped = node.reportedCblocks := by
  obtain ⟨kind, pos, docblocks⟩ := node
  cases kind with
  | classDecl decl =>
      obtain ⟨⟨members, places⟩, ranMembers, built⟩ := except_bind_ok ran
      cases built
      exact Members.compact_reports ranMembers
  | interfaceDecl decl =>
      obtain ⟨⟨members, places⟩, ranMembers, built⟩ := except_bind_ok ran
      cases built
      exact Members.compact_reports ranMembers
  | _ =>
      cases ran
      rfl

theorem compact_reports {unit made : List Node} {collector collector' : Collector}
    (ran : compact unit collector = .ok (made, collector')) :
    collector'.diagnostics =
      collector.diagnostics ++ (reportedCblocks unit).map droppedCblock := by
  induction unit generalizing made collector with
  | nil =>
      cases ran
      simp [reportedCblocks]
  | cons node rest ih =>
      rw [compact] at ran
      obtain ⟨⟨out, dropped⟩, ranNode, ran⟩ := except_bind_ok ran
      obtain ⟨⟨others, collected⟩, ranRest, built⟩ := except_bind_ok ran
      cases built
      rw [ih ranRest, diagnostics_foldl_emit, Node.compact_reports ranNode, List.append_assoc,
        ← List.map_append]
      rfl

theorem positions_droppedCblock (places : List Position) :
    (places.map droppedCblock).flatMap Diagnostic.positions = places := by
  induction places with
  | nil => rfl
  | cons pos rest ih =>
      rw [List.map_cons, List.flatMap_cons, ih]
      rfl

theorem compile_warnings {text : String} {compiled : Compiled}
    (ran : compile text = .ok compiled) :
    ∃ unit, load text = .ok unit ∧
      compiled.warnings = (reportedCblocks unit).map droppedCblock := by
  obtain ⟨unit, compacted, collector, queue, loaded, ranCompact, ranPhases⟩ := compile_ok ran
  have compiles := compileUnit_of_runs ranCompact ranPhases
  simp only [compile, loaded, compiles, Except.mapError, Except.ok.injEq] at ran
  rw [← ran]
  exact ⟨unit, loaded, compact_reports ranCompact⟩

/-- A text that compiles gives a warning for each C block that is no part of a closure or of a member
kept by name, in the order of the text and at the place of the C block. So there is a warning for
each C block of the text exactly if there are none of the others. -/
theorem compile_reports_cblocks {text : String} {compiled : Compiled}
    (ran : compile text = .ok compiled) :
    ∃ unit, load text = .ok unit ∧
      compiled.warnings = (reportedCblocks unit).map droppedCblock ∧
      (unitCblocks unit).Perm (reportedCblocks unit ++ missedCblocks unit) ∧
      (compiled.warnings.length = (unitCblocks unit).length ↔ missedCblocks unit = []) ∧
      ((unitCblocks unit).Perm (compiled.warnings.flatMap Diagnostic.positions) ↔
        missedCblocks unit = []) := by
  obtain ⟨unit, loaded, warned⟩ := compile_warnings ran
  have split := splits_unit unit
  have total := split.length
  refine ⟨unit, loaded, warned, split, ?_, ?_⟩
  · rw [warned, List.length_map, ← List.length_eq_zero_iff]
    omega
  · rw [warned, positions_droppedCblock]
    constructor
    · intro same
      have sameLength := same.length_eq
      rw [← List.length_eq_zero_iff]
      omega
    · intro none
      rw [Splits, none, List.append_nil] at split
      exact split

def loopCblockSample : String :=
  "[\x7b\"type\":\"cblock\",\"value\":\"int a;\",\"line\":1\x7d," ++
    "\x7b\"type\":\"function\",\"name\":\"f\",\"statements\":[\x7b\"type\":\"loop\",\"statements\":[" ++
    "\x7b\"type\":\"cblock\",\"value\":\"int b;\",\"line\":2\x7d]\x7d]\x7d]"

def closureCblockSample : String :=
  "[\x7b\"type\":\"function\",\"name\":\"f\",\"statements\":[\x7b\"type\":\"return\",\"expr\":" ++
    "\x7b\"type\":\"closure\",\"left\":[],\"right\":[" ++
    "\x7b\"type\":\"cblock\",\"value\":\"int a;\",\"line\":3\x7d]\x7d\x7d]\x7d]"

def cblockLines (text : String) : Option (List UInt32 × List UInt32) := do
  let _ ← (compile text).toOption
  let unit ← (load text).toOption
  return ((reportedCblocks unit).map (·.line), (missedCblocks unit).map (·.line))

theorem compile_of_cblockLines {text : String} {lines : List UInt32 × List UInt32}
    (found : cblockLines text = some lines) :
    ∃ compiled unit, compile text = .ok compiled ∧ load text = .ok unit ∧
      (reportedCblocks unit).map (·.line) = lines.1 ∧
      (missedCblocks unit).map (·.line) = lines.2 := by
  cases ran : compile text with
  | error e => simp [cblockLines, ran, Except.toOption] at found
  | ok compiled =>
      obtain ⟨unit, loaded, -⟩ := compile_warnings ran
      simp only [cblockLines, ran, loaded, Except.toOption] at found
      cases found
      exact ⟨compiled, unit, rfl, loaded, rfl, rfl⟩

theorem cblockSamples_reported :
    (∃ compiled unit, compile loopCblockSample = .ok compiled ∧
      load loopCblockSample = .ok unit ∧ compiled.warnings.length = (unitCblocks unit).length ∧
      (unitCblocks unit).Perm (compiled.warnings.flatMap Diagnostic.positions)) ∧
    ∃ compiled unit, compile closureCblockSample = .ok compiled ∧
      load closureCblockSample = .ok unit ∧
      compiled.warnings.length ≠ (unitCblocks unit).length := by
  constructor
  · have found : cblockLines loopCblockSample = some ([1, 2], []) := by
      change cblockLines (.ofList _ ++ .ofList _ ++ .ofList _) = some ([1, 2], [])
      rw [← String.ofList_append, ← String.ofList_append, cblockLines, compile, load_ofList]
      decide +kernel
    obtain ⟨compiled, unit, ran, loaded, -, missed⟩ := compile_of_cblockLines found
    obtain ⟨unit', loaded', -, -, counted, placed⟩ := compile_reports_cblocks ran
    obtain rfl := Except.ok.inj (loaded.symm.trans loaded')
    rw [List.map_eq_nil_iff] at missed
    exact ⟨compiled, unit, ran, loaded, counted.mpr missed, placed.mpr missed⟩
  · have found : cblockLines closureCblockSample = some ([], [3]) := by
      change cblockLines (.ofList _ ++ .ofList _ ++ .ofList _) = some ([], [3])
      rw [← String.ofList_append, ← String.ofList_append, cblockLines, compile, load_ofList]
      decide +kernel
    obtain ⟨compiled, unit, ran, loaded, -, missed⟩ := compile_of_cblockLines found
    obtain ⟨unit', loaded', -, -, counted, -⟩ := compile_reports_cblocks ran
    obtain rfl := Except.ok.inj (loaded.symm.trans loaded')
    refine ⟨compiled, unit, ran, loaded, ?_⟩
    intro same
    rw [counted.mp same] at missed
    exact absurd missed (by simp)

end Zephir
