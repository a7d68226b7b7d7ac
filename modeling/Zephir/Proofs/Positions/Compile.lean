import Zephir.Proofs.Compile.Printable
import Zephir.Proofs.Positions.Phases
import Zephir.Proofs.Php.Declared

/-!
No place is made up on the way from a loaded unit to its text. Compaction and the standard phases
leave nodes, members, parameters, locals, statements and comments at places of the unit, and every
warning and every error, those of rendering too, points at places of the unit only.
-/

namespace Zephir

variable {known : Position → Prop}

theorem allAt_initialLets {declared : List DeclaredVariable}
    (places : AllAt known (declaredPositions declared)) :
    AllAt known (blockPositions (initialLets declared)) := by
  induction declared with
  | nil => exact allAt_nil
  | cons first rest ih =>
      obtain ⟨name, value, pos⟩ := first
      simp only [declaredPositions, allAt_append, allAt_cons] at places
      obtain ⟨⟨at_, atValue⟩, atRest⟩ := places
      cases value with
      | none => exact ih atRest
      | some value =>
          have first : AllAt known (statementPositions
              { kind := .lets [{ assign := .set name value, pos }], pos }) := by
            simp only [optionPositions] at atValue
            simp [statementPositions, docPositions, innerPositions, letPositions, Assign.set,
              exprsPositions, optionPositions, at_, atValue]
          exact allAt_append.mpr ⟨first, ih atRest⟩

/-- What compaction leaves of a part of a body, what it declares, and what it drops. -/
structure CompactAt (known : Position → Prop) (left : List Position)
    (declared : List (String × Local)) (dropped : List Position) : Prop where
  left : AllAt known left
  declared : ∀ entry ∈ declared, known entry.2.pos
  dropped : AllAt known dropped

theorem CompactAt.none {left : List Position} (places : AllAt known left) :
    CompactAt known left [] [] :=
  ⟨places, by simp, allAt_nil⟩

theorem CompactAt.append {left left' dropped dropped' : List Position}
    {declared declared' : List (String × Local)} (first : CompactAt known left declared dropped)
    (second : CompactAt known left' declared' dropped') :
    CompactAt known (left ++ left') (declared ++ declared') (dropped ++ dropped') :=
  ⟨allAt_append.mpr ⟨first.left, second.left⟩,
    List.forall_mem_append.mpr ⟨first.declared, second.declared⟩,
    allAt_append.mpr ⟨first.dropped, second.dropped⟩⟩

theorem CompactAt.after {kept left dropped : List Position} {declared : List (String × Local)}
    (places : AllAt known kept) (inner : CompactAt known left declared dropped) :
    CompactAt known (kept ++ left) declared dropped :=
  (CompactAt.none places).append inner

mutual

theorem compactAt_block : (body : List Statement) → AllAt known (blockPositions body) →
    CompactAt known (blockPositions (compactBlock body)) (blockLocals body) (blockCblocks body)
  | [], _ => by
      rw [compactBlock, blockLocals, blockCblocks]
      exact .none allAt_nil
  | ⟨kind, pos, docblocks⟩ :: rest, places => by
      simp only [blockPositions, statementPositions, allAt_append, allAt_cons] at places
      obtain ⟨⟨⟨at_, atDocs⟩, atKind⟩, atRest⟩ := places
      have inner := compactAt_kind kind atKind
      have others := compactAt_block rest atRest
      cases kind with
      | cblock text =>
          rw [compactBlock, blockLocals, blockCblocks]
          · exact ⟨others.left, others.declared, allAt_cons.mpr ⟨at_, others.dropped⟩⟩
          · simp
      | declare dataType declared =>
          -- Each variable becomes a local, and a `let` where it has a value, both at its place.
          rw [compactBlock, blockLocals, blockCblocks, blockPositions_append]
          · exact CompactAt.append
              ⟨allAt_initialLets atKind, declaredLocals_known atKind, allAt_nil⟩ others
          · simp
      | _ =>
          rw [compactBlock, blockLocals, blockCblocks, blockPositions, statementPositions]
          · exact (CompactAt.after (allAt_cons.mpr ⟨at_, atDocs⟩) inner).append others
          all_goals simp

theorem compactAt_kind (kind : StatementKind) (places : AllAt known (innerPositions kind)) :
    CompactAt known (innerPositions (compactKind kind)) (kindLocals kind) (kindCblocks kind) := by
  cases kind with
  | branch condition body elseIfs otherwise =>
      simp only [innerPositions, allAt_append] at places
      obtain ⟨⟨⟨atCondition, atBody⟩, atElseIfs⟩, atOtherwise⟩ := places
      have inner := (CompactAt.after atCondition (compactAt_block body atBody)).append
        (compactAt_elseIfs elseIfs atElseIfs)
      cases otherwise with
      | none =>
          rw [compactKind, kindLocals, kindCblocks, innerPositions]
          exact inner.append (.none allAt_nil)
      | some final =>
          rw [compactKind, kindLocals, kindCblocks, innerPositions]
          exact inner.append (compactAt_block final atOtherwise)
  | whileLoop kind condition body =>
      simp only [innerPositions, allAt_append] at places
      rw [compactKind, kindLocals, kindCblocks, innerPositions]
      exact .after places.1 (compactAt_block body places.2)
  | loop body =>
      rw [compactKind, kindLocals, kindCblocks, innerPositions]
      exact compactAt_block body places
  | forLoop head iterated body =>
      simp only [innerPositions, allAt_append] at places
      rw [compactKind, kindLocals, kindCblocks, innerPositions]
      exact .after places.1 (compactAt_block body places.2)
  | switch subject clauses =>
      simp only [innerPositions, allAt_append] at places
      rw [compactKind, kindLocals, kindCblocks, innerPositions]
      exact .after places.1 (compactAt_clauses clauses places.2)
  | tryCatch body catches =>
      simp only [innerPositions, allAt_append] at places
      rw [compactKind, kindLocals, kindCblocks, innerPositions]
      exact (compactAt_block body places.1).append (compactAt_catches catches places.2)
  | _ => exact .none places

theorem compactAt_elseIfs : (elseIfs : List ElseIf) → AllAt known (elseIfPositions elseIfs) →
    CompactAt known (elseIfPositions (compactElseIfs elseIfs)) (elseIfsLocals elseIfs)
      (elseIfsCblocks elseIfs)
  | [], _ => by
      rw [compactElseIfs, elseIfsLocals, elseIfsCblocks]
      exact .none allAt_nil
  | ⟨condition, body, pos⟩ :: rest, places => by
      simp only [elseIfPositions, allAt_append, allAt_cons] at places
      obtain ⟨⟨atHead, atBody⟩, atRest⟩ := places
      rw [compactElseIfs, elseIfsLocals, elseIfsCblocks, elseIfPositions]
      exact (CompactAt.after (allAt_cons.mpr atHead) (compactAt_block body atBody)).append
        (compactAt_elseIfs rest atRest)

theorem compactAt_clauses : (clauses : List SwitchClause) →
    AllAt known (clausePositions clauses) →
    CompactAt known (clausePositions (compactClauses clauses)) (clausesLocals clauses)
      (clausesCblocks clauses)
  | [], _ => by
      rw [compactClauses, clausesLocals, clausesCblocks]
      exact .none allAt_nil
  | ⟨test, body⟩ :: rest, places => by
      simp only [clausePositions, allAt_append] at places
      obtain ⟨⟨atTest, atBody⟩, atRest⟩ := places
      rw [compactClauses, clausesLocals, clausesCblocks, clausePositions]
      exact (CompactAt.after atTest (compactAt_block body atBody)).append
        (compactAt_clauses rest atRest)

theorem compactAt_catches : (catches : List Catch) → AllAt known (catchPositions catches) →
    CompactAt known (catchPositions (compactCatches catches)) (catchesLocals catches)
      (catchesCblocks catches)
  | [], _ => by
      rw [compactCatches, catchesLocals, catchesCblocks]
      exact .none allAt_nil
  | ⟨classes, binding, body, pos⟩ :: rest, places => by
      simp only [catchPositions, allAt_append, allAt_cons] at places
      obtain ⟨⟨⟨⟨at_, atClasses⟩, atBinding⟩, atBody⟩, atRest⟩ := places
      have atHead : AllAt known (pos :: exprsPositions classes ++ optionPositions binding) := by
        simp [at_, atClasses, atBinding]
      rw [compactCatches, catchesLocals, catchesCblocks, catchPositions]
      exact (CompactAt.after atHead (compactAt_block body atBody)).append
        (compactAt_catches rest atRest)

end

theorem allAt_method_compact {m : Method} (places : AllAt known m.positions) :
    AllAt known m.compact.positions ∧ AllAt known (blockCblocks m.body) := by
  simp only [Method.positions, allAt_append, allAt_cons] at places
  obtain ⟨⟨⟨atHead, atParameters⟩, atBody⟩, atLocals⟩ := places
  have compacted := compactAt_block m.body atBody
  refine ⟨?_, compacted.dropped⟩
  simp only [Method.positions, Method.compact, allAt_append, allAt_cons]
  exact ⟨⟨⟨atHead, atParameters⟩, compacted.left⟩, allAt_insertAll atLocals compacted.declared⟩

theorem resultAt_addMembers {α : Type} {group : MemberSection} {name : α → String}
    {pos : α → Position} {positions : α → List Position}
    (place : ∀ member, pos member ∈ positions member) {added : List α} {map : OrderedMap α}
    (held : ∀ member ∈ map.values, AllAt known (positions member))
    (new : ∀ member ∈ added, AllAt known (positions member)) :
    ResultAt known (fun made => ∀ member ∈ made.values, AllAt known (positions member))
      (addMembers group name pos map added) := by
  induction added generalizing map with
  | nil => exact held
  | cons member rest ih =>
      rw [List.forall_mem_cons] at new
      rw [addMembers]
      split
      · -- The error points at the member and at the one that has its name already.
        rename_i first found
        have earlier := held first (OrderedMap.mem_values_of_get? found) _ (place first)
        exact allAt_withContext (allAt_at.mpr (new.1 _ (place member))) earlier
      · exact ih (OrderedMap.forall_values_insert held new.1) new.2

theorem resultAt_members_compact {owner : Members} (places : owner.At known) :
    ResultAt known (fun result => result.1.At known ∧ AllAt known result.2) owner.compact := by
  unfold Members.compact
  split
  · exact ⟨places, allAt_nil⟩
  · rename_i raw definition
    have atRaw := places.definition raw definition
    simp only [Definition.positions, allAt_append, allAt_flatMap] at atRaw
    obtain ⟨⟨atConstants, atProperties⟩, atMethods⟩ := atRaw
    refine ResultAt.bind (resultAt_addMembers (by simp [Constant.positions])
      OrderedMap.forall_values_empty atConstants) fun constants atConstants => ?_
    refine ResultAt.bind (resultAt_addMembers (by simp [Property.positions])
      OrderedMap.forall_values_empty atProperties) fun properties atProperties => ?_
    refine ResultAt.bind (resultAt_addMembers (by simp [Method.positions])
      OrderedMap.forall_values_empty atMethods) fun methods atMethods => ?_
    have compacted m among := allAt_method_compact (atMethods m among)
    refine ⟨⟨by simp, atConstants, atProperties, ?_⟩, ?_⟩
    · rw [OrderedMap.values_mapValues, List.forall_mem_map]
      exact fun m among => (compacted m among).1
    · exact allAt_flatMap.mpr fun m among => (compacted m among).2

theorem resultAt_node_compact {n : Node} (places : AllAt known n.positions) :
    ResultAt known (fun result => AllAt known (unitPositions result.1.toList) ∧
      AllAt known result.2) n.compact := by
  obtain ⟨kind, pos, docblocks⟩ := n
  have whole := places
  simp only [Node.positions, allAt_append, allAt_cons] at places
  obtain ⟨⟨at_, atDocs⟩, atKind⟩ := places
  cases kind with
  | cblock text => exact ⟨allAt_nil, by simpa using at_⟩
  | functionDecl decl =>
      simp only [NodeKind.positions, allAt_append] at atKind
      have compacted := compactAt_block decl.body atKind.1.2
      refine ⟨?_, compacted.dropped⟩
      simp [unitPositions, Node.positions, NodeKind.positions, Function.compact, at_, atDocs,
        atKind.1.1, compacted.left, allAt_insertAll atKind.2 compacted.declared]
  | classDecl decl =>
      simp only [NodeKind.positions, allAt_append, allAt_members] at atKind
      refine ResultAt.bind (resultAt_members_compact atKind.2) fun result made => ⟨?_, made.2⟩
      simp [unitPositions, Node.positions, NodeKind.positions, at_, atDocs, atKind.1,
        allAt_members.mpr made.1]
  | interfaceDecl decl =>
      simp only [NodeKind.positions, allAt_append, allAt_members] at atKind
      refine ResultAt.bind (resultAt_members_compact atKind.2) fun result made => ⟨?_, made.2⟩
      simp [unitPositions, Node.positions, NodeKind.positions, at_, atDocs, atKind.1,
        allAt_members.mpr made.1]
  | _ => exact ⟨by simpa [unitPositions] using whole, allAt_nil⟩

theorem diagnostics_foldl_emit (added : List Diagnostic) (collector : Collector) :
    (added.foldl Collector.emit collector).diagnostics = collector.diagnostics ++ added := by
  induction added generalizing collector with
  | nil => simp
  | cons d rest ih => simp [ih, Collector.emit]

theorem resultAt_compact {unit : List Node} {collector : Collector}
    (places : AllAt known (unitPositions unit))
    (gathered : ∀ d ∈ collector.diagnostics, AllAt known d.positions) :
    ResultAt known (fun result => AllAt known (unitPositions result.1) ∧
      ∀ d ∈ result.2.diagnostics, AllAt known d.positions) (compact unit collector) := by
  induction unit generalizing collector with
  | nil => exact ⟨allAt_nil, gathered⟩
  | cons n rest ih =>
      rw [unitPositions, List.flatMap_cons, allAt_append] at places
      rw [compact]
      refine ResultAt.bind (resultAt_node_compact places.1) fun result made => ?_
      obtain ⟨node, dropped⟩ := result
      have gathered' : ∀ d ∈ ((dropped.map droppedCblock).foldl Collector.emit
          collector).diagnostics, AllAt known d.positions := by
        rw [diagnostics_foldl_emit, List.forall_mem_append, List.forall_mem_map]
        refine ⟨gathered, fun pos among => ?_⟩
        simpa [droppedCblock, Diagnostic.warning, Diagnostic.withLabel, Diagnostic.positions]
          using made.2 pos among
      refine ResultAt.bind (ih places.2 gathered') fun result others => ⟨?_, others.2⟩
      rw [unitPositions, List.flatMap_append, allAt_append]
      exact ⟨made.1, others.1⟩

theorem resultAt_compact_start {unit : List Node} (places : AllAt known (unitPositions unit)) :
    ResultAt known (fun result => AllAt known (unitPositions result.1) ∧
      ∀ d ∈ result.2.diagnostics, AllAt known d.positions) (compact unit {}) :=
  resultAt_compact places (List.forall_mem_nil _)

theorem allAt_compileUnit {unit : List Node} (places : AllAt known (unitPositions unit)) :
    match compileUnit unit with
    | .error refusal => ∀ d ∈ refusal.diagnostics, AllAt known d.positions
    | .ok compiled => AllAt known (unitPositions compiled.unit) ∧
        ∀ d ∈ compiled.warnings, AllAt known d.positions := by
  have compacts := resultAt_compact_start places
  unfold compileUnit
  cases ran : compact unit {} with
  | error d =>
      rw [ran] at compacts
      exact List.forall_mem_singleton.mpr compacts
  | ok result =>
      obtain ⟨compacted, collector⟩ := result
      rw [ran] at compacts
      have runs := resultAt_runStandardPhases compacts.1
      dsimp only
      cases ranPhases : runStandardPhases compacted with
      | error d =>
          rw [ranPhases] at runs
          exact List.forall_mem_singleton.mpr runs
      | ok made =>
          rw [ranPhases] at runs
          dsimp only
          rw [Collector.finish]
          by_cases failed : collector.diagnostics.any (·.severity == .error) = true
          · rw [if_pos failed]
            exact compacts.2
          · rw [if_neg failed]
            exact ⟨runs, compacts.2⟩

/-- A unit is refused in rendering at its own places only. -/
theorem allAt_renderInto {σ : Type} {layout : Layout} {sink : Sink σ} {state final : σ}
    {target : String} {unit : List Node} {refusal : Refusal}
    (places : AllAt known (unitPositions unit))
    (refused : renderInto layout sink state target unit = (final, .error (.refused refusal))) :
    ∀ d ∈ refusal.diagnostics, AllAt known d.positions := by
  obtain ⟨d, stopped, rfl⟩ := renderInto_refusal refused
  exact List.forall_mem_singleton.mpr ((Php.declared_unit places).tame.fails d stopped)

/-- Every place in what becomes of a unit, and every place that a warning or an error points at,
is a place of the unit. -/
theorem places_come_from_unit (unit : List Node) :
    (∀ compacted collector, compact unit {} = .ok (compacted, collector) →
      unitPositions compacted ⊆ unitPositions unit ∧
        ∀ d ∈ collector.diagnostics, d.positions ⊆ unitPositions unit) ∧
    (∀ refusal, compileUnit unit = .error refusal →
      ∀ d ∈ refusal.diagnostics, d.positions ⊆ unitPositions unit) ∧
    ∀ compiled, compileUnit unit = .ok compiled →
      unitPositions compiled.unit ⊆ unitPositions unit ∧
      (∀ d ∈ compiled.warnings, d.positions ⊆ unitPositions unit) ∧
      ∀ (σ : Type) (layout : Layout) (sink : Sink σ) (state final : σ) (target : String)
        (refusal : Refusal),
        renderInto layout sink state target compiled.unit = (final, .error (.refused refusal)) →
          ∀ d ∈ refusal.diagnostics, d.positions ⊆ unitPositions unit := by
  have places : AllAt (· ∈ unitPositions unit) (unitPositions unit) := fun _ among => among
  refine ⟨?_, ?_, ?_⟩
  · intro compacted collector ran
    have compacts := resultAt_compact_start places
    rw [ran] at compacts
    exact compacts
  · intro refusal ran
    have compiles := allAt_compileUnit places
    rw [ran] at compiles
    exact compiles
  · intro compiled ran
    have compiles := allAt_compileUnit places
    rw [ran] at compiles
    refine ⟨compiles.1, compiles.2, ?_⟩
    intro σ layout sink state final target refusal refused
    exact allAt_renderInto compiles.1 refused

def placedClass (members : (UInt32 → Position) → Definition) : List Node :=
  let line (number : UInt32) : Position := { file := "sample.zep", line := number, column := 1 }
  let raw : Members :=
    { definition := members line, constants := .empty, properties := .empty, methods := .empty }
  [{ kind := .classDecl ⟨"A", false, false, none, [], none, raw⟩, pos := line 1, docblocks := [] }]

def expandedSample : List Node :=
  placedClass fun line =>
    { constants := []
      properties := [⟨"x", [], none, [⟨"get", line 3⟩], some "* note", [], line 2⟩]
      methods := [{ Method.plain "m" (line 4) with
        body := [{ kind := .cblock "int a;", pos := line 5 },
          { kind := .tryCatch [] [], pos := line 6 }] }] }

def collidingSample : List Node :=
  placedClass fun line =>
    { constants := []
      properties := [⟨"x", [], none, [⟨"get", line 3⟩], none, [], line 2⟩]
      methods := [Method.plain "getX" (line 4)] }

def unwritableSample : List Node :=
  placedClass fun line =>
    { constants := [⟨"X", some (.plain (.literal .istring "a") (line 3)), none, [], line 2⟩]
      properties := []
      methods := [] }

def renderRefusal? (compiled : Compiled) : Option Refusal :=
  match (renderInto .empty bufferSink {} "sample.php" compiled.unit).2 with
  | .error (.refused refusal) => some refusal
  | _ => none

theorem refused_of_renderRefusal? {compiled : Compiled} {refusal : Refusal}
    (found : renderRefusal? compiled = some refusal) :
    ∃ final, renderInto .empty bufferSink {} "sample.php" compiled.unit =
      (final, .error (.refused refusal)) := by
  unfold renderRefusal? at found
  split at found
  · rename_i refused
    cases found
    exact ⟨_, Prod.ext rfl refused⟩
  · contradiction

theorem samples_placed :
    (∃ compiled, compileUnit expandedSample = .ok compiled ∧ compiled.warnings.length = 1 ∧
      unitPositions compiled.unit ⊆ unitPositions expandedSample ∧
      ∀ d ∈ compiled.warnings, d.positions ⊆ unitPositions expandedSample) ∧
    (∃ refusal, compileUnit collidingSample = .error refusal ∧
      (refusal.diagnostics.flatMap Diagnostic.positions).map (·.line) = [3, 4] ∧
      ∀ d ∈ refusal.diagnostics, d.positions ⊆ unitPositions collidingSample) ∧
    ∃ compiled final refusal, compileUnit unwritableSample = .ok compiled ∧
      renderInto .empty bufferSink {} "sample.php" compiled.unit =
        (final, .error (.refused refusal)) ∧
      ∀ d ∈ refusal.diagnostics, d.positions ⊆ unitPositions unwritableSample := by
  refine ⟨⟨_, rfl, rfl, ?_⟩, ⟨_, rfl, rfl, ?_⟩, ?_⟩
  · have placed := (places_come_from_unit expandedSample).2.2 _ rfl
    exact ⟨placed.1, placed.2.1⟩
  · exact (places_come_from_unit collidingSample).2.1 _ rfl
  · have stops : ((compileUnit unwritableSample).toOption.bind renderRefusal?).isSome = true := by
      decide +kernel
    obtain ⟨refusal, found⟩ := Option.isSome_iff_exists.mp stops
    cases ran : compileUnit unwritableSample with
    | error refusal => simp [ran, Except.toOption] at found
    | ok compiled =>
        rw [ran] at found
        obtain ⟨final, refused⟩ := refused_of_renderRefusal? found
        refine ⟨compiled, final, refusal, rfl, refused, ?_⟩
        exact ((places_come_from_unit unwritableSample).2.2 compiled ran).2.2 _ _ _ _ _ _ _ refused

end Zephir
