import Zephir.Proofs.Compile.Cblocks
import Zephir.Proofs.Phase.Failures

/-!
What a refusal holds. A unit that loads is refused for a single error: a member of a name that is
taken, found by compaction, or what stopped one of the standard phases. Compaction has collected
warnings by then, one for each C block that it reports in front of the node where it failed, or in
the whole unit if a phase failed; none of them is in the refusal.
-/

namespace Zephir

inductive Cause.StopsCompaction : Cause → Prop
  | duplicateDefinition (group : MemberSection) (name : String) :
      StopsCompaction (.duplicateDefinition group name)

inductive Cause.StopsPhases : Cause → Prop
  | duplicateShortcut (shortcut property : String) :
      StopsPhases (.duplicateShortcut shortcut property)
  | unknownShortcut (shortcut property : String) : StopsPhases (.unknownShortcut shortcut property)
  | methodCollision (name property : String) (generatedBy : Option String) :
      StopsPhases (.methodCollision name property generatedBy)
  | invalidVisibility (modifier method : String) : StopsPhases (.invalidVisibility modifier method)
  | conflictingVisibility (method first second : String) :
      StopsPhases (.conflictingVisibility method first second)
  | lowering {cause : Cause} (stops : cause.StopsLowering) : StopsPhases cause

/-! ## Phases -/

theorem accessors_fails {property : String} {seen : List String} {shortcuts : List Shortcut} :
    ResultFailsFor Cause.StopsPhases (accessors property seen shortcuts) := by
  induction shortcuts generalizing seen with
  | nil => exact resultFailsFor_ok
  | cons shortcut rest ih =>
      rw [accessors]
      split
      · exact resultFailsFor_error (Cause.raisedFor_at (.duplicateShortcut _ _))
      · split
        · exact resultFailsFor_error (Cause.raisedFor_at (.unknownShortcut _ _))
        · exact ih.bind fun _ => resultFailsFor_ok

theorem addAccessors_fails {property : String} {methods : OrderedMap Method}
    {added : List (Method × Shortcut)} :
    ResultFailsFor Cause.StopsPhases (addAccessors property methods added) := by
  induction added generalizing methods with
  | nil => exact resultFailsFor_ok
  | cons entry rest ih =>
      obtain ⟨method, shortcut⟩ := entry
      rw [addAccessors]
      split
      · exact resultFailsFor_error ⟨⟨rfl, _, rfl, .methodCollision _ _ _⟩, rfl⟩
      · exact ih

theorem expandShortcuts_fails {owner : Members} {p : Property} :
    ResultFailsFor Cause.StopsPhases (expandShortcuts owner p) :=
  accessors_fails.bind fun _ => addAccessors_fails.bind fun _ => resultFailsFor_ok

/-- Only a second access modifier can contradict the first. -/
theorem addModifier_fails {method : String} {pos : Position} {m : Modifiers} {modifier : Modifier} :
    ResultFailsFor Cause.StopsPhases (m.add method pos modifier) := by
  cases modifier with
  | access access =>
      rw [Modifiers.add]
      split
      · exact resultFailsFor_ok
      · split
        · exact resultFailsFor_ok
        · exact resultFailsFor_error (Cause.raisedFor_at (.conflictingVisibility _ _ _))
  | _ => exact resultFailsFor_ok

theorem addModifiers_fails {method : String} {pos : Position} {m : Modifiers}
    {words : List String} :
    ResultFailsFor Cause.StopsPhases (Modifiers.addAll method pos m words) := by
  induction words generalizing m with
  | nil => exact resultFailsFor_ok
  | cons raw rest ih =>
      rw [Modifiers.addAll]
      split
      · exact resultFailsFor_error (Cause.raisedFor_at (.invalidVisibility _ _))
      · split
        · rename_i refused
          exact resultFailsFor_error (addModifier_fails _ refused)
        · exact ih

theorem lowerBody_fails {locals : Locals} {parameters : List Parameter} {body : List Statement} :
    ResultFailsFor Cause.StopsPhases (lowerBody locals parameters body) :=
  fun _ failed => (lowerBody_stops failed).mono fun _ => .lowering

theorem method_lower_fails {m : Method} : ResultFailsFor Cause.StopsPhases m.lower :=
  addModifiers_fails.map.bind fun _ => lowerBody_fails.bind fun _ => resultFailsFor_ok

theorem standardPhases_fail : ∀ phase ∈ standardPhases, phase.FailsFor Cause.StopsPhases := by
  have comments : (attachComments .whole).FailsFor Cause.StopsPhases := by
    refine ⟨fun n state => ?_, fun _ _ _ => resultFailsFor_ok, fun _ _ _ => resultFailsFor_ok,
      fun _ _ _ => resultFailsFor_ok⟩
    obtain ⟨kind, pos, docblocks⟩ := n
    cases kind <;> exact resultFailsFor_ok
  have shortcuts : (expandAccessors : Phase (List Docblock)).FailsFor Cause.StopsPhases :=
    ⟨fun _ _ => resultFailsFor_ok, MemberHook.failsFor_keep,
      fun _ _ => (PhaseStep.failsFor_lift expandShortcuts_fails).bind fun _ =>
        PhaseStep.failsFor_pure,
      MemberHook.failsFor_keep⟩
  have bodies : (lowerBodies : Phase (List Docblock)).FailsFor Cause.StopsPhases := by
    refine ⟨fun n => ?_, MemberHook.failsFor_keep, MemberHook.failsFor_keep,
      fun _ _ => (PhaseStep.failsFor_lift method_lower_fails).bind fun _ =>
        PhaseStep.failsFor_pure⟩
    obtain ⟨kind, pos, docblocks⟩ := n
    cases kind with
    | functionDecl decl =>
        have lowers : ResultFailsFor Cause.StopsPhases decl.lower :=
          lowerBody_fails.bind fun _ => resultFailsFor_ok
        exact (PhaseStep.failsFor_lift lowers).bind fun _ => PhaseStep.failsFor_pure
    | _ => exact PhaseStep.failsFor_pure
  simp [standardPhases, comments, shortcuts, bodies]

theorem runStandardPhases_fails (unit : List Node) :
    ResultFailsFor Cause.StopsPhases (runStandardPhases unit) :=
  ResultFailsFor.bind (Phase.failsFor_run standardPhases_fail unit []) fun _ => resultFailsFor_ok

/-! ## Compaction -/

theorem addMembers_fails {α : Type} {group : MemberSection} {name : α → String}
    {pos : α → Position} {map : OrderedMap α} {added : List α} :
    ResultFailsFor Cause.StopsCompaction (addMembers group name pos map added) := by
  induction added generalizing map with
  | nil => exact resultFailsFor_ok
  | cons member rest ih =>
      rw [addMembers]
      split
      · exact resultFailsFor_error ⟨⟨rfl, _, rfl, .duplicateDefinition _ _⟩, rfl⟩
      · exact ih

theorem members_compact_fails {owner : Members} :
    ResultFailsFor Cause.StopsCompaction owner.compact := by
  obtain ⟨definition, constants, properties, methods⟩ := owner
  cases definition with
  | none => exact resultFailsFor_ok
  | some raw =>
      exact addMembers_fails.bind fun _ => addMembers_fails.bind fun _ =>
        addMembers_fails.bind fun _ => resultFailsFor_ok

theorem node_compact_fails {n : Node} : ResultFailsFor Cause.StopsCompaction n.compact := by
  obtain ⟨kind, pos, docblocks⟩ := n
  cases kind with
  | classDecl decl | interfaceDecl decl =>
      exact members_compact_fails.bind fun _ => resultFailsFor_ok
  | _ => exact resultFailsFor_ok

/-- Compaction with a collector that is still there after a failure. The members of a class are
given their names before any of their bodies is gone through, so a class that fails adds nothing. -/
def compactRecording (unit : List Node) (collector : Collector) :
    Except Diagnostic (List Node) × Collector :=
  match unit with
  | [] => (.ok [], collector)
  | node :: rest =>
    match node.compact with
    | .error d => (.error d, collector)
    | .ok (made, dropped) =>
      let (nodes, collector) :=
        compactRecording rest ((dropped.map droppedCblock).foldl Collector.emit collector)
      (nodes.map (made.toList ++ ·), collector)

theorem compact_eq_compactRecording (unit : List Node) (collector : Collector) :
    compact unit collector =
      (compactRecording unit collector).1.map
        fun nodes => (nodes, (compactRecording unit collector).2) := by
  induction unit generalizing collector with
  | nil => rfl
  | cons node rest ih =>
      rw [compact, compactRecording]
      cases node.compact with
      | error d => rfl
      | ok result =>
          obtain ⟨made, dropped⟩ := result
          simp only [bind, Except.bind, ih]
          cases (compactRecording rest ((dropped.map droppedCblock).foldl Collector.emit
            collector)).1 <;> rfl

theorem compactRecording_fails (unit : List Node) (collector : Collector) :
    ResultFailsFor Cause.StopsCompaction (compactRecording unit collector).1 := by
  induction unit generalizing collector with
  | nil => exact resultFailsFor_ok
  | cons node rest ih =>
      rw [compactRecording]
      split
      · rename_i d failed
        exact resultFailsFor_error (node_compact_fails d failed)
      · exact (ih _).map

/-- The warnings that compaction has recorded when it is done with a unit or fails. -/
def recordedWarnings (unit : List Node) : List Diagnostic :=
  (compactRecording unit {}).2.diagnostics

/-- The nodes in front of the first one that cannot be compacted. -/
def compactableFront : List Node → List Node
  | [] => []
  | node :: rest =>
    match node.compact with
    | .error _ => []
    | .ok _ => node :: compactableFront rest

theorem diagnostics_compactRecording (unit : List Node) (collector : Collector) :
    (compactRecording unit collector).2.diagnostics =
      collector.diagnostics ++ (reportedCblocks (compactableFront unit)).map droppedCblock := by
  induction unit generalizing collector with
  | nil => simp [compactRecording, compactableFront, reportedCblocks]
  | cons node rest ih =>
      rw [compactRecording, compactableFront]
      cases compacted : node.compact with
      | error d => simp [reportedCblocks]
      | ok result =>
          obtain ⟨made, dropped⟩ := result
          simp only [ih, diagnostics_foldl_emit, Node.compact_reports compacted,
            List.append_assoc, ← List.map_append]
          rfl

theorem recordedWarnings_eq (unit : List Node) :
    recordedWarnings unit = (reportedCblocks (compactableFront unit)).map droppedCblock := by
  rw [recordedWarnings, diagnostics_compactRecording, List.nil_append]

theorem severity_of_recorded {unit : List Node} {d : Diagnostic}
    (recorded : d ∈ recordedWarnings unit) : d.severity = .warning := by
  rw [recordedWarnings_eq] at recorded
  obtain ⟨pos, -, rfl⟩ := List.mem_map.mp recorded
  rfl

/-! ## Refusals -/

/-- The stage that refused a unit failed with the error: compaction, or else a standard phase. -/
def RefusedFor (unit : List Node) (d : Diagnostic) : Prop :=
  ((compactRecording unit {}).1 = .error d ∧ d.ErrorFor Cause.StopsCompaction) ∨
    ∃ compacted, (compactRecording unit {}).1 = .ok compacted ∧
      runStandardPhases compacted = .error d ∧ d.ErrorFor Cause.StopsPhases

theorem RefusedFor.severity {unit : List Node} {d : Diagnostic} (refused : RefusedFor unit d) :
    d.severity = .error := by
  rcases refused with ⟨-, error⟩ | ⟨-, -, -, error⟩ <;> exact error.severity

theorem compileUnit_refused {unit : List Node} {refusal : Refusal}
    (refused : compileUnit unit = .error refusal) :
    ∃ d, refusal = .single d ∧ RefusedFor unit d := by
  have recording := compact_eq_compactRecording unit {}
  unfold compileUnit at refused
  cases compacts : (compactRecording unit {}).1 with
  | error d =>
      simp only [recording, compacts, Except.map, Except.error.injEq] at refused
      exact ⟨d, refused.symm, .inl ⟨compacts,
        (compactRecording_fails unit {} d compacts).toErrorFor⟩⟩
  | ok compacted =>
      simp only [recording, compacts, Except.map] at refused
      cases runs : runStandardPhases compacted with
      | error d =>
          simp only [runs, Except.error.injEq] at refused
          exact ⟨d, refused.symm, .inr ⟨compacted, compacts, runs,
            (runStandardPhases_fails compacted d runs).toErrorFor⟩⟩
      | ok made =>
          -- The collector holds warnings only, so that it refuses nothing.
          have finishes : (compactRecording unit {}).2.finish = .ok (recordedWarnings unit) :=
            Collector.finish_of_warnings fun d recorded => severity_of_recorded recorded
          simp only [runs, finishes] at refused
          contradiction

/-- A unit that loads and is refused is refused for the error of the stage that failed and for
nothing else: no warning recorded before is kept, so that all of them are in the refusal only if
there is none. -/
theorem compile_refused_for_one {text : String} {unit : List Node} {refusal : Refusal}
    (loaded : load text = .ok unit) (refused : compile text = .error (.refused refusal)) :
    ∃ d, refusal.diagnostics = [d] ∧ d.severity = .error ∧ RefusedFor unit d ∧
      (∀ warning ∈ recordedWarnings unit, warning ∉ refusal.diagnostics) ∧
      ((∀ warning ∈ recordedWarnings unit, warning ∈ refusal.diagnostics) ↔
        reportedCblocks (compactableFront unit) = []) := by
  have failed : compileUnit unit = .error refusal := by
    simp only [compile, loaded] at refused
    cases ran : compileUnit unit with
    | error other =>
        simp only [ran, Except.mapError, Except.error.injEq, CompileError.refused.injEq]
          at refused
        rw [refused]
    | ok compiled => simp [ran, Except.mapError] at refused
  obtain ⟨d, rfl, stage⟩ := compileUnit_refused failed
  have lost : ∀ warning ∈ recordedWarnings unit, warning ∉ (Refusal.single d).diagnostics := by
    intro warning recorded kept
    have isError := stage.severity
    rw [Refusal.single, List.mem_singleton] at kept
    rw [← kept, severity_of_recorded recorded] at isError
    contradiction
  refine ⟨d, rfl, stage.severity, stage, lost, ?_⟩
  rw [← List.map_eq_nil_iff (f := droppedCblock), ← recordedWarnings_eq]
  constructor
  · intro all
    rw [List.eq_nil_iff_forall_not_mem]
    exact fun warning recorded => lost warning recorded (all warning recorded)
  · intro none
    simp [none]

def refusedSample (members : String) : String :=
  "[\x7b\"type\":\"cblock\",\"value\":\"int a;\",\"line\":1\x7d," ++
    "\x7b\"type\":\"class\",\"name\":\"A\",\"line\":2,\"definition\":\x7b" ++ members ++ "\x7d\x7d]"

def duplicateSample : String :=
  refusedSample ("\"methods\":[\x7b\"type\":\"method\",\"name\":\"m\"\x7d," ++
    "\x7b\"type\":\"method\",\"name\":\"m\"\x7d]")

def builtinSample : String :=
  refusedSample ("\"methods\":[\x7b\"type\":\"method\",\"name\":\"m\",\"statements\":[" ++
    "\x7b\"type\":\"return\",\"expr\":" ++
    "\x7b\"type\":\"new-type\",\"internal-type\":\"int\"\x7d\x7d]\x7d]")

def refusalSummary (text : String) : Option (Option ErrorCode × Nat) := do
  let unit ← (load text).toOption
  match compileUnit unit with
  | .ok _ => none
  | .error refusal => some (refusal.firstError?.bind (·.code), (recordedWarnings unit).length)

theorem refused_of_summary {text : String} {code : ErrorCode}
    (summary : refusalSummary text = some (some code, 1)) :
    ∃ unit refusal, load text = .ok unit ∧ compile text = .error (.refused refusal) ∧
      refusal.firstError?.bind (·.code) = some code ∧ recordedWarnings unit ≠ [] := by
  cases loaded : load text with
  | error e => simp [refusalSummary, loaded, Except.toOption] at summary
  | ok unit =>
      cases ran : compileUnit unit with
      | ok compiled => simp [refusalSummary, loaded, ran, Except.toOption] at summary
      | error refusal =>
          simp only [refusalSummary, loaded, ran, Except.toOption, Option.bind_eq_bind,
            Option.bind_some, Option.some.injEq, Prod.mk.injEq] at summary
          have refused : compile text = .error (.refused refusal) := by
            simp [compile, loaded, ran, Except.mapError]
          exact ⟨unit, refusal, rfl, refused, summary.1, List.ne_nil_of_length_pos (by omega)⟩

def LosesWarning (text : String) (code : ErrorCode) : Prop :=
  ∃ unit refusal d, load text = .ok unit ∧ compile text = .error (.refused refusal) ∧
    refusal.diagnostics = [d] ∧ d.code = some code ∧
    ∃ warning ∈ recordedWarnings unit, warning ∉ refusal.diagnostics

/-- Compaction fails or a phase: the warning of the C block in front of the class is lost. -/
theorem refusedSamples_lose_warning :
    LosesWarning duplicateSample .e100 ∧ LosesWarning builtinSample .e305 := by
  have lost {text : String} {code : ErrorCode}
      (summary : refusalSummary text = some (some code, 1)) : LosesWarning text code := by
    obtain ⟨unit, refusal, loaded, refused, coded, recorded⟩ := refused_of_summary summary
    obtain ⟨d, single, severity, -, missing, -⟩ := compile_refused_for_one loaded refused
    obtain ⟨warning, among⟩ := List.exists_mem_of_ne_nil _ recorded
    refine ⟨unit, refusal, d, loaded, refused, single, ?_, warning, among, missing warning among⟩
    simpa [Refusal.firstError?, single, severity] using coded
  constructor
  · refine lost ?_
    change refusalSummary (.ofList _ ++ .ofList _ ++ (.ofList _ ++ .ofList _) ++ .ofList _) = _
    simp only [← String.ofList_append, refusalSummary, load_ofList]
    decide +kernel
  · refine lost ?_
    change refusalSummary
      (.ofList _ ++ .ofList _ ++ (.ofList _ ++ .ofList _ ++ .ofList _) ++ .ofList _) = _
    simp only [← String.ofList_append, refusalSummary, load_ofList]
    decide +kernel

end Zephir
