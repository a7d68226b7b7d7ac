import Zephir.Proofs.Compile.Refusals

/-!
Two checks of lowering that nothing fails. A closure of a single expression must not have anything
to run after the expression, and a temporary must be of a type that has a mark. Lowering never puts
anything after a node, and it asks for temporaries of marked types only, so no text is refused for
what these checks would find.
-/

namespace Zephir

inductive Cause.StopsLoading : Cause → Prop
  | parser (message : String) : StopsLoading (.parser message)
  | malformedNode (message : String) : StopsLoading (.malformedNode message)

inductive Cause.StopsCompiling : Cause → Prop
  | loading {cause : Cause} (stops : cause.StopsLoading) : StopsCompiling cause
  | compaction {cause : Cause} (stops : cause.StopsCompaction) : StopsCompiling cause
  | phases {cause : Cause} (stops : cause.StopsPhases) : StopsCompiling cause

theorem ParserRecord.diagnostic_raised (record : ParserRecord) :
    record.diagnostic.RaisedFor Cause.StopsLoading := by
  unfold ParserRecord.diagnostic
  split
  · exact Cause.raisedFor_at (.parser _)
  · exact Cause.raisedFor_at (.malformedNode _)

theorem load_refused_raised {text : String} {d : Diagnostic}
    (refused : load text = .error (.refused d)) : d.RaisedFor Cause.StopsLoading := by
  unfold load at refused
  split at refused
  · simp at refused
  · split at refused
    · split at refused
      · simp at refused
      · cases refused
        exact ParserRecord.diagnostic_raised _
    · split at refused <;> simp at refused

theorem RefusedFor.raised {unit : List Node} {d : Diagnostic} (refused : RefusedFor unit d) :
    d.RaisedFor Cause.StopsCompiling := by
  rcases refused with ⟨failed, -⟩ | ⟨compacted, -, failed, -⟩
  · exact (compactRecording_fails unit {} d failed).mono fun _ => .compaction
  · exact (runStandardPhases_fails compacted d failed).mono fun _ => .phases

theorem compile_refused_raised {text : String} {refusal : Refusal}
    (refused : compile text = .error (.refused refusal)) :
    ∃ d, refusal = .single d ∧ d.RaisedFor Cause.StopsCompiling := by
  unfold compile at refused
  cases loaded : load text with
  | error e =>
      cases e with
      | unreadable => simp [loaded] at refused
      | refused d =>
          simp only [loaded, Except.error.injEq, CompileError.refused.injEq] at refused
          exact ⟨d, refused.symm, (load_refused_raised loaded).mono fun _ => .loading⟩
  | ok unit =>
      cases ran : compileUnit unit with
      | ok compiled => simp [loaded, ran, Except.mapError] at refused
      | error other =>
          simp only [loaded, ran, Except.mapError, Except.error.injEq,
            CompileError.refused.injEq] at refused
          obtain ⟨d, single, stage⟩ := compileUnit_refused ran
          exact ⟨d, refused ▸ single, stage.raised⟩

inductive Cause.IsChecked : Cause → Prop
  | closureSideEffect : IsChecked .closureSideEffect
  | unsupportedTemporaryType (dataType : String) : IsChecked (.unsupportedTemporaryType dataType)

theorem Cause.isChecked_iff_code {cause : Cause} :
    cause.IsChecked ↔ cause.code = .e302 ∨ cause.code = .e306 := by
  constructor
  · rintro (_ | dataType)
    · exact .inl rfl
    · exact .inr rfl
  · intro coded
    cases cause with
    | closureSideEffect => exact .closureSideEffect
    | unsupportedTemporaryType dataType => exact .unsupportedTemporaryType dataType
    | _ => simp [Cause.code] at coded

theorem Cause.StopsCompiling.not_checked {cause : Cause} (stops : cause.StopsCompiling) :
    ¬ cause.IsChecked := by
  intro checked
  cases stops with
  | loading stops => cases stops <;> cases checked
  | compaction stops => cases stops; cases checked
  | phases stops =>
      cases stops with
      | lowering stops => cases stops <;> cases checked
      | _ => cases checked

/-- Nothing is put after a lowered node, temporaries are asked for of types that have a mark, and no
text is refused for anything that the two checks would find. -/
theorem lowering_checks_hold :
    (∀ e scope splice next, lowerExpr e scope = .ok (splice, next) → splice.after = []) ∧
    (∀ s scope splice next, lowerStatement s scope = .ok (splice, next) → splice.after = []) ∧
    (∀ e, (lowerExpr e).Careful Cause.StopsLowering) ∧
    (∀ s, (lowerStatement s).Careful Cause.StopsLowering) ∧
    ∀ text refusal, compile text = .error (.refused refusal) → ∀ d ∈ refusal.diagnostics,
      (∀ cause, d.cause = some cause → ¬ cause.IsChecked) ∧
        d.code ≠ some .e302 ∧ d.code ≠ some .e306 := by
  refine ⟨fun e scope splice next ran => (lowerExpr_derives scope e splice next ran).1,
    fun s scope splice next ran => (lowerStatement_derives scope s splice next ran).1,
    lowerExpr_careful, lowerStatement_careful, ?_⟩
  intro text refusal refused d among
  obtain ⟨single, rfl, raised⟩ := compile_refused_raised refused
  rw [Refusal.single, List.mem_singleton] at among
  subst among
  obtain ⟨cause, found, stops⟩ := raised.cause
  have unchecked := stops.not_checked
  have coded : d.code = some cause.code := by rw [raised.code, found, Option.map_some]
  refine ⟨fun other same => ?_, fun same => ?_, fun same => ?_⟩
  · rw [found, Option.some.injEq] at same
    exact same ▸ unchecked
  · rw [coded, Option.some.injEq] at same
    exact unchecked (Cause.isChecked_iff_code.mpr (.inl same))
  · rw [coded, Option.some.injEq] at same
    exact unchecked (Cause.isChecked_iff_code.mpr (.inr same))

/-- A closure of a single expression that reads a property by a computed name. The name is kept in
a temporary first. -/
def arrowSample : Expr :=
  .plain (.closureArrow (.var "row" {}) (.plain (.access .stringProperty (.var "row" {})
    (.str "name" {})) {})) {}

def freshScope : Scope :=
  { locals := .empty, parameters := [] }

def newTypeSample : String :=
  "[\x7b\"type\":\"function\",\"name\":\"f\",\"statements\":[\x7b\"type\":\"return\"," ++
    "\"expr\":\x7b\"type\":\"new-type\",\"internal-type\":\"int\"\x7d\x7d]\x7d]"

def refusalCode? (text : String) : Option ErrorCode :=
  match compile text with
  | .error (.refused refusal) => refusal.firstError?.bind (·.code)
  | _ => none

theorem refused_of_code {text : String} {code : ErrorCode}
    (coded : refusalCode? text = some code) :
    ∃ refusal d, compile text = .error (.refused refusal) ∧ d ∈ refusal.diagnostics := by
  unfold refusalCode? at coded
  split at coded
  · rename_i refusal refused
    obtain ⟨d, found, -⟩ := Option.bind_eq_some_iff.mp coded
    exact ⟨refusal, d, refused, List.mem_of_find?_eq_some found⟩
  · contradiction

theorem arrowSample_checks_hold :
    (∃ splice next, lowerExpr arrowSample freshScope = .ok (splice, next) ∧ splice.after = []) ∧
    (∃ splice next, lowerStatement ⟨.ret (some arrowSample), {}, []⟩ freshScope =
      .ok (splice, next) ∧ splice.after = []) ∧
    ∃ refusal d, compile newTypeSample = .error (.refused refusal) ∧ d ∈ refusal.diagnostics ∧
      d.code ≠ some .e302 ∧ d.code ≠ some .e306 := by
  obtain ⟨afterExpr, afterStatement, -, -, unrefused⟩ := lowering_checks_hold
  refine ⟨?_, ?_, ?_⟩
  · have lowers : (lowerExpr arrowSample freshScope).isOk = true := by decide +kernel
    obtain ⟨⟨splice, next⟩, ran⟩ := exists_ok_of_isOk lowers
    exact ⟨splice, next, ran, afterExpr _ _ _ _ ran⟩
  · have lowers : (lowerStatement ⟨.ret (some arrowSample), {}, []⟩ freshScope).isOk = true := by
      decide +kernel
    obtain ⟨⟨splice, next⟩, ran⟩ := exists_ok_of_isOk lowers
    exact ⟨splice, next, ran, afterStatement _ _ _ _ ran⟩
  · have coded : refusalCode? newTypeSample = some .e305 := by
      change refusalCode? (.ofList _ ++ .ofList _) = some .e305
      rw [← String.ofList_append, refusalCode?, compile, load_ofList]
      decide +kernel
    obtain ⟨refusal, d, refused, among⟩ := refused_of_code coded
    exact ⟨refusal, d, refused, among, (unrefused _ _ refused d among).2⟩

end Zephir
