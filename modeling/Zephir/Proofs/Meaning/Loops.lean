import Zephir.Proofs.Lowering.Scopes
import Zephir.Proofs.Meaning.Early

/-!
Loops that test a condition. A loop is run for a number of rounds and leaves the outcomes of its
condition, whether it is over, and the state. The statements that lowering puts in its place keep
the run if nothing is hoisted out of the condition. What is hoisted runs once, in front of the loop
and even of the body of one that tests last; from then on a fetch in the condition tests the value
that it found there.
-/

namespace Zephir

variable {V W : Type}

abbrev Body (V W : Type) := State V W → Bool × State V W

structure LoopRun (V W : Type) where
  outcomes : List Bool
  isOver : Bool
  state : State V W

namespace Machine

variable (m : Machine V W)

def rounds (test : Action V W) (body : Body V W) : Nat → State V W → LoopRun V W
  | 0, s => ⟨[], false, s⟩
  | budget + 1, s =>
    let (value, s) := test s
    if m.truthy value then
      let (goesOn, s) := body s
      if goesOn then
        let run := rounds test body budget s
        { run with outcomes := true :: run.outcomes }
      else ⟨[true], true, s⟩
    else ⟨[false], true, s⟩

/-- The rounds of a loop; one that tests last runs its body before the first of them. -/
def loop (kind : LoopKind) (test : Action V W) (body : Body V W) (budget : Nat)
    (s : State V W) : LoopRun V W :=
  match kind with
  | .testFirst => m.rounds test body budget s
  | .testLast =>
    let (goesOn, s) := body s
    if goesOn then m.rounds test body budget s else ⟨[], true, s⟩

/-- Runs a lowered block that ends in a loop. What a block of statements does as the body of a loop
is given. -/
def runLoop (act : List Statement → Body V W) (block : List Statement) (budget : Nat)
    (s : State V W) : Option (LoopRun V W) :=
  match m.opening block s with
  | (some (.whileLoop kind condition body), s) =>
    some (m.loop kind (m.meaning m.php condition).value (act body) budget s)
  | _ => none

theorem runLoop_of_opening {act : List Statement → Body V W} {block body : List Statement}
    {s t : State V W} {kind : LoopKind} {condition : Expr}
    (opens : m.opening block s = (some (.whileLoop kind condition body), t)) (budget : Nat) :
    m.runLoop act block budget s =
      some (m.loop kind (m.meaning m.php condition).value (act body) budget t) := by
  simp only [runLoop, opens]

end Machine

/-- What a body does it still does once it is lowered in the scope. -/
def KeepsBlock (act : List Statement → Body V W) (body : List Statement) (scope : Scope) : Prop :=
  ∀ lowered next, lowerBlock body scope = .ok (lowered, next) → act lowered.node = act body

theorem length_headDocs (docblocks : List Docblock) (block : List Statement) :
    (headDocs docblocks block).length = block.length := by
  cases block <;> rfl

theorem whileLoop_lowered {kind : LoopKind} {condition : Expr} {body : List Statement}
    {pos : Position} {docblocks : List Docblock} {scope next : Scope}
    {splice : Splice (Option Statement)}
    (ran : lowerStatement ⟨.whileLoop kind condition body, pos, docblocks⟩ scope =
      .ok (splice, next)) :
    ∃ before condition' mid body', LowersExpr condition scope before condition' mid ∧
      (lowerBlock body).Runs ((lowerExpr condition).scopeAfter scope) [] body' next ∧
      splice.toBlock =
        headDocs docblocks (before ++ [⟨.whileLoop kind condition' body', pos, []⟩]) := by
  obtain ⟨nothing, derived⟩ := lowerStatement_derives scope _ splice next ran
  rw [Splice.toBlock, nothing, List.append_nil]
  generalize splice.before ++ splice.node.toList = block at derived
  cases derived with
  | mk lowered =>
      cases lowered with
      | whileLoop loweredCondition loweredBody =>
          rw [loweredCondition.runs.scopeAfter]
          exact ⟨_, _, _, _, loweredCondition, loweredBody.runs, rfl⟩

/-- The statements in place of a loop. Out of its condition nothing is hoisted exactly if the
condition holds neither a fetch nor a property named by a string, and then every run of the loop is
kept. With fetches in the condition, all of them are done once before the loop starts, and the
condition only tests what they found. -/
theorem loop_run_lowered {kind : LoopKind} {condition : Expr} {body : List Statement}
    {pos : Position} {docblocks : List Docblock} {scope next : Scope}
    {splice : Splice (Option Statement)} {m : Machine V W} {act : List Statement → Body V W}
    (ran : lowerStatement ⟨.whileLoop kind condition body, pos, docblocks⟩ scope =
      .ok (splice, next))
    (closures : ∀ kind ∈ condition.parts, m.KeepsClosure kind)
    (kept : KeepsBlock act body ((lowerExpr condition).scopeAfter scope)) :
    (splice.toBlock.length = 1 ↔ HoistFree condition.parts) ∧
    (HoistFree condition.parts → ∀ budget s, m.runLoop act splice.toBlock budget s =
      some (m.loop kind (m.meaning (m.zephir scope) condition).value (act body) budget s)) ∧
    ((∀ kind ∈ condition.parts, kind.isStringProperty = false) → ∀ budget s,
      m.runLoop act splice.toBlock budget s =
        some (m.loop kind (m.meaning (m.fetchedBefore scope) condition).value (act body) budget
          (m.fetchAll (m.fetchedBefore scope) condition.fetches s))) := by
  obtain ⟨before, condition', mid, body', loweredCondition, ranBody, block⟩ :=
    whileLoop_lowered ran
  have same : act body' = act body := kept _ _ ranBody
  refine ⟨?_, ?_, ?_⟩
  · rw [← loweredCondition.before_eq_nil_iff, block]
    simp [length_headDocs]
  · intro free budget s
    have nothing := loweredCondition.before_eq_nil_iff.mpr free
    have opens : m.opening splice.toBlock s = (some (.whileLoop kind condition' body'), s) := by
      rw [block, m.opening_headDocs, nothing]
      rfl
    rw [m.runLoop_of_opening opens, loweredCondition.meaning_of_hoistFree free closures, same]
  · intro plain budget s
    obtain ⟨does, means⟩ := loweredCondition.meaning_eq fun kind inside =>
      ⟨plain kind inside, closures kind inside⟩
    have opens : m.opening splice.toBlock s = (some (.whileLoop kind condition' body'),
        m.fetchAll (m.fetchedBefore scope) condition.fetches s) := by
      rw [block, m.opening_headDocs, does.opening_eq]
      rfl
    rw [m.runLoop_of_opening opens, means, same]

def Statement.countsUp (s : Statement) : List String :=
  match s.kind with
  | .lets assignments => (assignments.filter (·.assign.target = .incr)).map (·.assign.base)
  | .assign .increment assign => [assign.base]
  | _ => []

def countUp (block : List Statement) : Body (Option Nat) Unit := fun s =>
  (true, (block.flatMap Statement.countsUp).foldl
    (fun s name => s.set name ((s.vars name).map (· + 1))) s)

def countingState : State (Option Nat) Unit :=
  ⟨fun name => if name = "items" then some 2 else some 0, ()⟩

def countIndex : List Statement :=
  [⟨.lets [⟨⟨.incr, none, "index", none, [], none⟩, {}⟩], {}, []⟩]

theorem keepsBlock_countUp (scope : Scope) : KeepsBlock countUp countIndex scope := by
  intro lowered next ran
  cases ran
  rfl

def loopSample (kind : LoopKind) (condition : Expr) : Statement :=
  ⟨.whileLoop kind condition countIndex, {}, []⟩

def sourceLoop (kind : LoopKind) (condition : Expr) (budget : Nat) : LoopRun (Option Nat) Unit :=
  countingMachine.loop kind
    (countingMachine.meaning (countingMachine.zephir ⟨.empty, [], []⟩) condition).value
    (countUp countIndex) budget countingState

def loweredLoop (block : List Statement) (budget : Nat) : Option (LoopRun (Option Nat) Unit) :=
  countingMachine.runLoop countUp block budget countingState

/-- `do { … } while items[index]` runs as it stands. `while fetch item, items[index] { … }` ends
after two rounds, but once lowered it goes on: the fetch was done before the loop. -/
theorem loopSamples_run_lowered :
    (∃ splice next, lowerStatement (loopSample .testLast (elementOf "items" "index"))
        ⟨.empty, [], []⟩ = .ok (splice, next) ∧ ∀ budget,
      loweredLoop splice.toBlock budget =
        some (sourceLoop .testLast (elementOf "items" "index") budget)) ∧
    ∃ splice next, lowerStatement (loopSample .testFirst (fetchFrom "item" "items" "index"))
        ⟨.empty, [], []⟩ = .ok (splice, next) ∧ splice.toBlock.length ≠ 1 ∧
      (loweredLoop splice.toBlock 3).map (·.outcomes) = some [true, true, true] ∧
      (sourceLoop .testFirst (fetchFrom "item" "items" "index") 3).outcomes =
        [true, true, false] := by
  constructor
  · obtain ⟨splice, next, ran⟩ : ∃ splice next, lowerStatement
        (loopSample .testLast (elementOf "items" "index")) ⟨.empty, [], []⟩ =
          .ok (splice, next) :=
      ⟨_, _, rfl⟩
    have run := loop_run_lowered ran (fun kind _ => countingMachine_keepsClosure kind)
      (keepsBlock_countUp _)
    have free : HoistFree (elementOf "items" "index").parts := by
      simp [elementOf, Expr.plain, Expr.var]
    exact ⟨splice, next, ran, fun budget => run.2.1 free budget countingState⟩
  · obtain ⟨splice, next, ran, outcomes⟩ : ∃ splice next, lowerStatement
        (loopSample .testFirst (fetchFrom "item" "items" "index")) ⟨.empty, [], []⟩ =
          .ok (splice, next) ∧
        (loweredLoop splice.toBlock 3).map (·.outcomes) = some [true, true, true] :=
      ⟨_, _, rfl, rfl⟩
    have run := loop_run_lowered ran (fun kind _ => countingMachine_keepsClosure kind)
      (keepsBlock_countUp _)
    have hoisted : splice.toBlock.length ≠ 1 := by
      rw [Ne, run.1]
      simp [fetchFrom, Expr.plain]
    exact ⟨splice, next, ran, hoisted, outcomes, rfl⟩

end Zephir
