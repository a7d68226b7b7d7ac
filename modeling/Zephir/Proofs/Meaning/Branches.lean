import Zephir.Proofs.Meaning.Conditions

/-!
Chains of branches. All fetches of a chain, those of its `elseif` conditions included, are done once
before its first condition, in the order of the text; then the conditions test what was found. The
chain takes the branch that the source takes, and enters it with the same variables but for those
whose fetch the source does not reach, if the fetches of the chain do not get in the way of one
another.
-/

namespace Zephir

open Lowering

variable {V W : Type}

def scopeAfter (body : List Statement) (scope : Scope) : Scope :=
  match lowerBlock body scope with
  | .ok (_, next) => next
  | .error _ => scope

def testsIn : Scope → List ElseIf → List (Expr × Scope)
  | _, [] => []
  | scope, clause :: rest =>
    (clause.condition, scope) :: testsIn (scopeAfter clause.body scope) rest

def chainTests (scope : Scope) (condition : Expr) (body : List Statement)
    (elseIfs : List ElseIf) : List (Expr × Scope) :=
  (condition, scope) :: testsIn (scopeAfter body scope) elseIfs

namespace Machine

variable (m : Machine V W)

/-- The first test that holds, or the number of tests if none does, and the state in which the
branch is entered. -/
def take : List (Action V W) → State V W → Nat × State V W
  | [], s => (0, s)
  | test :: rest, s =>
    let (value, s) := test s
    if m.truthy value then (0, s)
    else
      let (branch, s) := take rest s
      (branch + 1, s)

/-- The branch that a lowered block takes that ends in a chain of branches. -/
def takeBranch (block : List Statement) (s : State V W) : Option (Nat × State V W) :=
  match m.opening block s with
  | (some (.branch condition _ elseIfs _), s) =>
    some (m.take ((condition :: elseIfs.map (·.condition)).map fun e =>
      (m.meaning m.php e).value) s)
  | _ => none

def takeSource (tests : List (Expr × Scope)) (s : State V W) : Nat × State V W :=
  m.take (tests.map fun test => (m.meaning (m.zephir test.2) test.1).value) s

def takeFetched (tests : List (Expr × Scope)) (s : State V W) : Nat × State V W :=
  m.take (tests.map fun test => (m.meaning (m.fetchedBefore test.2) test.1).value) s

def fetchTests : List (Expr × Scope) → State V W → State V W
  | [], s => s
  | (e, scope) :: rest, s => fetchTests rest (m.fetchAll (m.fetchedBefore scope) e.fetches s)

/-- The variables whose fetches the source reaches before it takes a branch. -/
def reached : List (Expr × Scope) → State V W → List String
  | [], _ => []
  | (e, scope) :: rest, s =>
    let outcome := e.condition.run m (m.zephir scope) s
    if outcome.holds then outcome.reached else outcome.reached ++ reached rest outcome.state

end Machine

/-! ### The lowered chain -/

section Lowered

variable {m : Machine V W}

/-- The statements in front of a chain do the fetches of its tests, and the lowered conditions test
what they found. -/
structure ChainLowered (m : Machine V W) (tests : List (Expr × Scope)) (before : List Statement)
    (conditions : List Expr) : Prop where
  opening : ∀ rest s, m.opening (before ++ rest) s = m.opening rest (m.fetchTests tests s)
  meanings : conditions.map (m.meaning m.php) =
    tests.map fun test => m.meaning (m.fetchedBefore test.2) test.1

theorem ChainLowered.cons {clause : ElseIf} {rest : List ElseIf} {condition' : Expr}
    {conditions : List Expr} {scope mid last : Scope} {first second : List Statement}
    {body' : List Statement} (lowered : LowersExpr clause.condition scope first condition' mid)
    (follows : ∀ kind ∈ clause.condition.parts, m.Follows kind)
    (ran : (lowerBlock clause.body).Runs mid [] body' last)
    (others : ChainLowered m (testsIn last rest) second conditions) :
    ChainLowered m (testsIn scope (clause :: rest)) (first ++ second)
      (condition' :: conditions) := by
  obtain ⟨does, same⟩ := lowered.meaning_eq follows
  obtain rfl := does.scope_eq
  have after : scopeAfter clause.body mid = last := by
    unfold scopeAfter
    rw [ran]
  constructor
  · intro rest s
    rw [List.append_assoc, does.opening_eq, others.opening, testsIn, after]
    rfl
  · rw [testsIn, after, List.map_cons, List.map_cons, same, others.meanings]

theorem lowerElseIfs_chain (clauses : List ElseIf) (scope : Scope)
    (follows : ∀ clause ∈ clauses, ∀ kind ∈ clause.condition.parts, m.Follows kind) :
    (lowerElseIfs clauses).Ensures scope fun before clauses' _ =>
      ChainLowered m (testsIn scope clauses) before (clauses'.map (·.condition)) := by
  induction clauses generalizing scope with
  | nil =>
      rw [lowerElseIfs]
      exact ensures_pure ⟨fun _ _ => rfl, rfl⟩
  | cons clause rest ih =>
      obtain ⟨condition, body, pos⟩ := clause
      obtain ⟨followsFirst, followsRest⟩ := List.forall_mem_cons.mp follows
      rw [lowerElseIfs]
      refine (lowerExpr_derives scope condition).bind ?_
      intro first condition' mid lowered
      refine (lowerBlock_derives mid body).runs.bind ?_
      rintro _ body' last ⟨ran, rfl, -⟩
      refine (ih last followsRest).andReturn ?_
      intro second rest' next others
      exact .cons lowered followsFirst ran others

theorem lowerKind_chain {condition : Expr} {body : List Statement} {elseIfs : List ElseIf}
    {otherwise : Option (List Statement)} {pos : Position} {scope : Scope}
    (follows : ∀ e ∈ condition :: elseIfs.map (·.condition), ∀ kind ∈ e.parts, m.Follows kind) :
    (lowerKind pos (.branch condition body elseIfs otherwise)).Ensures scope
      fun before kind' _ => ∃ condition' body' elseIfs' otherwise',
        kind' = some (.branch condition' body' elseIfs' otherwise') ∧
        ChainLowered m (chainTests scope condition body elseIfs) before
          (condition' :: elseIfs'.map (·.condition)) := by
  obtain ⟨followsFirst, followsRest⟩ := List.forall_mem_cons.mp follows
  rw [List.forall_mem_map] at followsRest
  rw [lowerKind]
  refine (lowerExpr_derives scope condition).bind ?_
  intro first condition' mid lowered
  refine (lowerBlock_derives mid body).runs.bind ?_
  rintro _ body' last ⟨ran, rfl, -⟩
  refine (lowerElseIfs_chain elseIfs last followsRest).bind ?_
  intro second elseIfs' rest others
  have chain : ChainLowered m (testsIn scope (⟨condition, body, pos⟩ :: elseIfs))
      (first ++ second) (condition' :: elseIfs'.map (·.condition)) :=
    .cons lowered followsFirst ran others
  cases otherwise with
  | none =>
      refine ensures_pure ⟨condition', body', elseIfs', none, rfl, ?_⟩
      rw [List.append_nil]
      exact chain
  | some final =>
      refine (lowerBlock_derives rest final).andReturn ?_
      rintro _ final' next ⟨rfl, -⟩
      refine ⟨condition', body', elseIfs', some final', rfl, ?_⟩
      rw [List.append_nil]
      exact chain

theorem takeBranch_eq {condition : Expr} {body : List Statement} {elseIfs : List ElseIf}
    {otherwise : Option (List Statement)} {pos : Position} {docblocks : List Docblock}
    {scope next : Scope} {splice : Splice (Option Statement)}
    (ran : lowerStatement ⟨.branch condition body elseIfs otherwise, pos, docblocks⟩ scope =
      .ok (splice, next))
    (follows : ∀ e ∈ condition :: elseIfs.map (·.condition), ∀ kind ∈ e.parts, m.Follows kind)
    (s : State V W) :
    m.takeBranch splice.toBlock s = some (m.takeFetched (chainTests scope condition body elseIfs)
      (m.fetchTests (chainTests scope condition body elseIfs) s)) := by
  obtain ⟨nothing, before, _, ⟨condition', body', elseIfs', otherwise', rfl, chain⟩, block⟩ :=
    lowerStatement_ensures (lowerKind_chain follows) splice next ran
  have opens : m.opening splice.toBlock s =
      (some (.branch condition' body' elseIfs' otherwise'),
        m.fetchTests (chainTests scope condition body elseIfs) s) := by
    rw [Splice.toBlock, nothing, List.append_nil, block, m.opening_headDocs, chain.opening]
    rfl
  have meanings := congrArg (List.map Meaning.value) chain.meanings
  rw [List.map_map, List.map_map] at meanings
  simp only [Machine.takeBranch, opens, Machine.takeFetched]
  exact congrArg (fun tests => some (m.take tests _)) meanings

end Lowered

/-! ### The same branch -/

def fetchedBy (tests : List (Expr × Scope)) : List String :=
  tests.flatMap fun test => test.1.condition.targets

/-- A chain without fetches, or with a single one that evaluation comes to first. -/
def Leading (tests : List (Expr × Scope)) : Prop :=
  fetchedBy tests = [] ∨ (fetchedBy tests).length = 1 ∧
    (tests.head?.map fun test => test.1.condition.leads) = some true

def chainSteps (m : Machine V W) (tests : List (Expr × Scope)) : List (String × Action V W) :=
  tests.flatMap fun test => test.1.condition.steps m test.2

def ChainOrderly (m : Machine V W) (fetched : List String) :
    (before done : List String) → List (Expr × Scope) → Prop
  | _, _, [] => True
  | before, done, (e, scope) :: rest =>
    e.condition.Orderly m scope fetched before done ∧
      ChainOrderly m fetched (before ++ e.condition.targets) (done ++ e.condition.sure false) rest

/-- The fetches of a chain do not get in the way of one another: there are none inside of operands
and sources, each variable is fetched once, and the conditions are orderly. -/
structure Machine.Orderly (m : Machine V W) (tests : List (Expr × Scope)) : Prop where
  free : ∀ test ∈ tests, test.1.condition.FetchFree
  distinct : (fetchedBy tests).Nodup
  order : ChainOrderly m (fetchedBy tests) [] [] tests

section SameBranch

variable {m : Machine V W} {s later : State V W} {tests : List (Expr × Scope)}

theorem take_meaning_cons (reading : Reading V W) (e : Expr) (rest : List (Action V W))
    (s : State V W) : m.take ((m.meaning reading e).value :: rest) s =
      let outcome := e.condition.run m reading s
      if outcome.holds then (0, outcome.state)
      else ((m.take rest outcome.state).1 + 1, (m.take rest outcome.state).2) := by
  obtain ⟨holds, state⟩ := e.run_condition m reading s
  simp only [Machine.take, holds, state]

theorem takeSource_cons (e : Expr) (scope : Scope) (rest : List (Expr × Scope)) (s : State V W) :
    m.takeSource ((e, scope) :: rest) s =
      let outcome := e.condition.run m (m.zephir scope) s
      if outcome.holds then (0, outcome.state)
      else ((m.takeSource rest outcome.state).1 + 1, (m.takeSource rest outcome.state).2) :=
  take_meaning_cons _ e _ s

theorem takeFetched_cons (e : Expr) (scope : Scope) (rest : List (Expr × Scope)) (s : State V W) :
    m.takeFetched ((e, scope) :: rest) s =
      let outcome := e.condition.run m (m.fetchedBefore scope) s
      if outcome.holds then (0, outcome.state)
      else ((m.takeFetched rest outcome.state).1 + 1, (m.takeFetched rest outcome.state).2) :=
  take_meaning_cons _ e _ s

theorem fetches_condition (e : Expr) (free : e.condition.FetchFree) :
    e.fetches = e.condition.fetches := by
  obtain ⟨operands, sources⟩ := free
  induction e using Expr.condition.induct with
  | case1 e pos dataType doCast ih
  | case2 e pos dataType doCast ih
  | case3 e pos dataType doCast ih
  | case4 e pos dataType doCast ih =>
      rw [Expr.fetches_mk, ExprKind.inner, ← Expr.fetches]
      exact (List.append_nil _).trans (ih operands sources)
  | case5 left right pos dataType doCast ihLeft ihRight
  | case6 left right pos dataType doCast ihLeft ihRight =>
      obtain ⟨leftOperands, rightOperands⟩ := List.forall_mem_append.mp operands
      obtain ⟨leftSources, rightSources⟩ := List.forall_mem_append.mp sources
      have first := ihLeft leftOperands leftSources
      have second := ihRight rightOperands rightSources
      rw [Expr.fetches_mk, Expr.condition, Condition.fetches, ← first, ← second]
      simp [Expr.fetches]
  | case7 test yes no pos dataType doCast ihTest ihYes ihNo =>
      simp only [Expr.condition, Condition.operands, Condition.fetches,
        List.forall_mem_append] at operands sources
      have first := ihTest operands.1.1 sources.1.1
      have second := ihYes operands.1.2 sources.1.2
      have third := ihNo operands.2 sources.2
      rw [Expr.fetches_mk, Expr.condition, Condition.fetches, ← first, ← second, ← third]
      simp [Expr.fetches]
  | case8 target source pos dataType doCast =>
      have free := sources (target.asVar?.getD "", source) (List.mem_singleton_self _)
      rw [Expr.fetches_mk, Expr.condition, Condition.fetches, ExprKind.inner, ← Expr.fetches, free]
      rfl
  | case9 e =>
      have spelled : e.condition = .operand e := by
        rw [Expr.condition]
        all_goals assumption
      rw [spelled] at operands ⊢
      exact operands e (List.mem_singleton_self _)

theorem fetchAll_eq_storeAll (reading : Reading V W) (fetches : List (String × Expr))
    (s : State V W) : m.fetchAll reading fetches s = storeAll
      (fetches.map fun fetch => (fetch.1, m.fetched (m.meaning reading fetch.2))) s := by
  induction fetches generalizing s with
  | nil => rfl
  | cons first rest ih => exact ih _

theorem fetchTests_eq_storeAll (free : ∀ test ∈ tests, test.1.condition.FetchFree)
    (s : State V W) : m.fetchTests tests s = storeAll (chainSteps m tests) s := by
  induction tests generalizing s with
  | nil => rfl
  | cons test rest ih =>
      obtain ⟨e, scope⟩ := test
      obtain ⟨freeFirst, freeRest⟩ := List.forall_mem_cons.mp free
      rw [Machine.fetchTests, ih freeRest, fetchAll_eq_storeAll, fetches_condition e freeFirst]
      simp [chainSteps, storeAll_append, Condition.steps]

theorem map_fst_chainSteps (tests : List (Expr × Scope)) :
    (chainSteps m tests).map Prod.fst = fetchedBy tests := by
  simp [chainSteps, fetchedBy, List.map_flatMap]

theorem keep_chainSteps {fetched before done : List String}
    (free : ∀ test ∈ tests, test.1.condition.FetchFree)
    (order : ChainOrderly m fetched before done tests) : Keep (chainSteps m tests) := by
  induction tests generalizing before done with
  | nil => simp [chainSteps, Keep]
  | cons test rest ih =>
      obtain ⟨e, scope⟩ := test
      obtain ⟨freeFirst, freeRest⟩ := List.forall_mem_cons.mp free
      refine List.forall_mem_append.mpr ⟨?_, ih freeRest order.2⟩
      intro step inside s
      obtain ⟨fetch, isFetch, rfl⟩ := List.mem_map.mp inside
      rw [m.meaning_of_fetches_eq_nil (freeFirst.sources fetch isFetch)]
      exact (order.1.sources fetch isFetch).keeps s

theorem chain_agree {fetched before done reached : List String} {now early : State V W}
    (world : later.world = s.world)
    (untouched : ∀ name ∉ fetched, later.vars name = s.vars name)
    (free : ∀ test ∈ tests, test.1.condition.FetchFree)
    (found : FoundBy s later before (chainSteps m tests))
    (order : ChainOrderly m fetched before done tests) (doneReached : done ⊆ reached)
    (reachedBefore : reached ⊆ before) (inside : before ++ fetchedBy tests ⊆ fetched)
    (distinct : (before ++ fetchedBy tests).Nodup)
    (states : Matching s later fetched reached now early) :
    (m.takeFetched tests early).1 = (m.takeSource tests now).1 ∧
      Matching s later fetched (reached ++ m.reached tests now) (m.takeSource tests now).2
        (m.takeFetched tests early).2 := by
  -- By induction on the chain. A test is only come to after those in front of it have failed, so
  -- what they reach for sure when they fail is done for sure.
  induction tests generalizing before done reached now early with
  | nil =>
      refine ⟨rfl, ?_⟩
      simpa [Machine.takeFetched, Machine.takeSource, Machine.take, Machine.reached] using states
  | cons test rest ih =>
      obtain ⟨e, scope⟩ := test
      obtain ⟨freeFirst, freeRest⟩ := List.forall_mem_cons.mp free
      simp only [fetchedBy, List.flatMap_cons, ← List.append_assoc] at inside distinct
      have ready : e.condition.Ready m scope s later fetched before done reached := {
        free := freeFirst
        found := found.left
        order := order.1
        done_subset := doneReached
        reached_subset := reachedBefore
        fetched_of := List.Subset.trans (List.subset_append_left _ _) inside
        distinct := (List.nodup_append.mp distinct).1 }
      have agree := ready.agree world untouched states
      have sure := e.condition.sure_subset_reached m (m.zephir scope) now
      have targets := e.condition.reached_subset_targets m (m.zephir scope) now
      simp only [takeFetched_cons, takeSource_cons, agree.holds, Machine.reached]
      split
      · exact ⟨rfl, agree.states⟩
      · rename_i fails
        rw [Bool.eq_false_iff.mpr fails] at sure
        have foundRest := found.right
        rw [Condition.map_fst_steps] at foundRest
        have doneRest : done ++ e.condition.sure false ⊆
            reached ++ (e.condition.run m (m.zephir scope) now).reached := by grind
        have reachedRest : reached ++ (e.condition.run m (m.zephir scope) now).reached ⊆
            before ++ e.condition.targets := by grind
        obtain ⟨same, matching⟩ := ih freeRest foundRest order.2 doneRest reachedRest inside
          distinct agree.states
        rw [List.append_assoc] at matching
        exact ⟨congrArg (· + 1) same, matching⟩

theorem Machine.Orderly.fetchTests_frame (orderly : m.Orderly tests) (s : State V W) :
    (m.fetchTests tests s).world = s.world ∧
      ∀ name ∉ fetchedBy tests, (m.fetchTests tests s).vars name = s.vars name := by
  have keep := keep_chainSteps orderly.free orderly.order
  rw [fetchTests_eq_storeAll orderly.free]
  refine ⟨storeAll_world keep s, ?_⟩
  intro name other
  rw [← map_fst_chainSteps (m := m)] at other
  exact storeAll_vars_of_notMem keep other s

theorem Machine.Orderly.agree (orderly : m.Orderly tests) (s : State V W) :
    (m.takeFetched tests (m.fetchTests tests s)).1 = (m.takeSource tests s).1 ∧
      Matching s (m.fetchTests tests s) (fetchedBy tests) (m.reached tests s)
        (m.takeSource tests s).2 (m.takeFetched tests (m.fetchTests tests s)).2 := by
  have found : FoundBy s (m.fetchTests tests s) [] (chainSteps m tests) := by
    rw [fetchTests_eq_storeAll orderly.free]
    refine foundBy_storeAll (keep_chainSteps orderly.free orderly.order) ?_ s
    rw [map_fst_chainSteps]
    exact orderly.distinct
  obtain ⟨world, untouched⟩ := orderly.fetchTests_frame s
  exact chain_agree world untouched orderly.free found orderly.order (List.Subset.refl [])
    (List.Subset.refl []) (List.Subset.refl _) orderly.distinct
    (.inl ⟨(s.ahead_nil _).symm, rfl⟩)

theorem takeFetched_eq_takeSource (free : ∀ test ∈ tests, test.1.condition.FetchFree)
    (none : fetchedBy tests = []) : m.takeFetched tests = m.takeSource tests := by
  funext s
  induction tests generalizing s with
  | nil => rfl
  | cons test rest ih =>
      obtain ⟨e, scope⟩ := test
      obtain ⟨freeFirst, freeRest⟩ := List.forall_mem_cons.mp free
      obtain ⟨noneFirst, noneRest⟩ := List.append_eq_nil_iff.mp none
      have run := Condition.run_of_fetches_eq_nil m scope freeFirst
        (List.map_eq_nil_iff.mp noneFirst)
      simp only [takeFetched_cons, takeSource_cons, run, ih freeRest noneRest]

theorem fetchTests_of_fetchedBy_eq_nil (free : ∀ test ∈ tests, test.1.condition.FetchFree)
    (none : fetchedBy tests = []) (s : State V W) : m.fetchTests tests s = s := by
  rw [← map_fst_chainSteps (m := m), List.map_eq_nil_iff] at none
  rw [fetchTests_eq_storeAll free, none]
  rfl

theorem takeFetched_of_leading (free : ∀ test ∈ tests, test.1.condition.FetchFree)
    (leading : Leading tests) (s : State V W) :
    m.takeFetched tests (m.fetchTests tests s) = m.takeSource tests s := by
  obtain none | ⟨single, leads⟩ := leading
  · rw [fetchTests_of_fetchedBy_eq_nil free none, takeFetched_eq_takeSource free none]
  · cases tests with
    | nil => simp at leads
    | cons test rest =>
        obtain ⟨e, scope⟩ := test
        obtain ⟨freeFirst, freeRest⟩ := List.forall_mem_cons.mp free
        have leads : e.condition.leads = true := by simpa using leads
        have count : e.condition.fetches.length + (fetchedBy rest).length = 1 := by
          simpa [fetchedBy, Condition.targets] using single
        -- The single fetch is the one that leads the first test; there is none behind it.
        have atLeast := List.length_pos_iff.mpr (Condition.fetches_ne_nil_of_leads leads)
        have noneRest : fetchedBy rest = [] := List.length_eq_zero_iff.mp (by omega)
        have one : e.condition.fetches.length = 1 := by omega
        obtain ⟨⟨name, source⟩, only⟩ := List.length_eq_one_iff.mp one
        have fetched : m.fetchTests ((e, scope) :: rest) s = Machine.store name
            (m.fetched (m.meaning (m.fetchedBefore scope) source)) s := by
          rw [Machine.fetchTests, fetchTests_of_fetchedBy_eq_nil freeRest noneRest,
            fetches_condition e freeFirst, only]
          rfl
        rw [fetched, takeFetched_cons, takeSource_cons,
          Condition.run_of_leads freeFirst leads only, takeFetched_eq_takeSource freeRest noneRest]

end SameBranch

/-- Branches after lowering. All fetches of the chain are done once, before its first condition and
in the order of the text, and each condition then tests what they found. A chain without fetches, or
with a single one that evaluation comes to first, keeps its meaning, side effects and all. If the
fetches do not get in the way of one another, the branch is the one that the source takes, and every
variable is as in the source when it is entered, but for the fetched variables whose fetch the
source does not reach. -/
theorem branch_run_lowered {m : Machine V W} {condition : Expr} {body : List Statement}
    {elseIfs : List ElseIf} {otherwise : Option (List Statement)} {pos : Position}
    {docblocks : List Docblock} {scope next : Scope} {splice : Splice (Option Statement)}
    {tests : List (Expr × Scope)}
    (ran : lowerStatement ⟨.branch condition body elseIfs otherwise, pos, docblocks⟩ scope =
      .ok (splice, next))
    (follows : ∀ e ∈ condition :: elseIfs.map (·.condition), ∀ kind ∈ e.parts, m.Follows kind)
    (tests_eq : tests = chainTests scope condition body elseIfs) (s : State V W) :
    m.takeBranch splice.toBlock s = some (m.takeFetched tests (m.fetchTests tests s)) ∧
    ((∀ test ∈ tests, test.1.condition.FetchFree) → Leading tests →
      m.takeBranch splice.toBlock s = some (m.takeSource tests s)) ∧
    (m.Orderly tests → ∃ branch now early,
      m.takeBranch splice.toBlock s = some (branch, early) ∧
      m.takeSource tests s = (branch, now) ∧ now.world = early.world ∧
      ∀ name, now.vars name = early.vars name ∨
        name ∈ fetchedBy tests ∧ name ∉ m.reached tests s ∧ now.vars name = s.vars name) := by
  have taken := takeBranch_eq ran follows s
  rw [← tests_eq] at taken
  refine ⟨taken, ?_, ?_⟩
  · intro free leading
    rw [taken, takeFetched_of_leading free leading]
  · intro orderly
    obtain ⟨same, states⟩ := orderly.agree s
    obtain ⟨world, untouched⟩ := orderly.fetchTests_frame s
    refine ⟨(m.takeSource tests s).1, (m.takeSource tests s).2,
      (m.takeFetched tests (m.fetchTests tests s)).2, ?_, rfl, states.vars_eq world untouched⟩
    rw [taken, ← same]

def branchState : State (Option Nat) Unit :=
  ⟨fun name => if name = "items" then some 2 else if name = "index" then some 1 else none, ()⟩

def branchSample (first second : Expr) : Statement :=
  ⟨.branch first [] [⟨second, [], {}⟩] none, {}, []⟩

def sourceSample (first second : Expr) : Nat × Option Nat :=
  let taken := countingMachine.takeSource
    (chainTests ⟨.empty, [], []⟩ first [] [⟨second, [], {}⟩]) branchState
  (taken.1, taken.2.vars "item")

def loweredSample (first second : Expr) : Except Diagnostic (Option (Nat × Option Nat)) :=
  (lowerStatement (branchSample first second) ⟨.empty, [], []⟩).map fun lowered =>
    (countingMachine.takeBranch lowered.1.toBlock branchState).map fun taken =>
      (taken.1, taken.2.vars "item")

/-- `if items { … } elseif fetch item, items[index] { … }` stores an item though the first branch is
taken, and `if fetch item, items[index] { … } elseif fetch item, others[index] { … }` takes no
branch though the first fetch finds an item. -/
theorem branchSamples_differ :
    sourceSample (.var "items" {}) (fetchFrom "item" "items" "index") = (0, none) ∧
    loweredSample (.var "items" {}) (fetchFrom "item" "items" "index") = .ok (some (0, some 1)) ∧
    sourceSample (fetchFrom "item" "items" "index") (fetchFrom "item" "others" "index") =
      (0, some 1) ∧
    loweredSample (fetchFrom "item" "items" "index") (fetchFrom "item" "others" "index") =
      .ok (some (2, none)) :=
  ⟨rfl, rfl, rfl, rfl⟩

theorem calm_var (m : Machine V W) (reading : Reading V W) (name : String) :
    Calm [name] (m.meaning reading (.var name {})).value :=
  ⟨fun _ => rfl, fun _ _ _ same => same name (List.mem_singleton_self name)⟩

theorem calm_elementOf (scope : Scope) (array index : String) :
    Calm (elementOf array index).names (countingMachine.fetched
      (countingMachine.meaning (countingMachine.zephir scope) (elementOf array index))) := by
  have value : ∀ s, countingMachine.fetched (countingMachine.meaning
      (countingMachine.zephir scope) (elementOf array index)) s =
        ((s.vars array).bind fun length => (s.vars index).filter (· < length), s) := by
    rintro ⟨vars, world⟩
    simp only [elementOf, Expr.plain, Expr.var, Machine.fetched, Machine.meaning,
      Machine.kindMeaning, Machine.access, Machine.plain, Machine.choose, Machine.apply,
      Machine.sequence, Machine.read, Machine.constant]
    cases first : vars array with
    | none => rfl
    | some length =>
        cases second : vars index with
        | none => rfl
        | some key =>
            by_cases inside : key < length <;>
              simp [countingMachine, first, second, inside, Option.filter]
  constructor
  · intro s
    rw [value]
  · intro s t world same
    have sameArray := same array (by simp [elementOf, Expr.names, Expr.plain, Expr.var])
    have sameIndex := same index (by simp [elementOf, Expr.names, Expr.plain, Expr.var])
    rw [value, value, sameArray, sameIndex]

/-- `if fetch item, items[index] && item { … } elseif fetch other, others[item] { … }` -/
def orderlySample : Expr × Expr :=
  (.plain (.binary .and (fetchFrom "item" "items" "index") (.var "item" {})) {},
    fetchFrom "other" "others" "item")

def orderlyTests : List (Expr × Scope) :=
  chainTests ⟨.empty, [], []⟩ orderlySample.1 [] [⟨orderlySample.2, [], {}⟩]

theorem orderly_orderlyTests : countingMachine.Orderly orderlyTests where
  free := by
    refine List.forall_mem_cons.mpr ⟨⟨?_, ?_⟩, List.forall_mem_singleton.mpr ⟨?_, ?_⟩⟩
    · exact List.forall_mem_singleton.mpr rfl
    · exact List.forall_mem_singleton.mpr rfl
    · exact List.forall_mem_nil _
    · exact List.forall_mem_singleton.mpr rfl
  distinct := by decide
  order := by
    refine ⟨⟨⟨calm_elementOf _ _ _, ?_⟩, .inr ⟨calm_var _ _ _, ?_⟩⟩, ⟨calm_elementOf _ _ _, ?_⟩,
      trivial⟩
    all_goals decide

/-- `if fetch item, items[index] { … } elseif index { … }` keeps its meaning. The orderly chain
takes its first branch either way; only the second fetch, which the source does not come to, is
done. -/
theorem orderlySample_run_lowered :
    (∃ splice next, lowerStatement (branchSample (fetchFrom "item" "items" "index")
        (.var "index" {})) ⟨.empty, [], []⟩ = .ok (splice, next) ∧ ∀ s,
      countingMachine.takeBranch splice.toBlock s = some (countingMachine.takeSource
        (chainTests ⟨.empty, [], []⟩ (fetchFrom "item" "items" "index") []
          [⟨.var "index" {}, [], {}⟩]) s)) ∧
    ∃ splice next now early, lowerStatement (branchSample orderlySample.1 orderlySample.2)
        ⟨.empty, [], []⟩ = .ok (splice, next) ∧
      countingMachine.takeBranch splice.toBlock branchState = some (0, early) ∧
      countingMachine.takeSource orderlyTests branchState = (0, now) ∧
      ∀ name, now.vars name = early.vars name ∨ name = "other" ∧ now.vars name = none := by
  constructor
  · obtain ⟨splice, next, ran⟩ : ∃ splice next, lowerStatement
        (branchSample (fetchFrom "item" "items" "index") (.var "index" {})) ⟨.empty, [], []⟩ =
          .ok (splice, next) :=
      ⟨_, _, rfl⟩
    refine ⟨splice, next, ran, ?_⟩
    intro s
    refine (branch_run_lowered ran ?_ rfl s).2.1 ?_ (.inr ⟨rfl, rfl⟩)
    · simp [fetchFrom, elementOf, Expr.plain, Expr.var, Machine.Follows,
        countingMachine_keepsClosure]
    · refine List.forall_mem_cons.mpr ⟨⟨List.forall_mem_nil _, ?_⟩, ?_⟩
      · exact List.forall_mem_singleton.mpr rfl
      · exact List.forall_mem_singleton.mpr ⟨List.forall_mem_singleton.mpr rfl,
          List.forall_mem_nil _⟩
  · obtain ⟨splice, next, ran⟩ : ∃ splice next, lowerStatement
        (branchSample orderlySample.1 orderlySample.2) ⟨.empty, [], []⟩ = .ok (splice, next) :=
      ⟨_, _, rfl⟩
    have follows : ∀ e ∈ orderlySample.1 :: [orderlySample.2], ∀ kind ∈ e.parts,
        countingMachine.Follows kind := by
      simp [orderlySample, fetchFrom, elementOf, Expr.plain, Expr.var, Machine.Follows,
        countingMachine_keepsClosure]
    obtain ⟨branch, now, early, lowered, source, -, vars⟩ :=
      (branch_run_lowered ran follows (rfl : orderlyTests = _) branchState).2.2
        orderly_orderlyTests
    obtain rfl : 0 = branch := congrArg Prod.fst source
    refine ⟨splice, next, now, early, ran, lowered, source, ?_⟩
    intro name
    refine (vars name).imp_right ?_
    rintro ⟨fetched, notReached, kept⟩
    have fetched : name ∈ ["item", "other"] := fetched
    have notReached : name ∉ ["item"] := notReached
    obtain rfl : name = "other" := by simp_all
    exact ⟨rfl, kept⟩

end Zephir
