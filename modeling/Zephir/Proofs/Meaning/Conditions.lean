import Zephir.Proofs.Meaning.Early

/-!
Conditions with fetches in them, joined by logical operators. Two runs of a condition are compared:
the one that does each fetch where evaluation reaches it, and the one that finds all fetches done
before. They come out alike if no two fetches go to the same variable, the sources of fetches change
nothing, and the operands change nothing either and do not look at a fetched variable unless its
fetch has been reached for sure. An operand that comes after all fetches for sure may do anything.
-/

namespace Zephir

variable {V W : Type}

inductive Condition
  | operand (e : Expr)
  | fetch (name : String) (source : Expr)
  | not (inner : Condition)
  | both (left right : Condition)
  | either (left right : Condition)
  | choose (test yes no : Condition)

def Expr.condition : Expr → Condition
  | ⟨.unary .likely e, _, _, _⟩ => e.condition
  | ⟨.unary .unlikely e, _, _, _⟩ => e.condition
  | ⟨.unary .group e, _, _, _⟩ => e.condition
  | ⟨.unary .not e, _, _, _⟩ => .not e.condition
  | ⟨.binary .and left right, _, _, _⟩ => .both left.condition right.condition
  | ⟨.binary .or left right, _, _, _⟩ => .either left.condition right.condition
  | ⟨.ternary test yes no, _, _, _⟩ => .choose test.condition yes.condition no.condition
  | ⟨.fetch target source, _, _, _⟩ => .fetch (target.asVar?.getD "") source
  | e => .operand e

def Expr.names (e : Expr) : List String :=
  e.parts.filterMap fun kind => match kind with
    | .var name => some name
    | _ => none

namespace Condition

def operands : Condition → List Expr
  | operand e => [e]
  | fetch _ _ => []
  | not inner => inner.operands
  | both left right => left.operands ++ right.operands
  | either left right => left.operands ++ right.operands
  | choose test yes no => test.operands ++ yes.operands ++ no.operands

def fetches : Condition → List (String × Expr)
  | operand _ => []
  | fetch name source => [(name, source)]
  | not inner => inner.fetches
  | both left right => left.fetches ++ right.fetches
  | either left right => left.fetches ++ right.fetches
  | choose test yes no => test.fetches ++ yes.fetches ++ no.fetches

def targets (c : Condition) : List String :=
  c.fetches.map Prod.fst

/-- Whether evaluation comes to a fetch first. -/
def leads : Condition → Bool
  | operand _ => false
  | fetch _ _ => true
  | not inner => inner.leads
  | both left _ => left.leads
  | either left _ => left.leads
  | choose test _ _ => test.leads

/-- The variables whose fetch has been reached for sure if the condition came out so. -/
def sure : Condition → Bool → List String
  | operand _, _ => []
  | fetch name _, _ => [name]
  | not inner, holds => inner.sure (!holds)
  | both left right, true => left.sure true ++ right.sure true
  | both left right, false =>
    (left.sure false).filter (· ∈ left.sure true ++ right.sure false)
  | either left right, true => (left.sure true).filter (· ∈ left.sure false ++ right.sure true)
  | either left right, false => left.sure false ++ right.sure false
  | choose test yes no, holds =>
    (test.sure true ++ yes.sure holds).filter (· ∈ test.sure false ++ no.sure holds)

end Condition

structure Outcome (V W : Type) where
  holds : Bool
  state : State V W
  reached : List String

def Outcome.andThen (first : Outcome V W) (rest : State V W → Outcome V W) : Outcome V W :=
  let second := rest first.state
  { second with reached := first.reached ++ second.reached }

def Condition.run (m : Machine V W) (reading : Reading V W) : Condition → State V W → Outcome V W
  | operand e, s =>
    let (value, s) := (m.meaning reading e).value s
    ⟨m.truthy value, s, []⟩
  | fetch name source, s =>
    let (value, s) := reading.fetch name (m.meaning reading source) s
    ⟨m.truthy value, s, [name]⟩
  | not inner, s =>
    let outcome := inner.run m reading s
    { outcome with holds := !outcome.holds }
  | both left right, s =>
    let first := left.run m reading s
    if first.holds then first.andThen (right.run m reading) else first
  | either left right, s =>
    let first := left.run m reading s
    if first.holds then first else first.andThen (right.run m reading)
  | choose test yes no, s =>
    let first := test.run m reading s
    if first.holds then first.andThen (yes.run m reading) else first.andThen (no.run m reading)

theorem Expr.run_condition (m : Machine V W) (reading : Reading V W) (e : Expr) (s : State V W) :
    (e.condition.run m reading s).holds = m.truthy ((m.meaning reading e).value s).1 ∧
      (e.condition.run m reading s).state = ((m.meaning reading e).value s).2 := by
  induction e using Expr.condition.induct generalizing s with
  | case1 e pos dataType doCast ih
  | case2 e pos dataType doCast ih
  | case3 e pos dataType doCast ih => exact ih s
  | case4 e pos dataType doCast ih =>
      simp [Expr.condition, Condition.run, ih, Machine.meaning, Machine.kindMeaning, Machine.unary,
        Machine.plain, Machine.negate, m.truthy_ofBool]
  | case5 left right pos dataType doCast ihLeft ihRight =>
      simp only [Expr.condition, Condition.run, Machine.meaning, Machine.kindMeaning,
        Machine.binary, Machine.plain, Machine.both]
      split <;> simp_all [Outcome.andThen, m.truthy_ofBool]
  | case6 left right pos dataType doCast ihLeft ihRight =>
      simp only [Expr.condition, Condition.run, Machine.meaning, Machine.kindMeaning,
        Machine.binary, Machine.plain, Machine.either]
      split <;> simp_all [Outcome.andThen, m.truthy_ofBool]
  | case7 test yes no pos dataType doCast ihTest ihYes ihNo =>
      simp only [Expr.condition, Condition.run, Machine.meaning, Machine.kindMeaning,
        Machine.plain, Machine.choose]
      split <;> simp_all [Outcome.andThen]
  | case8 target source pos dataType doCast =>
      simp [Expr.condition, Condition.run, Machine.meaning, Machine.kindMeaning, Machine.plain]
  | case9 e =>
      rw [Expr.condition]
      · simp [Condition.run]
      all_goals assumption

/-! ### Doing all fetches first -/

/-- An evaluation that changes nothing and looks only at the given variables and at what lies
outside of the body. -/
structure Calm (names : List String) (act : Action V W) : Prop where
  keeps : ∀ s, (act s).2 = s
  depends : ∀ s t, s.world = t.world → (∀ name ∈ names, s.vars name = t.vars name) →
    (act s).1 = (act t).1

def State.ahead (s later : State V W) (names : List String) : State V W :=
  ⟨fun name => if name ∈ names then later.vars name else s.vars name, s.world⟩

@[simp] theorem State.ahead_nil (s later : State V W) : s.ahead later [] = s := by
  simp [ahead]

theorem State.ahead_set (s later : State V W) (names : List String) (name : String) :
    (s.ahead later names).set name (later.vars name) = s.ahead later (names ++ [name]) := by
  simp only [ahead, set, State.mk.injEq, and_true]
  funext other
  by_cases same : other = name <;> simp [same]

theorem State.ahead_eq_later {s later : State V W} {fetched reached : List String}
    (world : later.world = s.world) (untouched : ∀ name ∉ fetched, later.vars name = s.vars name)
    (all : fetched ⊆ reached) : s.ahead later reached = later := by
  have vars : (s.ahead later reached).vars = later.vars := by
    funext name
    by_cases isReached : name ∈ reached
    · simp [ahead, isReached]
    · have other : name ∉ fetched := fun inside => isReached (all inside)
      simp [ahead, isReached, untouched name other]
  cases later
  simp_all [ahead]

def storeAll : List (String × Action V W) → State V W → State V W
  | [], s => s
  | (name, value) :: rest, s => storeAll rest (Machine.store name value s)

theorem storeAll_append (left right : List (String × Action V W)) (s : State V W) :
    storeAll (left ++ right) s = storeAll right (storeAll left s) := by
  induction left generalizing s with
  | nil => rfl
  | cons first rest ih => exact ih _

def Keep (steps : List (String × Action V W)) : Prop :=
  ∀ step ∈ steps, ∀ s, (step.2 s).2 = s

theorem storeAll_world {steps : List (String × Action V W)} (keep : Keep steps) (s : State V W) :
    (storeAll steps s).world = s.world := by
  induction steps generalizing s with
  | nil => rfl
  | cons first rest ih =>
      obtain ⟨keeps, keepRest⟩ := List.forall_mem_cons.mp keep
      simp [storeAll, ih keepRest, Machine.store, State.set, keeps]

theorem storeAll_vars_of_notMem {steps : List (String × Action V W)} (keep : Keep steps)
    {name : String} (other : name ∉ steps.map Prod.fst) (s : State V W) :
    (storeAll steps s).vars name = s.vars name := by
  induction steps generalizing s with
  | nil => rfl
  | cons first rest ih =>
      obtain ⟨keeps, keepRest⟩ := List.forall_mem_cons.mp keep
      simp only [List.map_cons, List.mem_cons, not_or] at other
      simp [storeAll, ih keepRest other.2, Machine.store, State.set, keeps, other.1]

/-- Each variable ends up with what its step finds when it comes to it. -/
def FoundBy (s later : State V W) (before : List String) (steps : List (String × Action V W)) :
    Prop :=
  ∀ earlier name value others, steps = earlier ++ (name, value) :: others →
    later.vars name = (value (s.ahead later (before ++ earlier.map Prod.fst))).1

theorem FoundBy.left {s later : State V W} {before : List String}
    {first second : List (String × Action V W)}
    (found : FoundBy s later before (first ++ second)) : FoundBy s later before first := by
  intro earlier name value others eq
  exact found earlier name value (others ++ second) (by simp [eq])

theorem FoundBy.right {s later : State V W} {before : List String}
    {first second : List (String × Action V W)}
    (found : FoundBy s later before (first ++ second)) :
    FoundBy s later (before ++ first.map Prod.fst) second := by
  intro earlier name value others eq
  have value := found (first ++ earlier) name value others (by simp [eq])
  simpa using value

theorem storeAll_eq_ahead {first second : List (String × Action V W)}
    (keep : Keep (first ++ second)) (distinct : ((first ++ second).map Prod.fst).Nodup)
    (s : State V W) :
    storeAll first s = s.ahead (storeAll (first ++ second) s) (first.map Prod.fst) := by
  obtain ⟨keepFirst, keepSecond⟩ := List.forall_mem_append.mp keep
  rw [List.map_append, List.nodup_append] at distinct
  have world := storeAll_world keepFirst s
  have vars : (storeAll first s).vars = fun name =>
      if name ∈ first.map Prod.fst then (storeAll (first ++ second) s).vars name
      else s.vars name := by
    funext name
    split
    · rename_i assigned
      have other : name ∉ second.map Prod.fst := fun again => distinct.2.2 _ assigned _ again rfl
      rw [storeAll_append, storeAll_vars_of_notMem keepSecond other]
    · rename_i other
      exact storeAll_vars_of_notMem keepFirst other s
  calc storeAll first s = ⟨(storeAll first s).vars, (storeAll first s).world⟩ := rfl
    _ = s.ahead (storeAll (first ++ second) s) (first.map Prod.fst) := by
        rw [vars, world, State.ahead]

theorem foundBy_storeAll {steps : List (String × Action V W)} (keep : Keep steps)
    (distinct : (steps.map Prod.fst).Nodup) (s : State V W) :
    FoundBy s (storeAll steps s) [] steps := by
  rintro earlier name value others rfl
  -- The step is taken in the state halfway through, and nothing after it assigns its variable.
  have halfway := storeAll_eq_ahead keep distinct s
  have keepOthers : Keep others := fun step inside => keep step (by simp [inside])
  simp only [List.map_append, List.map_cons, List.nodup_append, List.nodup_cons] at distinct
  have notAgain : name ∉ others.map Prod.fst := distinct.2.1.1
  rw [List.nil_append, ← halfway, storeAll_append, storeAll,
    storeAll_vars_of_notMem keepOthers notAgain]
  simp [Machine.store, State.set]

/-! ### The two runs -/

theorem Machine.meaning_of_fetches_eq_nil (m : Machine V W) {e : Expr} (free : e.fetches = [])
    (scope : Scope) : m.meaning (m.fetchedBefore scope) e = m.meaning (m.zephir scope) e := by
  have owns : (m.fetchedBefore scope).owner = (m.zephir scope).owner := rfl
  exact Machine.meaning_congr owns e (List.filterMap_eq_nil_iff.mp free)

def Condition.steps (m : Machine V W) (scope : Scope) (c : Condition) :
    List (String × Action V W) :=
  c.fetches.map fun fetch =>
    (fetch.1, m.fetched (m.meaning (m.fetchedBefore scope) fetch.2))

namespace Condition

structure FetchFree (c : Condition) : Prop where
  operands : ∀ e ∈ c.operands, e.fetches = []
  sources : ∀ fetch ∈ c.fetches, fetch.2.fetches = []

theorem FetchFree.mono {c part : Condition} (free : c.FetchFree)
    (operands : part.operands ⊆ c.operands) (fetches : part.fetches ⊆ c.fetches) :
    part.FetchFree :=
  ⟨fun e inside => free.operands e (operands inside),
    fun fetch inside => free.sources fetch (fetches inside)⟩

/-- A condition is orderly after some fetches of which some are done for sure. Its operands change
nothing and name no fetched variable whose fetch is not done for sure, unless all fetches are; its
sources change nothing and name no variable fetched before them whose fetch is not done for sure. -/
def Orderly (m : Machine V W) (scope : Scope) (fetched : List String) :
    (before done : List String) → Condition → Prop
  | _, done, operand e => fetched ⊆ done ∨
      (Calm e.names (m.meaning (m.zephir scope) e).value ∧
        ∀ name ∈ e.names, name ∈ fetched → name ∈ done)
  | before, done, fetch _ source =>
    Calm source.names (m.fetched (m.meaning (m.zephir scope) source)) ∧
      ∀ name ∈ source.names, name ∈ before → name ∈ done
  | before, done, not inner => inner.Orderly m scope fetched before done
  | before, done, both left right =>
    left.Orderly m scope fetched before done ∧
      right.Orderly m scope fetched (before ++ left.targets) (done ++ left.sure true)
  | before, done, either left right =>
    left.Orderly m scope fetched before done ∧
      right.Orderly m scope fetched (before ++ left.targets) (done ++ left.sure false)
  | before, done, choose test yes no =>
    test.Orderly m scope fetched before done ∧
      yes.Orderly m scope fetched (before ++ test.targets) (done ++ test.sure true) ∧
      no.Orderly m scope fetched (before ++ (test.targets ++ yes.targets))
        (done ++ test.sure false)

theorem Orderly.sources {m : Machine V W} {scope : Scope} {fetched before done : List String}
    {c : Condition} (order : c.Orderly m scope fetched before done) :
    ∀ fetch ∈ c.fetches,
      Calm fetch.2.names (m.fetched (m.meaning (m.zephir scope) fetch.2)) := by
  induction c generalizing before done with
  | operand e => simp [fetches]
  | fetch name source => simpa [fetches] using order.1
  | not inner ih => exact ih order
  | both left right ihLeft ihRight
  | either left right ihLeft ihRight =>
      exact List.forall_mem_append.mpr ⟨ihLeft order.1, ihRight order.2⟩
  | choose test yes no ihTest ihYes ihNo =>
      simp only [fetches, List.forall_mem_append]
      exact ⟨⟨ihTest order.1, ihYes order.2.1⟩, ihNo order.2.2⟩

theorem run_of_fetches_eq_nil (m : Machine V W) (scope : Scope) {c : Condition}
    (free : c.FetchFree) (none : c.fetches = []) :
    c.run m (m.fetchedBefore scope) = c.run m (m.zephir scope) := by
  funext s
  induction c generalizing s with
  | operand e =>
      have free := free.operands e (by simp [operands])
      simp only [run, m.meaning_of_fetches_eq_nil free]
  | fetch name source => simp [fetches] at none
  | not inner ih => simp only [run, ih ⟨free.operands, free.sources⟩ none]
  | both left right ihLeft ihRight
  | either left right ihLeft ihRight =>
      obtain ⟨noneLeft, noneRight⟩ := List.append_eq_nil_iff.mp none
      have runLeft := ihLeft (free.mono (by simp [operands]) (by simp [fetches])) noneLeft
      have runRight := ihRight (free.mono (by simp [operands]) (by simp [fetches])) noneRight
      simp only [run, Outcome.andThen, runLeft, runRight]
  | choose test yes no ihTest ihYes ihNo =>
      simp only [fetches, List.append_eq_nil_iff] at none
      have runTest := ihTest (free.mono (by simp [operands]) (by simp [fetches])) none.1.1
      have runYes := ihYes (free.mono (by simp [operands]) (by simp [fetches])) none.1.2
      have runNo := ihNo (free.mono (by simp [operands]) (by simp [fetches])) none.2
      simp only [run, Outcome.andThen, runTest, runYes, runNo]

theorem fetches_ne_nil_of_leads {c : Condition} (leads : c.leads = true) : c.fetches ≠ [] := by
  induction c with
  | operand e => simp [Condition.leads] at leads
  | fetch name source => simp [fetches]
  | not inner ih => exact ih leads
  | both left right ihLeft ihRight
  | either left right ihLeft ihRight => simp [fetches, ihLeft leads]
  | choose test yes no ihTest ihYes ihNo => simp [fetches, ihTest leads]

theorem only_of_leads (first : Condition) {others : List (String × Expr)} {fetch : String × Expr}
    (leads : first.leads = true) (only : first.fetches ++ others = [fetch]) :
    first.fetches = [fetch] ∧ others = [] := by
  obtain ⟨absent, -⟩ | alone := List.append_eq_singleton_iff.mp only
  · exact absurd absent (fetches_ne_nil_of_leads leads)
  · exact alone

theorem run_of_leads {m : Machine V W} {scope : Scope} {c : Condition} {name : String}
    {source : Expr} (free : c.FetchFree) (leads : c.leads = true)
    (only : c.fetches = [(name, source)]) (s : State V W) :
    c.run m (m.zephir scope) s = c.run m (m.fetchedBefore scope)
      (Machine.store name (m.fetched (m.meaning (m.fetchedBefore scope) source)) s) := by
  induction c with
  | operand e => simp [Condition.leads] at leads
  | fetch target origin =>
      obtain ⟨rfl, rfl⟩ : target = name ∧ origin = source := by simpa [fetches] using only
      have free : origin.fetches = [] := free.sources (target, origin) (by simp [fetches])
      simp only [run, m.meaning_of_fetches_eq_nil free, Machine.zephir_fetch,
        Machine.fetchedBefore_fetch, Machine.fetchNow]
  | not inner ih => simp only [run, ih ⟨free.operands, free.sources⟩ leads only]
  | both left right ihLeft ihRight
  | either left right ihLeft ihRight =>
      obtain ⟨onlyLeft, noneRight⟩ := only_of_leads left leads only
      have runLeft := ihLeft (free.mono (by simp [operands]) (by simp [fetches])) leads onlyLeft
      have runRight := run_of_fetches_eq_nil m scope
        (free.mono (by simp [operands]) (by simp [fetches])) noneRight
      simp only [run, runLeft, runRight]
  | choose test yes no ihTest ihYes ihNo =>
      rw [fetches, List.append_assoc] at only
      obtain ⟨onlyTest, none⟩ := only_of_leads test leads only
      obtain ⟨noneYes, noneNo⟩ := List.append_eq_nil_iff.mp none
      have runTest := ihTest (free.mono (by simp [operands]) (by simp [fetches])) leads onlyTest
      have runYes := run_of_fetches_eq_nil m scope
        (free.mono (by simp [operands]) (by simp [fetches])) noneYes
      have runNo := run_of_fetches_eq_nil m scope
        (free.mono (by simp [operands]) (by simp [fetches])) noneNo
      simp only [run, runTest, runYes, runNo]

@[simp] theorem map_fst_steps (m : Machine V W) (scope : Scope) (c : Condition) :
    (c.steps m scope).map Prod.fst = c.targets := by
  simp [steps, targets]

theorem sure_subset_reached (m : Machine V W) (reading : Reading V W) (c : Condition)
    (s : State V W) : c.sure (c.run m reading s).holds ⊆ (c.run m reading s).reached := by
  induction c generalizing s with
  | operand e => simp [run, sure]
  | fetch name source => simp [run, sure]
  | not inner ih => simpa [run, sure] using ih s
  | both left right ihLeft ihRight
  | either left right ihLeft ihRight =>
      have first := ihLeft s
      simp only [run, Outcome.andThen]
      generalize left.run m reading s = outcome at first ⊢
      obtain ⟨holds, state, reached⟩ := outcome
      have second := ihRight state
      generalize right.run m reading state = outcome at second ⊢
      obtain ⟨also, final, more⟩ := outcome
      cases holds <;> cases also <;> grind [sure]
  | choose test yes no ihTest ihYes ihNo =>
      have first := ihTest s
      simp only [run, Outcome.andThen]
      generalize test.run m reading s = outcome at first ⊢
      obtain ⟨holds, state, reached⟩ := outcome
      have second := ihYes state
      have third := ihNo state
      cases holds <;> grind [sure]

theorem reached_subset_targets (m : Machine V W) (reading : Reading V W) (c : Condition)
    (s : State V W) : (c.run m reading s).reached ⊆ c.targets := by
  induction c generalizing s with
  | operand e => simp [run]
  | fetch name source => simp [run, targets, fetches]
  | not inner ih => exact ih s
  | both left right ihLeft ihRight
  | either left right ihLeft ihRight =>
      have first := ihLeft s
      have second := ihRight (left.run m reading s).state
      simp only [run, targets, fetches, Outcome.andThen, List.map_append] at *
      split <;> grind
  | choose test yes no ihTest ihYes ihNo =>
      have first := ihTest s
      have second := ihYes (test.run m reading s).state
      have third := ihNo (test.run m reading s).state
      simp only [run, targets, fetches, Outcome.andThen, List.map_append] at *
      split <;> grind

end Condition

/-- The states of the two runs after some fetches were reached. Either nothing else has happened:
the source has done these fetches and the other run all of them. Or these are all fetches, and the
states are the same. -/
def Matching (s later : State V W) (fetched reached : List String) (now early : State V W) : Prop :=
  (now = s.ahead later reached ∧ early = later) ∨ (fetched ⊆ reached ∧ now = early)

/-- The states differ at most in fetched variables whose fetch the source has not reached. -/
theorem Matching.vars_eq {s later now early : State V W} {fetched reached : List String}
    (states : Matching s later fetched reached now early) (world : later.world = s.world)
    (untouched : ∀ name ∉ fetched, later.vars name = s.vars name) :
    now.world = early.world ∧ ∀ name, now.vars name = early.vars name ∨
      name ∈ fetched ∧ name ∉ reached ∧ now.vars name = s.vars name := by
  obtain ⟨rfl, rfl⟩ | ⟨-, rfl⟩ := states
  · refine ⟨world.symm, ?_⟩
    intro name
    by_cases isReached : name ∈ reached
    · exact .inl (by simp [State.ahead, isReached])
    · by_cases isFetched : name ∈ fetched
      · exact .inr ⟨isFetched, isReached, by simp [State.ahead, isReached]⟩
      · exact .inl (by simp [State.ahead, isReached, untouched name isFetched])
  · exact ⟨rfl, fun name => .inl rfl⟩

structure Agree (s later : State V W) (fetched reached : List String) (now early : Outcome V W) :
    Prop where
  holds : early.holds = now.holds
  states : Matching s later fetched (reached ++ now.reached) now.state early.state

theorem Agree.andThen {s later : State V W} {fetched reached : List String}
    {now early : Outcome V W} {rest other : State V W → Outcome V W}
    (also : Agree s later fetched (reached ++ now.reached) (rest now.state) (other early.state)) :
    Agree s later fetched reached (now.andThen rest) (early.andThen other) := by
  refine ⟨also.holds, ?_⟩
  simpa only [Outcome.andThen, List.append_assoc] using also.states

namespace Condition

variable {m : Machine V W} {scope : Scope} {s later now early : State V W}
  {fetched before done reached : List String} {c part : Condition}

/-- What is known when evaluation comes to a condition: the variables fetched in front of it, those
whose fetch is done for sure, and those whose fetch was reached. -/
structure Ready (m : Machine V W) (scope : Scope) (s later : State V W)
    (fetched before done reached : List String) (c : Condition) : Prop where
  free : c.FetchFree
  found : FoundBy s later before (c.steps m scope)
  order : c.Orderly m scope fetched before done
  done_subset : done ⊆ reached
  reached_subset : reached ⊆ before
  fetched_of : before ++ c.targets ⊆ fetched
  distinct : (before ++ c.targets).Nodup

theorem Ready.later_part (skipped others : List (String × Expr)) (sure more : List String)
    (ready : c.Ready m scope s later fetched before done reached)
    (operands : part.operands ⊆ c.operands)
    (fetches : c.fetches = skipped ++ part.fetches ++ others)
    (order : part.Orderly m scope fetched (before ++ skipped.map Prod.fst) (done ++ sure))
    (sureMore : sure ⊆ more) (moreSkipped : more ⊆ skipped.map Prod.fst) :
    part.Ready m scope s later fetched (before ++ skipped.map Prod.fst) (done ++ sure)
      (reached ++ more) := by
  have targets : c.targets = skipped.map Prod.fst ++ part.targets ++ others.map Prod.fst := by
    simp [Condition.targets, fetches]
  refine ⟨ready.free.mono operands (by simp [fetches]), ?_, order, ?_, ?_, ?_, ?_⟩
  · have found := ready.found
    rw [steps, fetches, List.map_append, List.map_append] at found
    have foundPart := found.left.right
    rw [List.map_map] at foundPart
    exact foundPart
  · grind [ready.done_subset]
  · grind [ready.reached_subset]
  · grind [ready.fetched_of]
  · have distinct := ready.distinct
    rw [targets, ← List.append_assoc, ← List.append_assoc] at distinct
    exact (List.nodup_append.mp distinct).1

theorem Ready.first_part (others : List (String × Expr))
    (ready : c.Ready m scope s later fetched before done reached)
    (operands : part.operands ⊆ c.operands) (fetches : c.fetches = part.fetches ++ others)
    (order : part.Orderly m scope fetched before done) :
    part.Ready m scope s later fetched before done reached := by
  have ready := ready.later_part [] others [] [] operands (by simpa using fetches)
    (by simpa using order) (by simp) (by simp)
  simpa using ready

theorem Ready.fetches_eq_nil (ready : c.Ready m scope s later fetched before done reached)
    (all : fetched ⊆ reached) : c.fetches = [] := by
  have disjoint := (List.nodup_append.mp ready.distinct).2.2
  have none : c.targets = [] := by
    refine List.eq_nil_iff_forall_not_mem.mpr ?_
    intro name inside
    have again := ready.reached_subset (all (ready.fetched_of (List.mem_append_right _ inside)))
    exact disjoint name again name inside rfl
  simpa [Condition.targets] using none

theorem Ready.agree_of_all (ready : c.Ready m scope s later fetched before done reached)
    (all : fetched ⊆ reached) (state : State V W) :
    Agree s later fetched reached (c.run m (m.zephir scope) state)
      (c.run m (m.fetchedBefore scope) state) := by
  rw [run_of_fetches_eq_nil m scope ready.free (ready.fetches_eq_nil all)]
  exact ⟨rfl, .inr ⟨List.Subset.trans all (List.subset_append_left _ _), rfl⟩⟩

theorem Ready.agree_operand {e : Expr} (world : later.world = s.world)
    (untouched : ∀ name ∉ fetched, later.vars name = s.vars name)
    (ready : (operand e).Ready m scope s later fetched before done reached) :
    Agree s later fetched reached ((operand e).run m (m.zephir scope) (s.ahead later reached))
      ((operand e).run m (m.fetchedBefore scope) later) := by
  rcases ready.order with all | ⟨calm, order⟩
  · have all := List.Subset.trans all ready.done_subset
    rw [State.ahead_eq_later world untouched all]
    exact ready.agree_of_all all later
  · have free := ready.free.operands e (by simp [operands])
    have same : ((m.meaning (m.zephir scope) e).value later).1 =
        ((m.meaning (m.zephir scope) e).value (s.ahead later reached)).1 := by
      refine calm.depends _ _ world ?_
      intro name named
      by_cases isFetched : name ∈ fetched
      · have isReached := ready.done_subset (order name named isFetched)
        simp [State.ahead, isReached]
      · have notReached : name ∉ reached := fun inside => isFetched
          (ready.fetched_of (List.mem_append_left _ (ready.reached_subset inside)))
        simp [State.ahead, notReached, untouched name isFetched]
    constructor
    · simp [run, m.meaning_of_fetches_eq_nil free, same]
    · exact .inl (by simp [run, m.meaning_of_fetches_eq_nil free, calm.keeps])

theorem Ready.agree_fetch {name : String} {source : Expr}
    (ready : (fetch name source).Ready m scope s later fetched before done reached) :
    Agree s later fetched reached
      ((fetch name source).run m (m.zephir scope) (s.ahead later reached))
      ((fetch name source).run m (m.fetchedBefore scope) later) := by
  obtain ⟨calm, order⟩ := ready.order
  have free : source.fetches = [] := ready.free.sources (name, source) (by simp [fetches])
  have found := ready.found [] name _ [] rfl
  rw [m.meaning_of_fetches_eq_nil free] at found
  have same : (m.fetched (m.meaning (m.zephir scope) source) (s.ahead later reached)).1 =
      later.vars name := by
    rw [found]
    refine calm.depends _ _ rfl ?_
    intro other named
    by_cases isBefore : other ∈ before
    · have isReached := ready.done_subset (order other named isBefore)
      simp [State.ahead, isReached, isBefore]
    · have notReached : other ∉ reached := fun inside => isBefore (ready.reached_subset inside)
      simp [State.ahead, notReached, isBefore]
  have stored : Machine.store name (m.fetched (m.meaning (m.zephir scope) source))
      (s.ahead later reached) = s.ahead later (reached ++ [name]) := by
    rw [← State.ahead_set, ← same]
    simp only [Machine.store, calm.keeps]
  have tested : ((m.found name) later).1 =
      ((m.found name) (s.ahead later (reached ++ [name]))).1 := by
    simp [Machine.found, Machine.compare, Machine.read, Machine.constant, State.ahead]
  constructor
  · simp [run, Machine.fetchNow, stored, tested]
  · refine .inl ⟨?_, rfl⟩
    simp [run, Machine.fetchNow, stored, Machine.found, Machine.compare, Machine.read,
      Machine.constant]

theorem Ready.agree (world : later.world = s.world)
    (untouched : ∀ name ∉ fetched, later.vars name = s.vars name)
    (ready : c.Ready m scope s later fetched before done reached)
    (states : Matching s later fetched reached now early) :
    Agree s later fetched reached (c.run m (m.zephir scope) now)
      (c.run m (m.fetchedBefore scope) early) := by
  -- By induction on the condition. What an earlier part is known to have reached, given how it came
  -- out, is done for sure in the part after it.
  induction c generalizing before done reached now early with
  | operand e =>
      obtain ⟨rfl, rfl⟩ | ⟨all, rfl⟩ := states
      · exact ready.agree_operand world untouched
      · exact ready.agree_of_all all now
  | fetch name source =>
      obtain ⟨rfl, rfl⟩ | ⟨all, rfl⟩ := states
      · exact ready.agree_fetch
      · exact ready.agree_of_all all now
  | not inner ih =>
      have first : inner.Ready m scope s later fetched before done reached :=
        ready.first_part [] (by simp [operands]) (by simp [fetches]) ready.order
      have agree := ih first states
      exact ⟨by simp [run, agree.holds], agree.states⟩
  | both left right ihLeft ihRight =>
      have first := ready.first_part right.fetches (by simp [operands]) rfl ready.order.1
      have agree := ihLeft first states
      have sure := left.sure_subset_reached m (m.zephir scope) now
      have targets := left.reached_subset_targets m (m.zephir scope) now
      simp only [run, agree.holds]
      split
      · rename_i holds
        rw [holds] at sure
        have second := ready.later_part left.fetches [] _ _ (by simp [operands])
          (by simp [fetches]) ready.order.2 sure targets
        exact .andThen (ihRight second agree.states)
      · exact agree
  | either left right ihLeft ihRight =>
      have first := ready.first_part right.fetches (by simp [operands]) rfl ready.order.1
      have agree := ihLeft first states
      have sure := left.sure_subset_reached m (m.zephir scope) now
      have targets := left.reached_subset_targets m (m.zephir scope) now
      simp only [run, agree.holds]
      split
      · exact agree
      · rename_i fails
        rw [Bool.eq_false_iff.mpr fails] at sure
        have second := ready.later_part left.fetches [] _ _ (by simp [operands])
          (by simp [fetches]) ready.order.2 sure targets
        exact .andThen (ihRight second agree.states)
  | choose test yes no ihTest ihYes ihNo =>
      have first := ready.first_part (yes.fetches ++ no.fetches) (by simp [operands])
        (by simp [fetches]) ready.order.1
      have agree := ihTest first states
      have sure := test.sure_subset_reached m (m.zephir scope) now
      have targets := test.reached_subset_targets m (m.zephir scope) now
      simp only [run, agree.holds]
      split
      · rename_i holds
        rw [holds] at sure
        have second := ready.later_part test.fetches no.fetches _ _ (by simp [operands])
          (by simp [fetches]) ready.order.2.1 sure targets
        exact .andThen (ihYes second agree.states)
      · rename_i fails
        rw [Bool.eq_false_iff.mpr fails] at sure
        have order := ready.order.2.2
        rw [Condition.targets, Condition.targets, ← List.map_append] at order
        have skipped : (test.run m (m.zephir scope) now).reached ⊆
            (test.fetches ++ yes.fetches).map Prod.fst := by
          rw [List.map_append]
          exact List.Subset.trans targets (List.subset_append_left _ _)
        have third := ready.later_part (test.fetches ++ yes.fetches) [] _ _
          (by simp [operands]) (by simp [fetches]) order sure skipped
        exact .andThen (ihNo third agree.states)

end Condition

end Zephir
