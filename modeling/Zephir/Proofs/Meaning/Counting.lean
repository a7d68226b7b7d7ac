import Zephir.Proofs.Lowering.Tallies
import Zephir.Proofs.Lowering.VariableTypes
import Zephir.Proofs.Meaning.Loops

/-!
What a counted loop binds. On a machine with numbers and strings of bytes, the value of a loop over
a string is each byte of the string in turn: the string is evaluated before the first round, and the
rounds leave it, its length and the index alone.
-/

namespace Zephir

open Lowering

variable {V W : Type}

@[simp] theorem State.vars_set (s : State V W) (name other : String) (value : V) :
    (s.set name value).vars other = if other = name then value else s.vars other :=
  rfl

/-- A machine on which strings are measured, reversed and taken apart, and numbers are counted up,
as PHP does it. -/
structure StringMachine (V W : Type) extends Machine V W where
  number : Nat → V
  text : List UInt8 → V
  less : V → V → Bool
  increment : V → V
  less_number : ∀ i n, less (number i) (number n) = decide (i < n)
  increment_number : ∀ i, increment (number i) = number (i + 1)
  strlen : ∀ bytes s, perform (.call "strlen" 1) [text bytes] s = (number bytes.length, s)
  strrev : ∀ bytes s, perform (.call "strrev" 1) [text bytes] s = (text bytes.reverse, s)
  element : ∀ (bytes : List UInt8) i (inside : i < bytes.length) s,
    perform (.access .element) [text bytes, number i] s = (text [bytes[i]], s)

inductive LoopEnd
  | outOfBudget
  | condition
  | body
  deriving DecidableEq

structure CountedRun (V W : Type) where
  /-- What the value was at the start of each round. -/
  bound : List V
  ended : LoopEnd
  state : State V W

namespace StringMachine

variable (m : StringMachine V W)

/-- The rounds of `for (…; $index < $size; $index++)`; what opens a round sets the value. -/
def countedRounds (index size value : String) (opens : State V W → State V W) (body : Body V W) :
    Nat → State V W → CountedRun V W
  | 0, s => ⟨[], .outOfBudget, s⟩
  | budget + 1, s =>
    if m.less (s.vars index) (s.vars size) then
      let opened := opens s
      let (goesOn, after) := body opened
      if goesOn then
        let run := countedRounds index size value opens body budget
          (after.set index (m.increment (after.vars index)))
        { run with bound := opened.vars value :: run.bound }
      else ⟨[opened.vars value], .body, after⟩
    else ⟨[], .condition, s⟩

/-- Runs a lowered block that ends in a counted loop. What the statements do that come after the
first one of its body is given. -/
def runCounted (act : List Statement → Body V W) (block : List Statement) (budget : Nat)
    (s : State V W) : Option (CountedRun V W) :=
  match m.opening block s with
  | (some (.forLoop ⟨some index, some value, _, true, some size⟩ _ (first :: rest)), s) =>
    first.kind.setsVar?.map fun (name, taken) =>
      m.countedRounds index size value
        (Machine.store name (m.meaning m.php taken).value) (act rest) budget
        (s.set index (m.number 0))
  | _ => none

end StringMachine

/-- What is done for a block leaves the variables alone that nothing in it writes. -/
def KeepsUnwritten (act : List Statement → Body V W) (block : List Statement) : Prop :=
  ∀ s name, name ∉ (blockWrites block).map Prod.fst → (act block s).2.vars name = s.vars name

def StringMachine.elements (m : StringMachine V W) (bytes : List UInt8) : List V :=
  bytes.map fun byte => m.text [byte]

/-- What a run of a loop over some values binds: the values in order, as far as it goes. It ends by
its condition only after all of them, and it does so if it has rounds enough and the body always
goes on. -/
structure CountedRun.BindsInOrder (run : CountedRun V W) (values : List V) (goesOn : Prop)
    (budget : Nat) : Prop where
  inOrder : run.bound <+: values
  all : run.ended = .condition → run.bound = values
  ends : goesOn → values.length < budget → run.ended = .condition

theorem Machine.opening_append_of_hoisted (m : Machine V W) {before : List Statement}
    (hoisted : ∀ statement ∈ before, IsHoisted statement) (rest : List Statement)
    (s : State V W) : m.opening (before ++ rest) s = m.opening rest (m.opening before s).2 := by
  induction before generalizing s with
  | nil => rfl
  | cons first others ih =>
      rw [List.forall_mem_cons] at hoisted
      obtain ⟨⟨name, value, pos, rfl⟩, later⟩ := hoisted
      rw [List.cons_append, m.opening_assignTo, m.opening_assignTo]
      exact ih later _

namespace CountedLoop

variable {m : StringMachine V W} {act : List Statement → Body V W} {l : CountedLoop}

/-- A round may start, and its number is the index. -/
structure InRound (m : StringMachine V W) (l : CountedLoop) (bytes : List UInt8) (round : Nat)
    (s : State V W) : Prop where
  source : s.vars l.source = m.text bytes
  size : s.vars l.size = m.number bytes.length
  index : s.vars l.index = m.number round

def opens (m : StringMachine V W) (l : CountedLoop) : State V W → State V W :=
  Machine.store l.value (m.meaning m.php
    (.plain (.access .element l.stored ((Expr.var l.index l.pos).withType "int")) l.pos)).value

theorem InRound.opens_eq {bytes : List UInt8} {round : Nat} {s : State V W}
    (inRound : l.InRound m bytes round s) (inside : round < bytes.length) :
    opens m l s = s.set l.value (m.text [bytes[round]]) := by
  have taken : opens m l s =
      let read := m.perform (.access .element) [s.vars l.source, s.vars l.index] s
      read.2.set l.value read.1 := rfl
  rw [taken, inRound.source, inRound.index, m.element bytes round inside]

/-- The body of a round leaves the string, its length and the index as they are, so the next round
has the next number. -/
theorem InRound.next {bytes : List UInt8} {round : Nat} {s : State V W}
    (inRound : l.InRound m bytes round s) {site : ForSite} {key : Option String}
    (fits : l.Fits site key) (apart : l.index ≠ l.value)
    (kept : KeepsUnwritten act l.body) (unwritten : l.index ∉ (blockWrites l.body).map Prod.fst)
    (value : V) :
    let after := (act l.body (s.set l.value value)).2
    l.InRound m bytes (round + 1) (after.set l.index (m.increment (after.vars l.index))) := by
  intro after
  obtain ⟨sourceSize, sourceIndex, sizeIndex⟩ :
      l.source ≠ l.size ∧ l.source ≠ l.index ∧ l.size ≠ l.index := by
    simpa [and_assoc] using fits.distinct
  have keeps (name : String) (other : name ≠ l.value)
      (silent : name ∉ (blockWrites l.body).map Prod.fst) : after.vars name = s.vars name := by
    rw [kept _ name silent, State.vars_set, if_neg other]
  have source := keeps l.source fits.valueApart.1.symm
    (fits.ownKept _ (by simp [ownNames, temporaries]))
  have size := keeps l.size fits.valueApart.2.symm
    (fits.ownKept _ (by simp [ownNames, temporaries]))
  have index := keeps l.index apart unwritten
  refine ⟨?_, ?_, ?_⟩
  · rw [State.vars_set, if_neg sourceIndex, source, inRound.source]
  · rw [State.vars_set, if_neg sizeIndex, size, inRound.size]
  · rw [State.vars_set, if_pos rfl, index, inRound.index, m.increment_number]

theorem InRound.bindsInOrder {bytes : List UInt8} {site : ForSite} {key : Option String}
    (fits : l.Fits site key) (apart : l.index ≠ l.value) (kept : KeepsUnwritten act l.body)
    (unwritten : l.index ∉ (blockWrites l.body).map Prod.fst) (budget : Nat) {round : Nat}
    {s : State V W} (inRound : l.InRound m bytes round s) (inside : round ≤ bytes.length) :
    (m.countedRounds l.index l.size l.value (opens m l) (act l.body) budget s).BindsInOrder
      ((m.elements bytes).drop round) (∀ s, (act l.body s).1 = true) budget := by
  induction budget generalizing round s with
  | zero =>
      exact ⟨List.nil_prefix, by simp [StringMachine.countedRounds], by simp⟩
  | succ budget ih =>
      rw [StringMachine.countedRounds, inRound.index, inRound.size, m.less_number]
      by_cases more : round < bytes.length
      · have first : (m.elements bytes).drop round =
            m.text [bytes[round]] :: (m.elements bytes).drop (round + 1) := by
          rw [List.drop_eq_getElem_cons (by simpa [StringMachine.elements] using more)]
          simp [StringMachine.elements]
        have rest := ih (inRound.next fits apart kept unwritten (m.text [bytes[round]])) more
        rw [if_pos (decide_eq_true more), inRound.opens_eq more, first]
        simp only [State.vars_set, if_true]
        split
        · refine ⟨?_, ?_, ?_⟩
          · exact List.cons_prefix_cons.mpr ⟨rfl, rest.inOrder⟩
          · intro ended
            exact congrArg (List.cons _) (rest.all ended)
          · intro always enough
            exact rest.ends always (by simpa using enough)
        · rename_i stops
          refine ⟨?_, nofun, ?_⟩
          · exact List.cons_prefix_cons.mpr ⟨rfl, List.nil_prefix⟩
          · intro always
            exact absurd (always _) stops
      · have exhausted : (m.elements bytes).drop round = [] := by
          simp [StringMachine.elements, Nat.le_of_not_lt more]
        rw [if_neg (by simpa using more), exhausted]
        exact ⟨List.nil_prefix, fun _ => rfl, fun _ _ => rfl⟩

theorem iterated_evaluates {reverse : Bool} {iterated : Expr} {bytes : List UInt8}
    {s after : State V W}
    (evaluates : (m.meaning m.php iterated).value s = (m.text bytes, after)) :
    (m.meaning m.php (reversed reverse true iterated)).value s =
      (m.text (if reverse then bytes.reverse else bytes), after) := by
  cases reverse with
  | false => exact evaluates
  | true =>
      have called : (m.meaning m.php (reversed true true iterated)).value s =
          let read := (m.meaning m.php iterated).value s
          m.perform (.call "strrev" 1) [read.1] read.2 := rfl
      rw [called, evaluates]
      exact m.strrev bytes after

theorem measure_eq (s : State V W) {bytes : List UInt8} (stored : s.vars l.source = m.text bytes) :
    Machine.store l.size (m.meaning m.php
      ((Expr.callOf "strlen" [l.stored] l.iterated.pos).withType "int")).value s =
        s.set l.size (m.number bytes.length) := by
  have measured : Machine.store l.size (m.meaning m.php
      ((Expr.callOf "strlen" [l.stored] l.iterated.pos).withType "int")).value s =
        let taken := m.perform (.call "strlen" 1) [s.vars l.source] s
        taken.2.set l.size taken.1 := rfl
  rw [measured, stored, m.strlen]

/-- The stretch of statements that a loop over a string becomes binds the bytes of the string that
its source has when it is evaluated, in the order that the head asks for. -/
theorem run_bindsInOrder {site : ForSite} {key : Option String} (fits : l.Fits site key)
    (hoisted : ∀ s ∈ l.before, IsHoisted s)
    (differ : ∀ name ∈ site.head.key, name ∉ site.head.value)
    (unset : l.index ∉ blockSets site.body) (kept : KeepsUnwritten act l.body) {iterated : Expr}
    (reverses : l.iterated = reversed site.head.reverse true iterated) {bytes : List UInt8}
    {s after : State V W}
    (evaluates : (m.meaning m.php iterated).value (m.opening l.before s).2 = (m.text bytes, after))
    (docblocks : List Docblock) (budget : Nat) :
    ∃ run, m.runCounted act (l.stretch docblocks) budget s = some run ∧
      run.BindsInOrder (m.elements (if site.head.reverse then bytes.reverse else bytes))
        (∀ s, (act l.body s).1 = true) budget := by
  set chars := if site.head.reverse then bytes.reverse else bytes with order
  obtain ⟨sourceSize, sourceIndex, sizeIndex⟩ :
      l.source ≠ l.size ∧ l.source ≠ l.index ∧ l.size ≠ l.index := by
    simpa [and_assoc] using fits.distinct
  have stores : Machine.store l.source (m.meaning m.php l.iterated).value
      (m.opening l.before s).2 = after.set l.source (m.text chars) := by
    rw [Machine.store, reverses, iterated_evaluates evaluates]
  have stored : (after.set l.source (m.text chars)).vars l.source = m.text chars := by simp
  have opened : m.opening (l.stretch docblocks) s = (some l.kind,
      (after.set l.source (m.text chars)).set l.size (m.number chars.length)) := by
    rw [stretch, m.opening_headDocs, m.opening_append_of_hoisted hoisted, store, measure,
      m.opening_assignTo, m.opening_assignTo, stores, measure_eq _ stored]
    rfl
  have starts : l.InRound m chars 0
      (((after.set l.source (m.text chars)).set l.size (m.number chars.length)).set l.index
        (m.number 0)) := by
    refine ⟨?_, ?_, ?_⟩
    · simp [sourceSize, sourceIndex]
    · simp [sizeIndex]
    · simp
  refine ⟨m.countedRounds l.index l.size l.value (opens m l) (act l.body) budget _, ?_,
    starts.bindsInOrder fits (fits.indexApart differ) kept (fits.indexKept unset) budget
      (Nat.zero_le _)⟩
  rw [StringMachine.runCounted, opened]
  rfl

end CountedLoop

/-! ### Bodies with loops -/

section Bodies

variable {stands : List Statement → Prop} {site : ForSite} {loop : Option CountedLoop}

/-- A loop with different names for key and value whose body does not write the index takes the
string of its source apart in order. -/
def ForSite.TakesInOrder (site : ForSite) (l : CountedLoop) : Prop :=
  (∀ name ∈ site.head.key, name ∉ site.head.value) → l.index ∉ blockSets site.body →
    ∃ iterated, l.iterated = reversed site.head.reverse true iterated ∧
      ∀ {V W : Type} (m : StringMachine V W) (act : List Statement → Body V W),
        KeepsUnwritten act l.body → ∀ bytes s after,
          (m.meaning m.php iterated).value (m.opening l.before s).2 = (m.text bytes, after) →
            ∀ budget, ∃ run, m.runCounted act (l.stretch site.docblocks) budget s = some run ∧
              run.BindsInOrder (m.elements (if site.head.reverse then bytes.reverse else bytes))
                (∀ s, (act l.body s).1 = true) budget

/-- The names that the head of a loop declares before the source of the loop is lowered. -/
def ForHead.names (head : ForHead) : List String :=
  (head.key.filter (· != "_")).toList ++ (head.value.filter (· != "_")).toList

/-- Which loops of a body count. A loop counts exactly if its source, lowered where the names of the
loop are locals, has the type of a string. There the key and the value have no certain type unless
they were locals before, even if one of them is a parameter that is a string. Other names have the
type with which the body started or one that the body gave them. -/
structure ForSite.CountsOverStrings (site : ForSite) (start : Scope) (body : List Statement)
    (loop : Option CountedLoop) : Prop where
  counts : loop.isSome = true ↔ site.named.loweredType site.iterated = some "string"
  shadows : ∃ value, (value ∈ site.head.value ∨ IsTemporaryName value) ∧
    Shadows ((site.head.key.filter (· != "_")).toList ++ [value]) site.scope site.named
  retypes : Retypes (· ∈ blockTypings body) start site.named
  /-- A loop over a string counts, unless the string is a parameter whose name the loop takes. -/
  strings : ∀ name pos dataType doCast, site.iterated = ⟨.var name, pos, dataType, doCast⟩ →
    site.scope.typeOf? name = some "string" →
      (loop.isSome = true ↔ name ∈ site.scope.locals.keys ∨ name ∉ site.head.names)
  /-- A loop over a variable counts if the body leaves the variable a string. -/
  stays : ∀ name pos dataType doCast, site.iterated = ⟨.var name, pos, dataType, doCast⟩ →
    start.StaysString body name → loop.isSome = true

theorem ForSite.LowersTo.takesInOrder {l : CountedLoop}
    (lowers : site.LowersTo stands (some l)) : site.TakesInOrder l := by
  cases lowers with
  | counted l names lowered string reverses place opened loweredBody fits standing =>
      intro differ unset
      exact ⟨_, reverses, fun m act kept bytes s after evaluates budget =>
        CountedLoop.run_bindsInOrder fits lowered.hoisted differ unset kept reverses evaluates
          site.docblocks budget⟩

theorem ForSite.LowersTo.isSome_iff (lowers : site.LowersTo stands loop) :
    loop.isSome = true ↔ site.named.loweredType site.iterated = some "string" := by
  cases lowers with
  | counted l names lowered string reverses place opened loweredBody fits standing =>
      rw [← lowered.dataType_eq]
      exact ⟨fun _ => string, fun _ => rfl⟩
  | other names lowered noString =>
      rw [← lowered.dataType_eq]
      exact ⟨nofun, fun string => absurd string noString⟩

theorem ForSite.LowersTo.exists_value (lowers : site.LowersTo stands loop) :
    ∃ value, (site.head.value.filter (· != "_") = some value ∨
        site.head.value.filter (· != "_") = none ∧
          ∃ dataType, IsNew site.scope site.named value dataType) ∧
      Shadows ((site.head.key.filter (· != "_")).toList ++ [value]) site.scope site.named := by
  obtain ⟨key, value, names⟩ : ∃ key value,
      (loopNames site.head site.pos).Runs site.scope [] (key, value) site.named := by
    cases lowers with
    | counted l names lowered string reverses place opened loweredBody fits standing =>
        exact ⟨_, _, names⟩
    | other names lowered noString => exact ⟨_, _, names⟩
  obtain ⟨-, -, rfl, given, shadows⟩ := @loopNames_value (fun _ => True) _ _ _ _ _ names
  exact ⟨value, given, shadows⟩

theorem ForSite.LowersTo.isSome_iff_of_string (lowers : site.LowersTo stands loop) {name : String}
    {pos : Position} {dataType : Option String} {doCast : Bool}
    (source : site.iterated = ⟨.var name, pos, dataType, doCast⟩)
    (string : site.scope.typeOf? name = some "string") :
    loop.isSome = true ↔ name ∈ site.scope.locals.keys ∨ name ∉ site.head.names := by
  obtain ⟨value, given, shadows⟩ := lowers.exists_value
  have among : name ∈ (site.head.key.filter (· != "_")).toList ++ [value] ↔
      name ∈ site.head.names := by
    rcases given with named | ⟨none, _, new⟩
    · simp [ForHead.names, named, eq_comm]
    -- A temporary that the loop makes for its value has no name that was taken before.
    · have other : name ≠ value := by
        rintro rfl
        have free := new.free
        simp [Scope.isTaken_of_typeOf? string] at free
      simp [ForHead.names, none, other]
  have typed := shadows.typed name
  simp only [among, string] at typed
  rw [lowers.isSome_iff, source, Scope.loweredType, typed]
  by_cases hidden : name ∈ site.head.names ∧ name ∉ site.scope.locals.keys
  · simp [hidden]
  · simp only [hidden, if_false]
    tauto

theorem ForSite.LowersTo.countsOverStrings {start : Scope} {body : List Statement}
    (lowers : site.LowersTo stands loop)
    (retypes : Retypes (· ∈ blockTypings body) start site.named) :
    site.CountsOverStrings start body loop where
  counts := lowers.isSome_iff
  shadows := by
    obtain ⟨value, given, shadows⟩ := lowers.exists_value
    refine ⟨value, given.imp (fun named => ?_) fun ⟨_, _, new⟩ => new.form, shadows⟩
    exact (Option.mem_filter_iff.mp named).1
  retypes := retypes
  strings := fun _ _ _ _ => lowers.isSome_iff_of_string
  stays := fun name pos dataType doCast source stays => by
    rw [lowers.isSome_iff, source, Scope.loweredType, stays.typeOf_eq retypes]
    rfl

def LoopsOwnTemporaries (body : List Statement) (scope : Scope) (body' : List Statement)
    (after : Scope) : Prop :=
  ∃ loops, Tally (· ∈ blockBinds body) (LowersIn body') (blockSets body) scope after
      (blockWrites body') (blockLoops body scope) loops ∧
    ∀ entry ∈ loops, entry.1.CountsOverStrings scope body entry.2 ∧
      ∀ l ∈ entry.2, entry.1.TakesInOrder l

theorem LowersBlock.loopsOwnTemporaries {body body' : List Statement} {scope after : Scope}
    (lowered : LowersBlock body scope body' after)
    (plain : ∀ name ∈ blockSets body, ¬ IsTemporaryName name) :
    LoopsOwnTemporaries body scope body' after := by
  obtain ⟨loops, tally⟩ := lowered.tally plain fun _ binds => binds
  have retypes : RetypesLoops (· ∈ blockTypings body) scope after (blockLoops body scope) :=
    lowered.retypes fun _ typing => typing
  refine ⟨loops, tally, fun entry among => ?_⟩
  have lowers := tally.lowered entry among
  have walked : entry.1 ∈ blockLoops body scope :=
    tally.complete ▸ List.mem_map_of_mem among
  refine ⟨lowers.countsOverStrings (retypes.loops _ walked), fun l counted => ?_⟩
  have lowersCounted := (Option.mem_def.mp counted) ▸ lowers
  exact lowersCounted.takesInOrder

/-- Loops over strings own their temporaries, in a body that is lowered in any scope as in that of a
closure, which has variables of its own. -/
theorem string_loops_own_temporaries (body : List Statement)
    (plain : ∀ name ∈ blockSets body, ¬ IsTemporaryName name) :
    (∀ (scope after : Scope) (lowered : Splice (List Statement)),
      lowerBlock body scope = .ok (lowered, after) →
        LoopsOwnTemporaries body scope lowered.node after) ∧
    (∀ (parameters : List Parameter) (locals : Locals) (pos : Position) (dataType : Option String)
      (doCast : Bool) (scope after : Scope) (lowered : Splice Expr),
      lowerExpr ⟨.closure parameters body locals, pos, dataType, doCast⟩ scope =
        .ok (lowered, after) →
        ∃ body' inner,
          lowered.node = ⟨.closure parameters body' inner.locals, pos, dataType, doCast⟩ ∧
            LoopsOwnTemporaries body { locals, parameters } body' inner) := by
  constructor
  · intro scope after lowered ran
    obtain ⟨-, -, derived⟩ := lowerBlock_derives scope body lowered after ran
    exact derived.loopsOwnTemporaries plain
  · intro parameters locals pos dataType doCast scope after lowered ran
    obtain ⟨-, derived⟩ := lowerExpr_derives scope _ lowered after ran
    generalize lowered.before = before, lowered.node = node at derived ⊢
    cases derived with
    | closure loweredBody => exact ⟨_, _, rfl, loweredBody.loopsOwnTemporaries plain⟩

end Bodies

theorem IsTemporaryName.head?_toList {name : String} (temporary : IsTemporaryName name) :
    name.toList.head? = some '_' := by
  obtain ⟨dataType, mark, index, marked, rfl⟩ := temporary
  unfold Scope.temporaryMark? at marked
  split at marked <;> cases marked <;> simp [Scope.numbered]

/-- A loop over a local, one in a handler of two classes, and two over a parameter. The first and
the last take the name of what they run over for their values. -/
def stringLoopSample : List Statement :=
  let pos : Position := { file := "sample.zep", line := 3, column := 9 }
  let name (text : String) : Expr := .var text pos
  let loop (head : ForHead) (source : String) : Statement :=
    { kind := .forLoop head (name source) [], pos }
  [ loop ⟨none, some "text", false, false, none⟩ "text",
    { kind := .tryCatch [] [⟨[name "First", name "Second"], some (name "e"),
        [loop ⟨some "at", some "char", true, false, none⟩ "text"], pos⟩], pos },
    loop ⟨none, some "byte", false, false, none⟩ "given",
    loop ⟨none, some "given", false, false, none⟩ "given" ]

def stringLoopScope : Scope where
  locals := .ofList [("text", ⟨"string", {}⟩)]
  parameters := [{ name := "given", dataType := "string", pos := {} }]

theorem plain_stringLoopSample : ∀ name ∈ blockSets stringLoopSample, ¬ IsTemporaryName name := by
  have plain : ∀ name ∈ blockSets stringLoopSample, name.toList.head? ≠ some '_' := by decide
  exact fun name among temporary => plain name among temporary.head?_toList

inductive ByteValue
  | null
  | bool (value : Bool)
  | number (value : Nat)
  | text (bytes : List UInt8)
  deriving DecidableEq

def byteMachine : StringMachine ByteValue Unit where
  null := .null
  truthy := fun value => decide (value = .bool true)
  ofBool := .bool
  equals := fun left right => decide (left = right)
  perform := fun op operands s =>
    match op, operands with
    | .call "strlen" _, [.text bytes] => (.number bytes.length, s)
    | .call "strrev" _, [.text bytes] => (.text bytes.reverse, s)
    | .access .element, [.text bytes, .number i] => (bytes[i]?.elim .null (.text [·]), s)
    | _, _ => (.null, s)
  truthy_ofBool := by simp
  number := .number
  text := .text
  less := fun left right =>
    match left, right with
    | .number i, .number n => decide (i < n)
    | _, _ => false
  increment := fun value =>
    match value with
    | .number i => .number (i + 1)
    | value => value
  less_number := fun _ _ => rfl
  increment_number := fun _ => rfl
  strlen := fun _ _ => rfl
  strrev := fun _ _ => rfl
  element := fun bytes i inside s => by simp [inside]

/-- The loop over the local counts, and so do both copies of the one in the handler, which share
their temporaries, and the first one over the parameter. Run on the text `Hi`, the first loop binds
`H` and `i`. The last one does not count: its value took the name of the parameter. -/
theorem stringLoopSample_ownsTemporaries :
    (∃ lowered after, lowerBlock stringLoopSample stringLoopScope = .ok (lowered, after) ∧
      (blockWrites lowered.node).map Prod.fst =
        ["__t_s_1", "__t_i_2", "__t_i_1", "text",
          "e", "__t_s_2", "__t_i_3", "at", "char", "e", "__t_s_2", "__t_i_3", "at", "char",
          "__t_s_3", "__t_i_5", "__t_i_4", "byte", "given"] ∧
      (blockLoops stringLoopSample stringLoopScope).map
          (fun site => site.named.loweredType site.iterated) =
        [some "string", some "string", some "string", some "variable"] ∧
      (byteMachine.runCounted (fun _ s => (true, s)) (lowered.node.take 3) 3
        ⟨fun _ => .text [72, 105], ()⟩).map (·.bound) = some [.text [72], .text [105]] ∧
      LoopsOwnTemporaries stringLoopSample stringLoopScope lowered.node after) ∧
    ∃ lowered after, lowerExpr ⟨.closure stringLoopScope.parameters stringLoopSample
        stringLoopScope.locals, {}, none, false⟩ ⟨.empty, [], []⟩ = .ok (lowered, after) ∧
      ∃ body' inner, lowered.node =
          ⟨.closure stringLoopScope.parameters body' inner.locals, {}, none, false⟩ ∧
        LoopsOwnTemporaries stringLoopSample stringLoopScope body' inner := by
  constructor
  · have runs : (lowerBlock stringLoopSample stringLoopScope).isOk = true := by decide +kernel
    have shows : (lowerBlock stringLoopSample stringLoopScope).toOption.map (fun ran =>
        ((blockWrites ran.1.node).map Prod.fst,
          (byteMachine.runCounted (fun _ s => (true, s)) (ran.1.node.take 3) 3
            ⟨fun _ => .text [72, 105], ()⟩).map (·.bound))) =
        some (["__t_s_1", "__t_i_2", "__t_i_1", "text", "e", "__t_s_2", "__t_i_3", "at", "char",
          "e", "__t_s_2", "__t_i_3", "at", "char", "__t_s_3", "__t_i_5", "__t_i_4", "byte",
          "given"], some [.text [72], .text [105]]) := by
      decide +kernel
    obtain ⟨⟨lowered, after⟩, ran⟩ := exists_ok_of_isOk runs
    simp only [ran, Except.toOption, Option.map_some, Option.some.injEq, Prod.mk.injEq] at shows
    exact ⟨lowered, after, ran, shows.1, by decide +kernel, shows.2,
      (string_loops_own_temporaries _ plain_stringLoopSample).1 _ _ _ ran⟩
  · have runs : (lowerExpr ⟨.closure stringLoopScope.parameters stringLoopSample
        stringLoopScope.locals, {}, none, false⟩ ⟨.empty, [], []⟩).isOk = true := by
      decide +kernel
    obtain ⟨⟨lowered, after⟩, ran⟩ := exists_ok_of_isOk runs
    exact ⟨lowered, after, ran,
      (string_loops_own_temporaries _ plain_stringLoopSample).2 _ _ _ _ _ _ _ _ ran⟩

end Zephir
