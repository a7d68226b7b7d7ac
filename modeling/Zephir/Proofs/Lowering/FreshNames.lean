import Mathlib.Order.Bounds.Basic
import Zephir.Proofs.Compile.MemberOrder
import Zephir.Proofs.Lowering.Temporaries

/-!
Names of temporaries. The search for a free name tries one number after another and has no bound of
its own. It ends all the same, since a scope has finitely many names, and it takes the lowest number
that is free. A temporary is entered behind the locals that are there, so the numbers that one type
gets go up and leave no gap, whatever other types get in between.
-/

namespace Zephir

namespace Scope

/-- The search for a free name from a number on: how many names it tries, and the number of the one
that it takes. Nothing but a free name ends it. -/
inductive Search (mark : String) (taken : String → Bool) : Nat → Nat → Nat → Prop
  | free {index} : taken (numbered mark index) = false → Search mark taken index 1 index
  | taken {index tries found} : taken (numbered mark index) = true →
      Search mark taken (index + 1) tries found → Search mark taken index (tries + 1) found

structure IsFree (scope : Scope) (mark : String) (index : Nat) : Prop where
  positive : 0 < index
  notLocal : numbered mark index ∉ scope.locals.keys
  notParameter : numbered mark index ∉ scope.parameters.map (·.name)

/-- Numbers in increasing order, with no free one left out below any of them. -/
structure Lowest (free : Nat → Prop) (indices : List Nat) : Prop where
  increasing : indices.Pairwise (· < ·)
  all : ∀ index ∈ indices, free index
  gapless : ∀ index ∈ indices, ∀ other < index, free other → other ∈ indices

def temporaries? (scope : Scope) : List (String × Position) → Option (List String × Scope)
  | [] => some ([], scope)
  | (dataType, pos) :: rest =>
    match scope.temporary? dataType pos with
    | none => none
    | some (name, next) =>
      (next.temporaries? rest).map fun (names, last) => (name :: names, last)

def namesOf (dataType : String) (requests : List (String × Position)) (names : List String) :
    List String :=
  ((requests.zip names).filter (·.1.1 == dataType)).map Prod.snd

def newLocals (requests : List (String × Position)) (names : List String) :
    List (String × Local) :=
  (names.zip requests).map fun (name, dataType, pos) => (name, ⟨dataType, pos⟩)

structure Registers (scope : Scope) (name dataType : String) (pos : Position) (next : Scope) :
    Prop where
  locals : next.locals.entries = scope.locals.entries ++ [(name, ⟨dataType, pos⟩)]
  parameters : next.parameters = scope.parameters

structure Answers (scope : Scope) (requests : List (String × Position)) (names : List String)
    (last : Scope) : Prop where
  count : names.length = requests.length
  locals : last.locals.entries = scope.locals.entries ++ newLocals requests names
  parameters : last.parameters = scope.parameters
  /-- The numbers that a type gets. -/
  lowest : ∀ dataType mark, temporaryMark? dataType = some mark → ∃ indices,
    namesOf dataType requests names = indices.map (numbered mark) ∧
      Lowest (scope.IsFree mark) indices

variable {mark dataType name : String} {taken : String → Bool} {scope next : Scope} {pos : Position}
  {start tries found index : Nat}

namespace Search

theorem free_found (search : Search mark taken start tries found) :
    taken (numbered mark found) = false := by
  induction search with
  | free free => exact free
  | taken _ _ ih => exact ih

theorem taken_of_lt (search : Search mark taken start tries found) (index : Nat)
    (from_ : start ≤ index) (below : index < found) : taken (numbered mark index) = true := by
  induction search with
  | free => omega
  | @taken start tries found first _ ih =>
      by_cases same : index = start
      · exact same ▸ first
      · exact ih (by omega) below

end Search

theorem search_firstFree (free : taken (firstFree mark taken start tries) = false) :
    ∃ count ≤ tries, firstFree mark taken start tries = numbered mark (start + count) ∧
      Search mark taken start (count + 1) (start + count) := by
  induction tries generalizing start with
  | zero => exact ⟨0, Nat.le_refl 0, rfl, .free free⟩
  | succ tries ih =>
      rw [firstFree] at free ⊢
      split
      · rename_i used
        rw [if_pos used] at free
        obtain ⟨count, bound, named, search⟩ := ih free
        rw [show start + 1 + count = start + (count + 1) by omega] at named search
        exact ⟨count + 1, by omega, named, .taken used search⟩
      · rename_i unused
        exact ⟨0, Nat.zero_le _, rfl, .free (by simpa using unused)⟩

theorem isFree_iff : scope.IsFree mark index ↔
    0 < index ∧ scope.isTaken (numbered mark index) = false := by
  rw [← Bool.not_eq_true, isTaken_iff, List.mem_append, not_or]
  exact ⟨fun free => ⟨free.positive, free.notLocal, free.notParameter⟩,
    fun ⟨positive, absent, other⟩ => ⟨positive, absent, other⟩⟩

theorem isLeast_of_search (search : Search mark scope.isTaken 1 tries index)
    (positive : 0 < index) :
    IsLeast {index | scope.IsFree mark index} index := by
  refine ⟨isFree_iff.mpr ⟨positive, search.free_found⟩, fun other free => ?_⟩
  rw [Set.mem_ofPred_eq, isFree_iff] at free
  by_contra above
  have used := search.taken_of_lt other free.1 (Nat.lt_of_not_le above)
  simp [free.2] at used

theorem temporary_registers (marked : temporaryMark? dataType = some mark)
    (absent : scope.freshName mark ∉ scope.locals.keys) (pos : Position) :
    ∃ next, scope.temporary? dataType pos = some (scope.freshName mark, next) ∧
      Registers scope (scope.freshName mark) dataType pos next := by
  refine ⟨_, by rw [temporary?, marked]; rfl, ?_⟩
  exact ⟨OrderedMap.entries_insert_of_notMem absent, rfl⟩

theorem temporary_spec (scope : Scope) (marked : temporaryMark? dataType = some mark)
    (pos : Position) :
    ∃ index next, scope.temporary? dataType pos = some (numbered mark index, next) ∧
      (∃ tries ≤ scope.locals.entries.length + scope.parameters.length + 1,
        Search mark scope.isTaken 1 tries index) ∧
      IsLeast {index | scope.IsFree mark index} index ∧
      Registers scope (numbered mark index) dataType pos next := by
  obtain ⟨count, bound, named, search⟩ := search_firstFree (scope.isTaken_freshName mark)
  have name : scope.freshName mark = numbered mark (1 + count) := named
  have least := isLeast_of_search search (by omega)
  obtain ⟨next, made, registers⟩ :=
    temporary_registers marked (name ▸ least.1.notLocal) pos
  rw [name] at made registers
  exact ⟨1 + count, next, made, ⟨count + 1, by omega, search⟩, least, registers⟩

theorem Registers.isFree_iff (registers : Registers scope name dataType pos next) :
    next.IsFree mark index ↔ scope.IsFree mark index ∧ numbered mark index ≠ name := by
  have keys : next.locals.keys = scope.locals.keys ++ [name] := by
    simp [OrderedMap.keys, registers.locals]
  constructor
  · rintro ⟨positive, notLocal, notParameter⟩
    rw [keys, List.mem_append, List.mem_singleton, not_or] at notLocal
    exact ⟨⟨positive, notLocal.1, registers.parameters ▸ notParameter⟩, notLocal.2⟩
  · rintro ⟨⟨positive, notLocal, notParameter⟩, differs⟩
    refine ⟨positive, ?_, registers.parameters ▸ notParameter⟩
    rw [keys, List.mem_append, List.mem_singleton, not_or]
    exact ⟨notLocal, differs⟩

/-! ### Several requests -/

theorem Lowest.nil (free : Nat → Prop) : Lowest free [] :=
  ⟨.nil, by simp, by simp⟩

/-- The least number, and then the lowest of the others. -/
theorem Lowest.cons {free : Nat → Prop} {indices : List Nat}
    (least : IsLeast {index | free index} index)
    (others : Lowest (fun other => free other ∧ other ≠ index) indices) :
    Lowest free (index :: indices) where
  increasing := by
    refine .cons (fun other among => ?_) others.increasing
    obtain ⟨isFree, differs⟩ := others.all other among
    exact lt_of_le_of_ne (least.2 isFree) differs.symm
  all := List.forall_mem_cons.mpr ⟨least.1, fun other among => (others.all other among).1⟩
  gapless := by
    intro bound among other below isFree
    by_cases same : other = index
    · exact same ▸ List.mem_cons_self
    · rcases List.mem_cons.mp among with rfl | later
      · exact absurd (least.2 isFree) (Nat.not_le_of_lt below)
      · exact List.mem_cons_of_mem _ (others.gapless bound later other below ⟨isFree, same⟩)

theorem Lowest.congr {free free' : Nat → Prop} {indices : List Nat} (lowest : Lowest free indices)
    (same : ∀ index, free index ↔ free' index) : Lowest free' indices :=
  (funext fun index => propext (same index) : free = free') ▸ lowest

theorem take_numbered (marked : temporaryMark? dataType = some mark) (index : Nat) :
    (numbered mark index).toList.take 6 = mark.toList := by
  unfold temporaryMark? at marked
  split at marked <;> cases marked <;> simp [numbered]

theorem numbered_ne {other mark' : String} {index' : Nat}
    (marked : temporaryMark? dataType = some mark) (marked' : temporaryMark? other = some mark')
    (differs : dataType ≠ other) : numbered mark index ≠ numbered mark' index' := by
  intro same
  have marks : mark = mark' := by
    rw [← String.toList_inj, ← take_numbered marked index, same, take_numbered marked']
  subst marks
  unfold temporaryMark? at marked marked'
  split at marked <;> cases marked <;> split at marked' <;> simp_all

theorem Answers.nil (scope : Scope) : Answers scope [] [] scope :=
  ⟨rfl, by simp [newLocals], rfl, fun _ _ _ => ⟨[], rfl, .nil _⟩⟩

/-- The first request takes a number from those of its type, and none from the other types. -/
theorem Answers.cons {rest : List (String × Position)} {names : List String} {last : Scope}
    (marked : temporaryMark? dataType = some mark)
    (least : IsLeast {index | scope.IsFree mark index} index)
    (registers : Registers scope (numbered mark index) dataType pos next)
    (others : Answers next rest names last) :
    Answers scope ((dataType, pos) :: rest) (numbered mark index :: names) last where
  count := by simp [others.count]
  locals := by simp [others.locals, registers.locals, newLocals]
  parameters := others.parameters.trans registers.parameters
  lowest := by
    intro other mark' marked'
    obtain ⟨indices, named, lowest⟩ := others.lowest other mark' marked'
    by_cases same : dataType = other
    · subst same
      obtain rfl : mark = mark' := Option.some.inj (marked.symm.trans marked')
      refine ⟨index :: indices, by simpa [namesOf] using named, .cons least ?_⟩
      refine lowest.congr fun number => ?_
      rw [registers.isFree_iff, (numbered_injective mark).ne_iff]
    · refine ⟨indices, by simpa [namesOf, same] using named, lowest.congr fun number => ?_⟩
      rw [registers.isFree_iff]
      exact and_iff_left (numbered_ne marked' marked fun equal => same equal.symm)

theorem temporaries_spec (scope : Scope) (requests : List (String × Position))
    (supported : ∀ request ∈ requests, ∃ mark, temporaryMark? request.1 = some mark) :
    ∃ names last, scope.temporaries? requests = some (names, last) ∧
      Answers scope requests names last := by
  induction requests generalizing scope with
  | nil => exact ⟨[], scope, rfl, .nil scope⟩
  | cons request rest ih =>
      rw [List.forall_mem_cons] at supported
      obtain ⟨mark, marked⟩ := supported.1
      obtain ⟨index, next, made, -, least, registers⟩ := temporary_spec scope marked request.2
      obtain ⟨names, last, answered, others⟩ := ih next supported.2
      exact ⟨numbered mark index :: names, last, by simp [temporaries?, made, answered],
        .cons marked least registers others⟩

/-- For every type with a mark the search ends, after one try more than there are names at most. The
temporary gets the lowest free number behind the mark, and it is entered behind the locals, which
stay as they are. Requests in a row are all answered, and those for one type get the lowest free
numbers in increasing order. -/
theorem temporaries_lowest (scope : Scope) :
    (∀ dataType mark, temporaryMark? dataType = some mark → ∀ pos, ∃ index next,
      scope.temporary? dataType pos = some (numbered mark index, next) ∧
        (∃ tries ≤ scope.locals.entries.length + scope.parameters.length + 1,
          Search mark scope.isTaken 1 tries index) ∧
        IsLeast {index | scope.IsFree mark index} index ∧
        Registers scope (numbered mark index) dataType pos next) ∧
    ∀ requests : List (String × Position),
      (∀ request ∈ requests, ∃ mark, temporaryMark? request.1 = some mark) →
      ∃ names last, scope.temporaries? requests = some (names, last) ∧
        Answers scope requests names last :=
  ⟨fun _ _ marked pos => temporary_spec scope marked pos, temporaries_spec scope⟩

def gappedSample : Scope where
  locals := .ofList [("__t_i_1", ⟨"int", {}⟩), ("__t_i_02", ⟨"int", {}⟩), ("__t_s_1", ⟨"int", {}⟩)]
  parameters := [{ name := "__t_i_3", dataType := "variable", pos := {} }]

def gappedRequests : List (String × Position) :=
  [("int", {}), ("string", {}), ("int", {})]

theorem gappedSample_lowest :
    temporaryMark? "int" = some "__t_i_" ∧
    (∃ next, gappedSample.temporary? "int" {} = some ("__t_i_2", next)) ∧
    (∃ tries ≤ 5, Search "__t_i_" gappedSample.isTaken 1 tries 2) ∧
    IsLeast {index | gappedSample.IsFree "__t_i_" index} 2 ∧
    (∀ request ∈ gappedRequests, ∃ mark, temporaryMark? request.1 = some mark) ∧
    (∃ last, gappedSample.temporaries? gappedRequests =
      some (["__t_i_2", "__t_s_2", "__t_i_4"], last)) ∧
    Lowest (gappedSample.IsFree "__t_i_") [2, 4] := by
  have marked : temporaryMark? "int" = some "__t_i_" := rfl
  have supported : ∀ request ∈ gappedRequests, ∃ mark, temporaryMark? request.1 = some mark := by
    simp [gappedRequests, temporaryMark?]
  obtain ⟨single, several⟩ := temporaries_lowest gappedSample
  obtain ⟨index, next, made, search, least, -⟩ := single "int" "__t_i_" marked {}
  have named : (gappedSample.temporary? "int" {}).map Prod.fst = some "__t_i_2" := by
    decide +kernel
  have second : index = 2 := by
    rw [made] at named
    exact numbered_injective "__t_i_" (Option.some.inj named)
  subst second
  obtain ⟨names, last, answered, answers⟩ := several gappedRequests supported
  have given : (gappedSample.temporaries? gappedRequests).map Prod.fst =
      some ["__t_i_2", "__t_s_2", "__t_i_4"] := by
    decide +kernel
  rw [answered] at given
  obtain rfl := Option.some.inj given
  obtain ⟨indices, numbers, lowest⟩ := answers.lowest "int" "__t_i_" marked
  have pair : indices = [2, 4] := by
    refine List.map_injective_iff.mpr (numbered_injective "__t_i_") (numbers.symm.trans ?_)
    decide +kernel
  exact ⟨marked, ⟨next, made⟩, search, least, supported, ⟨last, answered⟩, pair ▸ lowest⟩

end Scope

end Zephir
