import Mathlib.Data.List.Nodup
import Mathlib.Data.List.Perm.Subperm
import Zephir.Proofs.Lowering.Derivation
import Zephir.Proofs.OrderedMap

/-!
Temporaries of a body. A scope only grows while a body is lowered: no local is lost, a type changes
only where the body declares a variable or counts with it, and every temporary is new when it is
made. Since a temporary stays a local, no later one has its name.
-/

namespace Zephir

open Lowering

namespace Scope

theorem isTaken_iff {scope : Scope} {name : String} :
    scope.isTaken name = true ↔
      name ∈ scope.locals.keys ++ scope.parameters.map (·.name) := by
  simp [isTaken, OrderedMap.contains_eq_true_iff, List.any_eq_true]

theorem isTaken_of_typeOf? {scope : Scope} {name dataType : String}
    (typed : scope.typeOf? name = some dataType) : scope.isTaken name = true := by
  unfold typeOf? at typed
  split at typed
  · rename_i var found
    have entry := OrderedMap.get?_eq_some_iff.mp found
    exact isTaken_iff.mpr (List.mem_append_left _ (List.mem_map_of_mem entry))
  · obtain ⟨parameter, found, -⟩ := Option.map_eq_some_iff.mp typed
    have named := List.find?_some found
    have among := List.mem_of_find?_eq_some found
    simp only [isTaken, Bool.or_eq_true, List.any_eq_true]
    exact .inr ⟨parameter, among, named⟩

theorem numbered_injective (mark : String) : Function.Injective (numbered mark) := by
  intro first second same
  have digits : toString first = toString second := (String.append_right_inj mark).mp same
  rw [Nat.toString_eq_ofList_toDigits, Nat.toString_eq_ofList_toDigits, String.ofList_inj]
    at digits
  have read := congrArg (Nat.ofDigitChars 10 · 0) digits
  simpa using read

theorem firstFree_spec (mark : String) (taken : String → Bool) (index tries : Nat) :
    taken (firstFree mark taken index tries) = false ∨
      ∀ offset ≤ tries, taken (numbered mark (index + offset)) = true := by
  induction tries generalizing index with
  | zero =>
      cases found : taken (numbered mark index) with
      | false => exact .inl found
      | true =>
          right
          intro offset bound
          simpa [Nat.le_zero.mp bound] using found
  | succ tries ih =>
      rw [firstFree]
      split
      · rename_i used
        rcases ih (index + 1) with free | full
        · exact .inl free
        · right
          intro offset bound
          cases offset with
          | zero => exact used
          | succ offset =>
              have next := full offset (by omega)
              rwa [show index + 1 + offset = index + (offset + 1) by omega] at next
      · rename_i free
        exact .inl (by simpa using free)

/-- A scope has fewer names than are tried, so one of these is free. -/
theorem isTaken_freshName (scope : Scope) (mark : String) :
    scope.isTaken (scope.freshName mark) = false := by
  rcases firstFree_spec mark scope.isTaken 1
    (scope.locals.entries.length + scope.parameters.length) with free | full
  · exact free
  · exfalso
    set tries := scope.locals.entries.length + scope.parameters.length with count
    have distinct : ((List.range (tries + 1)).map fun offset => numbered mark (1 + offset)).Nodup :=
      List.nodup_range.map fun first second same =>
        Nat.add_left_cancel (numbered_injective mark same)
    have among : ((List.range (tries + 1)).map fun offset => numbered mark (1 + offset)) ⊆
        scope.locals.keys ++ scope.parameters.map (·.name) := by
      intro name tried
      obtain ⟨offset, bound, rfl⟩ := List.mem_map.mp tried
      exact isTaken_iff.mp (full offset (by simpa [Nat.lt_succ_iff] using bound))
    have short := (List.subperm_of_subset distinct among).length_le
    simp only [OrderedMap.keys, List.length_map, List.length_range, List.length_append] at short
    omega

end Scope

/-- What lowering does to a scope. Types change only of names that are bound by the body. -/
structure Grows (bound : String → Prop) (before after : Scope) : Prop where
  parameters : after.parameters = before.parameters
  keys : before.locals.keys <+: after.locals.keys
  kept : ∀ name ∈ before.locals.keys, ¬bound name →
    after.locals.get? name = before.locals.get? name
  /-- The temporaries made on the way: new, different from each other, and of the type asked for. -/
  made : ∃ made : List (String × String), after.issued = made ++ before.issued ∧
    (made.map Prod.fst).Nodup ∧
    (∀ name ∈ made.map Prod.fst, before.isTaken name = false ∧ name ∈ after.locals.keys) ∧
    ∀ entry ∈ made, ¬bound entry.1 →
      (after.locals.get? entry.1).map (·.dataType) = some entry.2

namespace Grows

variable {bound : String → Prop} {scope before mid after : Scope} {name : String}

theorem refl (scope : Scope) : Grows bound scope scope :=
  ⟨rfl, List.prefix_rfl, fun _ _ _ => rfl, [], by simp⟩

theorem isTaken_mono (grows : Grows bound before after) (free : after.isTaken name = false) :
    before.isTaken name = false := by
  by_contra taken
  rw [Bool.not_eq_false, Scope.isTaken_iff, List.mem_append] at taken
  have still : after.isTaken name = true := by
    rw [Scope.isTaken_iff, List.mem_append, grows.parameters]
    exact taken.imp_left fun present => grows.keys.subset present
  simp [free] at still

theorem trans (first : Grows bound before mid) (second : Grows bound mid after) :
    Grows bound before after := by
  obtain ⟨early, issuedEarly, distinctEarly, freshEarly, typedEarly⟩ := first.made
  obtain ⟨late, issuedLate, distinctLate, freshLate, typedLate⟩ := second.made
  have presentEarly : ∀ name ∈ early.map Prod.fst, name ∈ mid.locals.keys :=
    fun name made => (freshEarly name made).2
  refine ⟨second.parameters.trans first.parameters, first.keys.trans second.keys, ?_,
    late ++ early, ?_, ?_, ?_, ?_⟩
  · intro name present free
    rw [second.kept name (first.keys.subset present) free, first.kept name present free]
  · rw [issuedLate, issuedEarly, List.append_assoc]
  · rw [List.map_append]
    refine List.Nodup.append distinctLate distinctEarly ?_
    intro name madeLate madeEarly
    have taken : mid.isTaken name = true :=
      Scope.isTaken_iff.mpr (List.mem_append_left _ (presentEarly name madeEarly))
    simp [(freshLate name madeLate).1] at taken
  · intro name made
    rw [List.map_append, List.mem_append] at made
    rcases made with madeLate | madeEarly
    · exact ⟨first.isTaken_mono (freshLate name madeLate).1, (freshLate name madeLate).2⟩
    · exact ⟨(freshEarly name madeEarly).1, second.keys.subset (presentEarly name madeEarly)⟩
  · intro entry made free
    rcases List.mem_append.mp made with madeLate | madeEarly
    · exact typedLate entry madeLate free
    · have present := presentEarly entry.1 (List.mem_map_of_mem madeEarly)
      rw [second.kept entry.1 present free]
      exact typedEarly entry madeEarly free

theorem insert (var : Local) (new : name ∈ scope.locals.keys → bound name) :
    Grows bound scope { scope with locals := scope.locals.insert name var } := by
  refine ⟨rfl, OrderedMap.keys_prefix_insert _ _ _, ?_, [], by simp⟩
  intro other present free
  refine OrderedMap.get?_insert_of_ne _ _ ?_
  rintro rfl
  exact free (new present)

theorem declare (dataType : String) (pos : Position) :
    Grows bound scope (scope.declare name dataType pos) := by
  unfold Scope.declare
  split
  · exact refl scope
  · rename_i absent
    refine insert _ fun present => ?_
    exact absurd (OrderedMap.contains_eq_true_iff.mpr present) absent

theorem insertAll {entries : List (String × Local)} (all : ∀ entry ∈ entries, bound entry.1) :
    Grows bound scope { scope with locals := scope.locals.insertAll entries } := by
  induction entries generalizing scope with
  | nil => exact refl scope
  | cons entry rest ih =>
      rw [List.forall_mem_cons] at all
      exact (insert entry.2 fun _ => all.1).trans (ih all.2)

theorem temporary {dataType : String} {pos : Position}
    (fresh : scope.temporary? dataType pos = some (name, after)) : Grows bound scope after := by
  obtain ⟨mark, -, made⟩ := Option.map_eq_some_iff.mp fresh
  cases made
  have free := scope.isTaken_freshName mark
  have absent : scope.freshName mark ∉ scope.locals.keys := fun present => by
    simp [Scope.isTaken_iff.mpr (List.mem_append_left _ present)] at free
  have grows : Grows bound scope _ :=
    insert { dataType, pos } fun present => absurd present absent
  refine ⟨rfl, grows.keys, grows.kept, [(scope.freshName mark, dataType)], rfl, ?_, ?_, ?_⟩
  · simp
  · simp [free, Scope.register, OrderedMap.mem_keys_insert]
  · simp [Scope.register, OrderedMap.get?_insert_self]

end Grows

/-- A way to compare scopes in which making a temporary is a step. -/
structure IsGrowth (R : Scope → Scope → Prop) : Prop where
  refl : ∀ scope, R scope scope
  trans : ∀ {first second third}, R first second → R second third → R first third
  temporary : ∀ {scope next dataType pos name},
    scope.temporary? dataType pos = some (name, next) → R scope next

theorem Grows.isGrowth (bound : String → Prop) : IsGrowth (Grows bound) :=
  ⟨.refl, .trans, .temporary⟩

mutual

/-- The names whose type a block may set: the variables it declares and the keys of its loops, at
any depth but not in closures, which have a scope of their own. -/
def blockBinds : List Statement → List String
  | [] => []
  | ⟨kind, _, _⟩ :: rest => kindBinds kind ++ blockBinds rest

def kindBinds : StatementKind → List String
  | .declare _ declared => declared.map (·.name)
  | .branch _ body elseIfs otherwise =>
    blockBinds body ++ elseIfBinds elseIfs ++ otherwiseBinds otherwise
  | .whileLoop _ _ body => blockBinds body
  | .loop body => blockBinds body
  | .forLoop head _ body => head.key.toList ++ blockBinds body
  | .switch _ clauses => clauseBinds clauses
  | .tryCatch body catches => blockBinds body ++ catchBinds catches
  | _ => []

def elseIfBinds : List ElseIf → List String
  | [] => []
  | ⟨_, body, _⟩ :: rest => blockBinds body ++ elseIfBinds rest

def otherwiseBinds : Option (List Statement) → List String
  | none => []
  | some body => blockBinds body

def clauseBinds : List SwitchClause → List String
  | [] => []
  | ⟨_, body⟩ :: rest => blockBinds body ++ clauseBinds rest

def catchBinds : List Catch → List String
  | [] => []
  | ⟨_, _, body, _⟩ :: rest => blockBinds body ++ catchBinds rest

end

section Steps

variable {R : Scope → Scope → Prop} {scope : Scope} {pos : Position}

theorem loopNames_growth (growth : IsGrowth R) {head : ForHead}
    (declares : ∀ scope, ∀ name ∈ head.key.toList ++ head.value.toList,
      R scope (scope.declare name "variable" pos)) :
    (loopNames head pos).Ensures scope fun _ names next =>
      R scope next ∧ ∀ key ∈ names.1, key ∈ head.key := by
  have kept : ∀ key ∈ head.key.filter (· != "_"), key ∈ head.key := by
    intro key named
    exact (Option.mem_filter_iff.mp named).1
  have declaresKey : ∀ key ∈ head.key.filter (· != "_"), ∀ scope,
      R scope (scope.declare key "variable" pos) := fun key named scope =>
    declares scope key (by simpa using .inl (kept key named))
  have declaresValue : ∀ value ∈ head.value.filter (· != "_"), ∀ scope,
      R scope (scope.declare value "variable" pos) := fun value named scope =>
    declares scope value (by simpa using .inr (Option.mem_filter_iff.mp named).1)
  unfold loopNames
  dsimp only
  split
  case' h_1 key given =>
    refine ensures_modifyScope.bind ?_
    rintro _ _ _ ⟨rfl, rfl⟩
    have first : R scope (scope.declare key "variable" pos) := declaresKey key given _
  case' h_2 given =>
    have first : R scope scope := growth.refl scope
  all_goals
    split
    · rename_i value given
      refine ensures_modifyScope.andReturn ?_
      rintro _ _ _ ⟨-, rfl⟩
      exact ⟨growth.trans first (declaresValue value given _), kept⟩
    · refine ensures_temporary.andReturn ?_
      rintro _ _ _ ⟨-, fresh⟩
      exact ⟨growth.trans first (growth.temporary fresh), kept⟩

theorem stringLoop_growth (growth : IsGrowth R) {key : Option String} {value : String}
    {iterated : Expr}
    (counts : ∀ name ∈ key, R scope (scope.register name "int" pos)) :
    (stringLoop key value iterated pos).Ensures scope fun _ _ next => R scope next := by
  have counted (index : String) {mid : Scope} (indexed : R scope mid) : (do
      let source ← temporary "string" iterated.pos
      hoist [.assignTo source iterated iterated.pos]
      let stored := (Expr.var source iterated.pos).withType "string"
      let size ← temporary "int" iterated.pos
      hoist [.assignTo size
        ((Expr.callOf "strlen" [stored] iterated.pos).withType "int") iterated.pos]
      let charAt := Expr.plain (.access .element stored ((Expr.var index pos).withType "int")) pos
      pure {
        head := { key := some index, value := some value, reverse := false, counted := true,
                  length := some size }
        iterated := stored
        opening := [.assignTo value charAt pos] } : Lowering LoopStart).Ensures mid
          fun _ _ next => R scope next := by
    refine ensures_temporary.bind ?_
    rintro _ source _ ⟨-, freshSource⟩
    refine ensures_hoist.bind ?_
    rintro _ _ _ ⟨-, rfl⟩
    refine ensures_temporary.bind ?_
    rintro _ size _ ⟨-, freshSize⟩
    refine ensures_hoist.andReturn ?_
    rintro _ _ _ ⟨-, rfl⟩
    exact growth.trans (growth.trans indexed (growth.temporary freshSource))
      (growth.temporary freshSize)
  unfold stringLoop
  cases key with
  | none =>
      refine ensures_temporary.bind ?_
      rintro _ index _ ⟨-, fresh⟩
      exact counted index (growth.temporary fresh)
  | some index =>
      refine Ensures.bind ensures_modifyScope ?_
      rintro _ _ _ ⟨-, rfl⟩
      exact counted index (counts index rfl)

theorem loopStart_growth (growth : IsGrowth R) {head : ForHead} {key : Option String}
    {value : String} {iterated : Expr}
    (counts : ∀ name ∈ key, R scope (scope.register name "int" pos)) :
    (loopStart head key value iterated pos).Ensures scope fun _ _ next => R scope next := by
  unfold loopStart
  split
  · exact stringLoop_growth growth counts
  · exact ensures_pure (growth.refl scope)

theorem catchBinding_growth (growth : IsGrowth R) {binding : Option Expr}
    (declares : ∀ name ∈ (binding.bind Expr.asVar?).toList, ∀ pos,
      R scope (scope.declare name "variable" pos)) :
    (catchBinding binding pos).Ensures scope fun _ _ next => R scope next := by
  cases binding with
  | none =>
      refine ensures_temporary.andReturn ?_
      rintro _ _ _ ⟨-, fresh⟩
      exact growth.temporary fresh
  | some binding =>
      unfold catchBinding
      dsimp only
      split
      · rename_i name given
        refine ensures_modifyScope.andReturn ?_
        rintro _ _ _ ⟨-, rfl⟩
        exact declares name (by simp [given]) _
      · exact ensures_pure (growth.refl scope)

theorem resolveTarget_growth (growth : IsGrowth R) {assign : Assign} :
    (resolveTarget assign pos).Ensures scope fun _ _ next => R scope next := by
  refine resolveTarget_ensures.mono ?_
  rintro _ _ next (⟨-, rfl, -⟩ | ⟨_, _, -, fresh, -⟩)
  · exact growth.refl _
  · exact growth.temporary fresh

end Steps

section Expressions

variable {R : Scope → Scope → Prop}

mutual

/-- An expression makes temporaries and binds nothing: what it declares is in closures, and stays
there. -/
theorem LowersExpr.growth {e e' : Expr} {scope next : Scope} {before : List Statement}
    (growth : IsGrowth R) : LowersExpr e scope before e' next → R scope next
  | .null | .literal _ | .istring | .emptyArray | .var | .staticAccess _ | .newArray
  | .newString | .closure _ | .closureArrow _ _ => growth.refl scope
  | .array lowered => lowered.growth growth
  | .property lowered | .likely _ lowered | .empty lowered | .ungroup lowered _
  | .group lowered _ | .unary _ _ lowered | .instanceOf lowered | .cast lowered _
  | .castHint lowered _ | .typeHint lowered _ | .strayHint lowered _ | .fetch _ lowered
  | .notFetch _ lowered => lowered.growth growth
  | .call lowered | .staticCall lowered | .new lowered => lowered.growth growth
  | .access _ first second | .binary first second | .range first second =>
      growth.trans (first.growth growth) (second.growth growth)
  | .stringProperty first second fresh =>
      growth.trans (growth.trans (first.growth growth) (second.growth growth))
        (growth.temporary fresh)
  | .methodCall receiver arguments _ | .pseudoCall receiver arguments _ _ =>
      growth.trans (receiver.growth growth) (arguments.growth growth)
  | .ternary condition yes no =>
      growth.trans (growth.trans (condition.growth growth) (yes.growth growth)) (no.growth growth)

theorem LowersExprs.growth {es es' : List Expr} {scope next : Scope} {before : List Statement}
    (growth : IsGrowth R) : LowersExprs es scope before es' next → R scope next
  | .nil => growth.refl scope
  | .cons first rest => growth.trans (first.growth growth) (rest.growth growth)

theorem LowersOption.growth {e e' : Option Expr} {scope next : Scope} {before : List Statement}
    (growth : IsGrowth R) : LowersOption e scope before e' next → R scope next
  | .none => growth.refl scope
  | .some lowered => lowered.growth growth

theorem LowersEntries.growth {entries entries' : List ArrayEntry} {scope next : Scope}
    {before : List Statement} (growth : IsGrowth R) :
    LowersEntries entries scope before entries' next → R scope next
  | .nil => growth.refl scope
  | .cons key value rest =>
      growth.trans (growth.trans (key.growth growth) (value.growth growth)) (rest.growth growth)

end

theorem LowersAssign.growth {assign assign' : Assign} {scope next : Scope}
    {before : List Statement} (growth : IsGrowth R)
    (lowered : LowersAssign assign scope before assign' next) : R scope next := by
  obtain ⟨value, index⟩ := lowered
  exact growth.trans (value.growth growth) (index.growth growth)

theorem LowersLets.growth {assignments : List LetAssignment} {scope next : Scope}
    {before : List Statement} (growth : IsGrowth R)
    (lowered : LowersLets assignments scope before next) : R scope next := by
  induction assignments generalizing scope before with
  | nil =>
      cases lowered
      exact growth.refl _
  | cons assignment others ih =>
      cases lowered with
      | cons resolved value index rest =>
          have named := (resolveTarget_growth growth _ _ resolved).2
          exact growth.trans (growth.trans (growth.trans named (value.growth growth))
            (index.growth growth)) (ih rest)

theorem LowersInitial.growth {declared : List DeclaredVariable} {scope next : Scope}
    {before : List Statement} (growth : IsGrowth R)
    (lowered : LowersInitial declared scope before next) : R scope next := by
  induction declared generalizing scope before with
  | nil =>
      cases lowered
      exact growth.refl _
  | cons first others ih =>
      cases lowered with
      | unset rest => exact ih rest
      | set value rest => exact growth.trans (value.growth growth) (ih rest)

end Expressions

variable {bound : String → Prop}

theorem LowersExpr.grows {e e' : Expr} {scope next : Scope} {before : List Statement}
    (lowered : LowersExpr e scope before e' next) : Grows bound scope next :=
  lowered.growth (Grows.isGrowth bound)

theorem LowersExpr.scope_eq_of_closure {parameters : List Parameter} {body : List Statement}
    {locals : Locals} {pos : Position} {dataType : Option String} {doCast : Bool} {e' : Expr}
    {scope next : Scope} {before : List Statement} :
    LowersExpr ⟨.closure parameters body locals, pos, dataType, doCast⟩ scope before e' next →
      next = scope
  | .closure _ => rfl

theorem LowersExpr.scope_eq_of_closureArrow {parameter body : Expr} {pos : Position}
    {dataType : Option String} {doCast : Bool} {e' : Expr} {scope next : Scope}
    {before : List Statement} :
    LowersExpr ⟨.closureArrow parameter body, pos, dataType, doCast⟩ scope before e' next →
      next = scope
  | .closureArrow _ _ => rfl

mutual

theorem LowersBlock.grows {body body' : List Statement} {scope next : Scope}
    (binds : ∀ name ∈ blockBinds body, bound name) :
    LowersBlock body scope body' next → Grows bound scope next
  | .nil => .refl scope
  | .cons (.mk lowered) rest => by
      rw [blockBinds, List.forall_mem_append] at binds
      exact (lowered.grows binds.1).trans (rest.grows binds.2)

theorem LowersKind.grows {pos : Position} {kind : StatementKind} {kind' : Option StatementKind}
    {scope next : Scope} {before : List Statement} (binds : ∀ name ∈ kindBinds kind, bound name) :
    LowersKind pos kind scope before kind' next → Grows bound scope next
  | .lets lowered => lowered.growth (Grows.isGrowth bound)
  | .declare lowered => by
      refine (Grows.insertAll ?_).trans (lowered.growth (Grows.isGrowth bound))
      simpa [declaredLocals, kindBinds] using binds
  | .fetch _ lowered => lowered.grows
  | .assign lowered => lowered.growth (Grows.isGrowth bound)
  | .echo lowered => lowered.growth (Grows.isGrowth bound)
  | .effect lowered _ => lowered.grows
  | .effectCall lowered _ => lowered.grows
  | .ret lowered => lowered.growth (Grows.isGrowth bound)
  | .jump => .refl scope
  | .empty => .refl scope
  | .branch condition body elseIfs otherwise => by
      simp only [kindBinds, List.forall_mem_append] at binds
      exact ((condition.grows.trans (body.grows binds.1.1)).trans (elseIfs.grows binds.1.2)).trans
        (otherwise.grows binds.2)
  | .whileLoop condition body => condition.grows.trans (body.grows binds)
  | .loop body => body.grows binds
  | .forLoop names iterated starts body => by
      simp only [kindBinds, List.forall_mem_append, Option.mem_toList] at binds
      obtain ⟨-, named, keys⟩ := loopNames_growth (Grows.isGrowth bound) (fun _ _ _ =>
        .declare _ _) _ _ names
      have started := (loopStart_growth (Grows.isGrowth bound) (fun key given =>
        .insert _ fun _ => binds.1 key (keys key given)) _ _ starts).2
      exact ((named.trans iterated.grows).trans started).trans (body.grows binds.2)
  | .switch subject clauses => subject.grows.trans (clauses.grows binds)
  | .tryAlone body fresh => by
      simp only [kindBinds, List.forall_mem_append] at binds
      exact (body.grows binds.1).trans (.temporary fresh)
  | .tryCatch body catches => by
      simp only [kindBinds, List.forall_mem_append] at binds
      exact (body.grows binds.1).trans (catches.grows binds.2)
  | .comment => .refl scope
  | .cblock => .refl scope

theorem LowersElseIfs.grows {elseIfs elseIfs' : List ElseIf} {scope next : Scope}
    {before : List Statement} (binds : ∀ name ∈ elseIfBinds elseIfs, bound name) :
    LowersElseIfs elseIfs scope before elseIfs' next → Grows bound scope next
  | .nil => .refl scope
  | .cons condition body rest => by
      rw [elseIfBinds, List.forall_mem_append] at binds
      exact (condition.grows.trans (body.grows binds.1)).trans (rest.grows binds.2)

theorem LowersOtherwise.grows {otherwise otherwise' : Option (List Statement)}
    {scope next : Scope} (binds : ∀ name ∈ otherwiseBinds otherwise, bound name) :
    LowersOtherwise otherwise scope otherwise' next → Grows bound scope next
  | .none => .refl scope
  | .some body => body.grows binds

theorem LowersClauses.grows {clauses clauses' : List SwitchClause} {scope next : Scope}
    {before : List Statement} (binds : ∀ name ∈ clauseBinds clauses, bound name) :
    LowersClauses clauses scope before clauses' next → Grows bound scope next
  | .nil => .refl scope
  | .cons test body rest => by
      rw [clauseBinds, List.forall_mem_append] at binds
      exact ((test.growth (Grows.isGrowth bound)).trans (body.grows binds.1)).trans (rest.grows binds.2)

theorem LowersCatches.grows {catches catches' : List Catch} {scope next : Scope}
    (binds : ∀ name ∈ catchBinds catches, bound name) :
    LowersCatches catches scope catches' next → Grows bound scope next
  | .nil => .refl scope
  | .cons body binding rest => by
      rw [catchBinds, List.forall_mem_append] at binds
      have bindingGrows :=
        (catchBinding_growth (Grows.isGrowth bound) (fun _ _ _ => .declare _ _) _ _ binding).2
      exact ((body.grows binds.1).trans bindingGrows).trans (rest.grows binds.2)

end

/-- The temporaries of a body that started with the locals and parameters: different from each
other and from all of these, and still of the type that was asked for, unless the body sets it. -/
structure KeepsApart (locals : Locals) (parameters : List Parameter) (binds : List String)
    (after : Scope) : Prop where
  distinct : (after.issued.map Prod.fst).Nodup
  fresh : ∀ name ∈ after.issued.map Prod.fst,
    name ∉ locals.keys ∧ name ∉ parameters.map (·.name)
  typed : ∀ entry ∈ after.issued, entry.1 ∉ binds →
    (after.locals.get? entry.1).map (·.dataType) = some entry.2

theorem Grows.keepsApart {locals : Locals} {parameters : List Parameter} {binds : List String}
    {after : Scope} (grows : Grows (· ∈ binds) { locals, parameters } after) :
    KeepsApart locals parameters binds after := by
  obtain ⟨made, issued, distinct, fresh, typed⟩ := grows.made
  rw [List.append_nil] at issued
  subst issued
  refine ⟨distinct, ?_, typed⟩
  intro name temporary
  have free := (fresh name temporary).1
  rw [← Bool.not_eq_true, Scope.isTaken_iff, List.mem_append, not_or] at free
  exact free

theorem Grows.issued_suffix {before after : Scope} (grows : Grows bound before after) :
    before.issued <:+ after.issued := by
  obtain ⟨made, issued, -⟩ := grows.made
  exact issued ▸ List.suffix_append _ _

theorem lowerBlock_grows {body : List Statement} {scope next : Scope}
    {lowered : Splice (List Statement)} (ran : lowerBlock body scope = .ok (lowered, next)) :
    Grows (· ∈ blockBinds body) scope next := by
  obtain ⟨-, -, derived⟩ := lowerBlock_derives scope body lowered next ran
  exact derived.grows fun _ binds => binds

theorem lowerExpr_grows {e : Expr} {scope next : Scope} {lowered : Splice Expr}
    (ran : lowerExpr e scope = .ok (lowered, next)) : Grows bound scope next :=
  (lowerExpr_derives scope e lowered next ran).2.grows

/-- Every temporary is recorded, and new where it is made. The temporaries of a body never collide,
no local is ever lost, and a closure leaves the scope around it alone. -/
theorem temporaries_never_collide :
    (∀ (scope next : Scope) (dataType name : String) (pos : Position),
      scope.temporary? dataType pos = some (name, next) →
        next.issued = (name, dataType) :: scope.issued ∧ scope.isTaken name = false) ∧
    (∀ (locals : Locals) (parameters : List Parameter) (body : List Statement)
      (lowered : Splice (List Statement)) (after : Scope),
      lowerBlock body { locals, parameters } = .ok (lowered, after) →
        KeepsApart locals parameters (blockBinds body) after) ∧
    (∀ (locals : Locals) (parameters : List Parameter) (body : Expr) (lowered : Splice Expr)
      (after : Scope), lowerExpr body { locals, parameters } = .ok (lowered, after) →
        KeepsApart locals parameters [] after) ∧
    (∀ (body : List Statement) (lowered : Splice (List Statement)) (before after : Scope),
      lowerBlock body before = .ok (lowered, after) →
        before.locals.keys <+: after.locals.keys ∧ before.issued <:+ after.issued) ∧
    (∀ (e : Expr) (lowered : Splice Expr) (before after : Scope),
      lowerExpr e before = .ok (lowered, after) →
        before.locals.keys <+: after.locals.keys ∧ before.issued <:+ after.issued) ∧
    (∀ (e : Expr) (lowered : Splice Expr) (before after : Scope),
      (∃ parameters body locals, e.kind = .closure parameters body locals) ∨
        (∃ parameter body, e.kind = .closureArrow parameter body) →
      lowerExpr e before = .ok (lowered, after) → after = before) := by
  refine ⟨?_, ?_, ?_, ?_, ?_, ?_⟩
  · intro scope next dataType name pos fresh
    obtain ⟨mark, -, made⟩ := Option.map_eq_some_iff.mp fresh
    cases made
    exact ⟨rfl, scope.isTaken_freshName mark⟩
  · intro locals parameters body lowered after ran
    exact (lowerBlock_grows ran).keepsApart
  · intro locals parameters body lowered after ran
    exact (lowerExpr_grows ran).keepsApart
  · intro body lowered before after ran
    exact ⟨(lowerBlock_grows ran).keys, (lowerBlock_grows ran).issued_suffix⟩
  · intro e lowered before after ran
    have grows : Grows (fun _ => False) before after := lowerExpr_grows ran
    exact ⟨grows.keys, grows.issued_suffix⟩
  · rintro ⟨kind, pos, dataType, doCast⟩ lowered before after
      (⟨parameters, body, locals, rfl⟩ | ⟨parameter, body, rfl⟩) ran
    · exact (lowerExpr_derives before _ lowered after ran).2.scope_eq_of_closure
    · exact (lowerExpr_derives before _ lowered after ran).2.scope_eq_of_closureArrow

def temporarySample : List Statement :=
  let pos : Position := { file := "sample.zep", line := 7, column := 5 }
  [ { kind := .forLoop ⟨none, some "char", false, false, none⟩ (.var "name" pos) [], pos },
    { kind := .tryCatch [] [], pos },
    { kind := .declare "string" [⟨"__t_v_1", none, pos⟩], pos } ]

theorem temporarySample_apart : ∃ lowered after,
    lowerBlock temporarySample
      { locals := .ofList [("name", ⟨"string", {}⟩), ("__t_s_1", ⟨"int", {}⟩)]
        parameters := [{ name := "__t_i_1", dataType := "int", pos := {} }] } =
        .ok (lowered, after) ∧
      after.issued.map Prod.fst = ["__t_v_1", "__t_i_3", "__t_s_2", "__t_i_2"] ∧
      KeepsApart (.ofList [("name", ⟨"string", {}⟩), ("__t_s_1", ⟨"int", {}⟩)])
        [{ name := "__t_i_1", dataType := "int", pos := {} }] (blockBinds temporarySample)
        after := by
  refine ⟨_, _, rfl, rfl, ?_⟩
  exact temporaries_never_collide.2.1 _ _ _ _ _ rfl

end Zephir
