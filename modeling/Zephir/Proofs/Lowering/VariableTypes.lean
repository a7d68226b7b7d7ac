import Zephir.Proofs.Lowering.StringLoops
import Zephir.Proofs.Meaning.Early

/-!
Types in the scope of a body. The type that an expression has once it is lowered can be read off the
source and the scope. The types of variables change on the way only where the body declares them,
counts with them or takes them for a loop or a handler, so a string that the body leaves alone is a
string at every loop over it.
-/

namespace Zephir

open Lowering

/-! ### Expressions -/

@[simp] def Expr.becomesPrimary : Expr → Bool
  | ⟨.literal .istring _, _, _, _⟩ => true
  | ⟨.newType _ _, _, _, _⟩ => true
  | ⟨.range _ _ _, _, _, _⟩ => true
  | ⟨.unary .empty _, _, _, _⟩ => true
  | ⟨.unary .group _, _, _, _⟩ => true
  | ⟨.unary .likely operand, _, _, _⟩ => becomesPrimary operand
  | ⟨.unary .unlikely operand, _, _, _⟩ => becomesPrimary operand
  | ⟨.cast typeName operand, _, _, _⟩ => !castTypes.contains typeName && becomesPrimary operand
  | ⟨.typeHint _ operand, _, _, _⟩ => becomesPrimary operand
  | ⟨kind, _, _, _⟩ => kind.isPrimary

/-- The type that an expression has once it is lowered in the scope. -/
@[simp] def Scope.loweredType (scope : Scope) : Expr → Option String
  | ⟨.var name, _, dataType, _⟩ => scope.typeOf? name <|> dataType
  | ⟨.newType typeName _, _, _, _⟩ => some typeName
  | ⟨.range _ _ _, _, _, _⟩ => some "array"
  | ⟨.unary .empty _, _, _, _⟩ => some "bool"
  | ⟨.unary .likely operand, _, _, _⟩ => loweredType scope operand
  | ⟨.unary .unlikely operand, _, _, _⟩ => loweredType scope operand
  | ⟨.unary .group operand, _, dataType, _⟩ =>
    if operand.becomesPrimary then loweredType scope operand else dataType
  | ⟨.cast typeName _, _, _, _⟩ => some typeName
  | ⟨.typeHint hint operand, _, _, _⟩ => hint.name? <|> loweredType scope operand
  | ⟨.methodCall receiver _ _ _, _, dataType, _⟩ =>
    if (scope.owner receiver).isSome then none else dataType
  | ⟨_, _, dataType, _⟩ => dataType

theorem LowersExpr.isPrimary_eq {e e' : Expr} {scope next : Scope} {before : List Statement} :
    LowersExpr e scope before e' next → e'.kind.isPrimary = e.becomesPrimary
  | .null | .istring | .emptyArray | .array _ | .var | .property _ | .stringProperty _ _ _
  | .call _ | .methodCall _ _ _ | .staticCall _ | .new _ | .newArray | .newString | .empty _
  | .binary _ _ | .instanceOf _ | .range _ _ | .ternary _ _ _ | .fetch _ _ | .notFetch _ _
  | .closure _ | .closureArrow _ _ => rfl
  | @LowersExpr.literal kind _ _ _ _ _ plain => by cases kind <;> simp_all [ExprKind.isPrimary]
  | .staticAccess static => by rcases static with rfl | rfl <;> rfl
  | .access computed _ _ => by rcases computed with rfl | rfl <;> rfl
  | .pseudoCall _ _ _ translated => by
      obtain ⟨entry, -, rfl⟩ := pseudoCall_ok translated
      rfl
  | .likely hint lowered => by
      rcases hint with rfl | rfl <;> exact lowered.isPrimary_eq
  | .ungroup _ primary => primary
  | .group _ _ => rfl
  | @LowersExpr.unary op _ _ _ _ _ _ _ _ plain _ _ => by
      cases op <;> simp_all [ExprKind.isPrimary]
  | .cast _ castable => by simp_all [ExprKind.isPrimary]
  | .castHint lowered other => by
      rw [Expr.becomesPrimary, other]
      exact lowered.isPrimary_eq
  | .typeHint lowered _ => lowered.isPrimary_eq
  | .strayHint lowered _ => lowered.isPrimary_eq
termination_by sizeOf e

theorem LowersExpr.dataType_eq {e e' : Expr} {scope next : Scope} {before : List Statement} :
    LowersExpr e scope before e' next → e'.dataType = scope.loweredType e
  | .null | .literal _ | .istring | .emptyArray | .array _ | .var | .staticAccess _ | .property _
  | .access _ _ _ | .stringProperty _ _ _ | .call _ | .staticCall _ | .new _ | .newArray
  | .newString | .empty _ | .binary _ _ | .instanceOf _ | .range _ _ | .ternary _ _ _ | .cast _ _
  | .castHint _ _ | .fetch _ _ | .notFetch _ _ | .closure _ | .closureArrow _ _ => rfl
  | .methodCall receiver _ object => by
      simp [← receiver.primitiveOwner_eq, object]
  | .pseudoCall receiver _ primitive translated => by
      obtain ⟨entry, -, rfl⟩ := pseudoCall_ok translated
      simp [← receiver.primitiveOwner_eq, primitive, Expr.callOf, Expr.plain]
  | .likely hint lowered => by
      rcases hint with rfl | rfl <;> exact lowered.dataType_eq
  | .ungroup lowered primary => by
      rw [lowered.isPrimary_eq] at primary
      simp [primary, lowered.dataType_eq]
  | .group lowered compound => by
      rw [lowered.isPrimary_eq] at compound
      simp [compound]
  | @LowersExpr.unary op _ _ _ _ _ _ _ _ plain _ _ => by
      cases op <;> simp_all
  | .typeHint lowered named => by simp [named, Expr.withType]
  | .strayHint lowered unnamed => by simp [unnamed, lowered.dataType_eq]
termination_by sizeOf e

/-! ### Variables -/

/-- A type that a body may give to a name: always, or only if the name is not a local yet. -/
structure Typing where
  name : String
  dataType : String
  always : Bool

/-- The key of a loop is a local of no certain type, and a number if the loop counts. -/
def ForHead.typings (head : ForHead) : List Typing :=
  head.key.toList.flatMap (fun key => [⟨key, "variable", false⟩, ⟨key, "int", true⟩]) ++
    head.value.toList.map (⟨·, "variable", false⟩)

mutual

def blockTypings : List Statement → List Typing
  | [] => []
  | ⟨kind, _, _⟩ :: rest => kindTypings kind ++ blockTypings rest

def kindTypings : StatementKind → List Typing
  | .declare dataType declared => declared.map (⟨·.name, dataType, true⟩)
  | .branch _ body elseIfs otherwise =>
    blockTypings body ++ elseIfTypings elseIfs ++ otherwiseTypings otherwise
  | .whileLoop _ _ body => blockTypings body
  | .loop body => blockTypings body
  | .forLoop head _ body => head.typings ++ blockTypings body
  | .switch _ clauses => clauseTypings clauses
  | .tryCatch body catches => blockTypings body ++ catchTypings catches
  | _ => []

def elseIfTypings : List ElseIf → List Typing
  | [] => []
  | ⟨_, body, _⟩ :: rest => blockTypings body ++ elseIfTypings rest

def otherwiseTypings : Option (List Statement) → List Typing
  | none => []
  | some body => blockTypings body

def clauseTypings : List SwitchClause → List Typing
  | [] => []
  | ⟨_, body⟩ :: rest => blockTypings body ++ clauseTypings rest

def catchTypings : List Catch → List Typing
  | [] => []
  | ⟨_, binding, body, _⟩ :: rest =>
    blockTypings body ++ (binding.bind Expr.asVar?).toList.map (⟨·, "variable", false⟩) ++
      catchTypings rest

end

/-- What lowering does to the types of names: apart from temporaries, a name keeps its type or gets
one of the given types. -/
structure Retypes (typings : Typing → Prop) (before after : Scope) : Prop where
  keys : before.locals.keys ⊆ after.locals.keys
  typed : ∀ name, ¬ IsTemporaryName name → after.typeOf? name = before.typeOf? name ∨
    ∃ t, typings t ∧ t.name = name ∧ (t.always = true ∨ name ∉ before.locals.keys) ∧
      after.typeOf? name = some t.dataType

namespace Retypes

variable {typings : Typing → Prop} {scope before mid after next : Scope} {name dataType : String}
  {pos : Position}

theorem refl (scope : Scope) : Retypes typings scope scope :=
  ⟨List.Subset.refl _, fun _ _ => .inl rfl⟩

theorem trans (first : Retypes typings before mid) (second : Retypes typings mid after) :
    Retypes typings before after := by
  refine ⟨List.Subset.trans first.keys second.keys, fun name plain => ?_⟩
  rcases second.typed name plain with same | ⟨t, typing, named, gives, typed⟩
  · rw [same]
    exact first.typed name plain
  · have absent := gives.imp_right fun absent present => absent (first.keys present)
    exact .inr ⟨t, typing, named, absent, typed⟩

theorem insert (var : Local) (given : ¬ IsTemporaryName name → ∃ t, typings t ∧ t.name = name ∧
      t.dataType = var.dataType ∧ (t.always = true ∨ name ∉ scope.locals.keys)) :
    Retypes typings scope { scope with locals := scope.locals.insert name var } := by
  refine ⟨(OrderedMap.keys_prefix_insert _ _ _).subset, fun other plain => ?_⟩
  by_cases same : other = name
  · subst same
    obtain ⟨t, typing, named, typed, gives⟩ := given plain
    refine .inr ⟨t, typing, named, gives, ?_⟩
    simp [Scope.typeOf?, OrderedMap.get?_insert_self, typed]
  · left
    simp [Scope.typeOf?, OrderedMap.get?_insert_of_ne _ _ same]

theorem insertAll {entries : List (String × Local)}
    (all : ∀ entry ∈ entries, typings ⟨entry.1, entry.2.dataType, true⟩) :
    Retypes typings scope { scope with locals := scope.locals.insertAll entries } := by
  induction entries generalizing scope with
  | nil => exact refl scope
  | cons entry rest ih =>
      rw [List.forall_mem_cons] at all
      exact (insert entry.2 fun _ => ⟨_, all.1, rfl, rfl, .inl rfl⟩).trans (ih all.2)

theorem declare (given : typings ⟨name, "variable", false⟩) (pos : Position) :
    Retypes typings scope (scope.declare name "variable" pos) := by
  unfold Scope.declare
  split
  · exact refl scope
  · rename_i absent
    exact insert _ fun _ => ⟨_, given, rfl, rfl, .inr fun present =>
      absent (OrderedMap.contains_eq_true_iff.mpr present)⟩

theorem temporary (fresh : scope.temporary? dataType pos = some (name, next)) :
    Retypes typings scope next := by
  have form := (IsNew.temporary fresh).form
  obtain ⟨mark, -, made⟩ := Option.map_eq_some_iff.mp fresh
  cases made
  have inserted : Retypes typings scope _ :=
    insert { dataType, pos } fun plain => absurd form plain
  exact ⟨inserted.keys, inserted.typed⟩

theorem isGrowth (typings : Typing → Prop) : IsGrowth (Retypes typings) :=
  ⟨refl, trans, temporary⟩

end Retypes

section Bodies

variable {typings : Typing → Prop} {scope : Scope} {pos : Position}

theorem loopNames_retypes {head : ForHead} (given : ∀ t ∈ head.typings, typings t) :
    (loopNames head pos).Ensures scope fun _ names next =>
      Retypes typings scope next ∧ ∀ key ∈ names.1, key ∈ head.key := by
  refine loopNames_growth (Retypes.isGrowth typings) fun scope name named => .declare ?_ pos
  refine given _ ?_
  rw [List.mem_append, Option.mem_toList, Option.mem_toList] at named
  rcases named with isKey | isValue
  · simp [ForHead.typings, Option.mem_def.mp isKey]
  · simp [ForHead.typings, Option.mem_def.mp isValue]

theorem loopStart_retypes {head : ForHead} {key : Option String} {value : String}
    {iterated : Expr} (given : ∀ t ∈ head.typings, typings t) (keys : ∀ name ∈ key, name ∈ head.key) :
    (loopStart head key value iterated pos).Ensures scope fun _ _ next =>
      Retypes typings scope next := by
  refine loopStart_growth (Retypes.isGrowth typings) fun name named => ?_
  have isKey := Option.mem_def.mp (keys name named)
  have counted : typings ⟨name, "int", true⟩ := given _ (by simp [ForHead.typings, isKey])
  exact .insert _ fun _ => ⟨_, counted, rfl, rfl, .inl rfl⟩

/-- What a part of a body makes of the types of names, up to its end and up to the source of each
loop in it. -/
structure RetypesLoops (typings : Typing → Prop) (scope next : Scope) (sites : List ForSite) :
    Prop where
  next : Retypes typings scope next
  loops : ∀ site ∈ sites, Retypes typings scope site.named

namespace RetypesLoops

variable {mid next : Scope} {sites more : List ForSite}

theorem none (retypes : Retypes typings scope next) : RetypesLoops typings scope next [] :=
  ⟨retypes, List.forall_mem_nil _⟩

theorem append (first : RetypesLoops typings scope mid sites)
    (second : RetypesLoops typings mid next more) :
    RetypesLoops typings scope next (sites ++ more) :=
  ⟨first.next.trans second.next, List.forall_mem_append.mpr
    ⟨first.loops, fun site among => first.next.trans (second.loops site among)⟩⟩

theorem loop {site : ForSite} (named : Retypes typings scope site.named)
    (opened : Retypes typings scope mid) (body : RetypesLoops typings mid next sites) :
    RetypesLoops typings scope next (site :: sites) :=
  ⟨opened.trans body.next, List.forall_mem_cons.mpr
    ⟨named, fun other among => opened.trans (body.loops other among)⟩⟩

theorem times (retypes : RetypesLoops typings scope next sites) (count : Nat) :
    RetypesLoops typings scope next (sites.map (·.times count)) :=
  ⟨retypes.next, List.forall_mem_map.mpr retypes.loops⟩

end RetypesLoops

-- The induction is on derivations. The walk over the loops takes the scope from the run, which is
-- why each rule is turned into its run before the scopes of the parts can be compared.
mutual

theorem LowersBlock.retypes {body body' : List Statement} {scope next : Scope}
    (given : ∀ t ∈ blockTypings body, typings t) : LowersBlock body scope body' next →
    RetypesLoops typings scope next (blockLoops body scope)
  | .nil => .none (.refl scope)
  | .cons (.mk lowered) rest => by
      rw [blockTypings, List.forall_mem_append] at given
      obtain ⟨_, _, ran, -⟩ := lowerStatement_runs lowered.runs
      rw [blockLoops, ran.scopeAfter]
      exact (lowered.retypes _ given.1).append (rest.retypes given.2)

theorem LowersKind.retypes {pos : Position} {kind : StatementKind} {kind' : Option StatementKind}
    {scope next : Scope} {before : List Statement} (docblocks : List Docblock)
    (given : ∀ t ∈ kindTypings kind, typings t) : LowersKind pos kind scope before kind' next →
    RetypesLoops typings scope next (kindLoops pos docblocks kind scope)
  | .lets lowered => .none (lowered.growth (Retypes.isGrowth typings))
  | .declare lowered => by
      refine .none ((Retypes.insertAll ?_).trans (lowered.growth (Retypes.isGrowth typings)))
      simpa [declaredLocals, kindTypings] using given
  | .fetch _ lowered | .effect lowered _ | .effectCall lowered _ =>
      .none (lowered.growth (Retypes.isGrowth typings))
  | .assign lowered => .none (lowered.growth (Retypes.isGrowth typings))
  | .echo lowered => .none (lowered.growth (Retypes.isGrowth typings))
  | .ret lowered => .none (lowered.growth (Retypes.isGrowth typings))
  | .jump | .empty | .comment | .cblock => .none (.refl scope)
  | .branch condition body elseIfs otherwise => by
      simp only [kindTypings, List.forall_mem_append] at given
      simp only [kindLoops, condition.runs.scopeAfter, body.runs.scopeAfter,
        elseIfs.runs.scopeAfter]
      have opened : RetypesLoops typings scope _ [] :=
        .none (condition.growth (Retypes.isGrowth typings))
      exact ((opened.append (body.retypes given.1.1)).append (elseIfs.retypes given.1.2)).append
        (otherwise.retypes given.2)
  | .whileLoop condition body => by
      rw [kindLoops, condition.runs.scopeAfter]
      have opened : RetypesLoops typings scope _ [] :=
        .none (condition.growth (Retypes.isGrowth typings))
      exact opened.append (body.retypes given)
  | .loop body => body.retypes given
  | .forLoop names iterated starts body => by
      rw [kindTypings, List.forall_mem_append] at given
      obtain ⟨-, named, keys⟩ := loopNames_retypes given.1 _ _ names
      obtain ⟨-, started⟩ := loopStart_retypes given.1 keys _ _ starts
      rw [kindLoops, (loopOpening_runs names iterated.runs starts).scopeAfter]
      have opened := (named.trans (iterated.growth (Retypes.isGrowth typings))).trans started
      refine .loop ?_ opened (body.retypes given.2)
      rw [ForSite.named, names.scopeAfter]
      exact named
  | .switch subject clauses => by
      rw [kindLoops, subject.runs.scopeAfter]
      have opened : RetypesLoops typings scope _ [] :=
        .none (subject.growth (Retypes.isGrowth typings))
      exact opened.append (clauses.retypes given)
  | .tryAlone body fresh => by
      rw [kindTypings, List.forall_mem_append] at given
      rw [kindLoops, catchLoops]
      exact (body.retypes given.1).append (.none (.temporary fresh))
  | .tryCatch body catches => by
      rw [kindTypings, List.forall_mem_append] at given
      rw [kindLoops, body.runs.scopeAfter]
      exact (body.retypes given.1).append (catches.retypes given.2)

theorem LowersElseIfs.retypes {elseIfs elseIfs' : List ElseIf} {scope next : Scope}
    {before : List Statement} (given : ∀ t ∈ elseIfTypings elseIfs, typings t) :
    LowersElseIfs elseIfs scope before elseIfs' next →
      RetypesLoops typings scope next (elseIfLoops elseIfs scope)
  | .nil => .none (.refl scope)
  | .cons condition body rest => by
      rw [elseIfTypings, List.forall_mem_append] at given
      simp only [elseIfLoops, condition.runs.scopeAfter, body.runs.scopeAfter]
      have opened : RetypesLoops typings scope _ [] :=
        .none (condition.growth (Retypes.isGrowth typings))
      exact (opened.append (body.retypes given.1)).append (rest.retypes given.2)

theorem LowersOtherwise.retypes {otherwise otherwise' : Option (List Statement)}
    {scope next : Scope} (given : ∀ t ∈ otherwiseTypings otherwise, typings t) :
    LowersOtherwise otherwise scope otherwise' next →
      RetypesLoops typings scope next (otherwiseLoops otherwise scope)
  | .none => .none (.refl scope)
  | .some body => body.retypes given

theorem LowersClauses.retypes {clauses clauses' : List SwitchClause} {scope next : Scope}
    {before : List Statement} (given : ∀ t ∈ clauseTypings clauses, typings t) :
    LowersClauses clauses scope before clauses' next →
      RetypesLoops typings scope next (clauseLoops clauses scope)
  | .nil => .none (.refl scope)
  | .cons test body rest => by
      rw [clauseTypings, List.forall_mem_append] at given
      simp only [clauseLoops, test.runs.scopeAfter, body.runs.scopeAfter]
      have opened : RetypesLoops typings scope _ [] :=
        .none (test.growth (Retypes.isGrowth typings))
      exact (opened.append (body.retypes given.1)).append (rest.retypes given.2)

theorem LowersCatches.retypes {catches catches' : List Catch} {scope next : Scope}
    (given : ∀ t ∈ catchTypings catches, typings t) :
    LowersCatches catches scope catches' next →
      RetypesLoops typings scope next (catchLoops catches scope)
  | .nil => .none (.refl scope)
  | .cons body binding rest => by
      simp only [catchTypings, List.forall_mem_append] at given
      simp only [catchLoops, body.runs.scopeAfter, binding.scopeAfter]
      have bound := (catchBinding_growth (Retypes.isGrowth typings) (fun name named pos =>
        .declare (given.1.2 _ (List.mem_map_of_mem named)) pos) _ _ binding).2
      have others := (RetypesLoops.none bound).append (rest.retypes given.2)
      exact ((body.retypes given.1.1).times _).append others

end

/-- A variable that is a string where a body starts, and that the body leaves a string: it is
declared as nothing else and counts no loop, and if it is a parameter, no loop or handler takes its
name. -/
def Scope.StaysString (scope : Scope) (body : List Statement) (name : String) : Prop :=
  ¬ IsTemporaryName name ∧ scope.typeOf? name = some "string" ∧
    ∀ t ∈ blockTypings body, t.name = name →
      t.dataType = "string" ∨ (t.always = false ∧ name ∈ scope.locals.keys)

theorem Scope.StaysString.typeOf_eq {body : List Statement} {name : String} {after : Scope}
    (stays : scope.StaysString body name) (retypes : Retypes (· ∈ blockTypings body) scope after) :
    after.typeOf? name = some "string" := by
  obtain ⟨plain, string, typed⟩ := stays
  rcases retypes.typed name plain with same | ⟨t, typing, named, gives, became⟩
  · rw [same, string]
  · rcases typed t typing named with isString | ⟨weak, present⟩
    · rw [became, isString]
    · simp [weak, present] at gives

end Bodies

end Zephir
