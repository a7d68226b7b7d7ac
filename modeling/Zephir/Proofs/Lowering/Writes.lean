import Zephir.Proofs.Lowering.Temporaries
import Zephir.Proofs.Meaning.Early

/-!
Which variables a body gives values to. Lowering adds no writer of a variable of the source: what it
writes on its own account goes to temporaries that are new where it does so.

A variable whose name is only known when the program runs is left out on both sides.
-/

namespace Zephir

open Lowering

/-! ### Writers -/

/-- What gives a variable its value: a statement, or a handler that takes what was thrown. -/
inductive Writer
  | statement (kind : StatementKind)
  | handler (clause : Catch)

/-- The variable that an assignment gives a value to. One to a property leaves the variable that
holds the object alone. -/
def Assign.written (assign : Assign) : List String :=
  match assign.target with
  | .variable | .variableAppend | .arrayIndex | .arrayIndexAppend | .incr | .decr => [assign.base]
  | _ => []

def ForHead.written (head : ForHead) : List String :=
  if head.counted then head.key.toList else head.key.toList ++ head.value.toList

def Catch.written (clause : Catch) : List String :=
  (clause.binding.bind Expr.asVar?).toList

def Expr.root? : Expr → Option String
  | ⟨.var name, _, _, _⟩ => some name
  | ⟨.access .element object _, _, _, _⟩ => object.root?
  | ⟨.unary .likely operand, _, _, _⟩ => operand.root?
  | ⟨.unary .unlikely operand, _, _, _⟩ => operand.root?
  | ⟨.unary .group operand, _, _, _⟩ => operand.root?
  | ⟨.cast _ operand, _, _, _⟩ => operand.root?
  | ⟨.typeHint _ operand, _, _, _⟩ => operand.root?
  | _ => none

@[simp] theorem root_withType (e : Expr) (dataType : String) :
    (e.withType dataType).root? = e.root? := by
  obtain ⟨kind, pos, given, doCast⟩ := e
  cases kind with
  | access kind object member => cases kind <;> rfl
  | unary op operand => cases op <;> rfl
  | _ => rfl

def EffectKind.unsets (kind : EffectKind) (e : Expr) : List String :=
  if kind = .unset then e.root?.toList else []

mutual

/-- The variables that the statements of a block give values to or unset, each with its writer, at
any depth but not in closures, which have variables of their own. -/
def blockWrites : List Statement → List (String × Writer)
  | [] => []
  | ⟨kind, _, _⟩ :: rest => kindWrites kind ++ blockWrites rest

def kindWrites : StatementKind → List (String × Writer)
  | .assign mode assign => assign.written.map (·, .statement (.assign mode assign))
  | .effect kind e => (kind.unsets e).map (·, .statement (.effect kind e))
  | .branch _ body elseIfs otherwise =>
    blockWrites body ++ elseIfWrites elseIfs ++ otherwiseWrites otherwise
  | .whileLoop _ _ body => blockWrites body
  | .loop body => blockWrites body
  | .forLoop head iterated body =>
    head.written.map (·, .statement (.forLoop head iterated body)) ++ blockWrites body
  | .switch _ clauses => clauseWrites clauses
  | .tryCatch body catches => blockWrites body ++ catchWrites catches
  | _ => []

def elseIfWrites : List ElseIf → List (String × Writer)
  | [] => []
  | ⟨_, body, _⟩ :: rest => blockWrites body ++ elseIfWrites rest

def otherwiseWrites : Option (List Statement) → List (String × Writer)
  | none => []
  | some body => blockWrites body

def clauseWrites : List SwitchClause → List (String × Writer)
  | [] => []
  | ⟨_, body⟩ :: rest => blockWrites body ++ clauseWrites rest

def catchWrites : List Catch → List (String × Writer)
  | [] => []
  | ⟨classes, binding, body, pos⟩ :: rest =>
    (Catch.written ⟨classes, binding, body, pos⟩).map (·, .handler ⟨classes, binding, body, pos⟩) ++
      blockWrites body ++ catchWrites rest

end

@[simp] theorem blockWrites_append (left right : List Statement) :
    blockWrites (left ++ right) = blockWrites left ++ blockWrites right := by
  induction left with
  | nil => rfl
  | cons s rest ih =>
      obtain ⟨kind, pos, docblocks⟩ := s
      simp [blockWrites, ih]

@[simp] theorem catchWrites_append (left right : List Catch) :
    catchWrites (left ++ right) = catchWrites left ++ catchWrites right := by
  induction left with
  | nil => rfl
  | cons clause rest ih =>
      obtain ⟨classes, binding, body, pos⟩ := clause
      simp [catchWrites, ih]

@[simp] theorem blockWrites_headDocs (docblocks : List Docblock) (block : List Statement) :
    blockWrites (headDocs docblocks block) = blockWrites block := by
  cases block with
  | nil => rfl
  | cons s rest =>
      obtain ⟨kind, pos, own⟩ := s
      rfl

@[simp] theorem blockWrites_assignTo (name : String) (value : Expr) (pos : Position) :
    blockWrites [.assignTo name value pos] =
      [(name, .statement (.assign .set (.set name value)))] :=
  rfl

/-! ### Names that the source gives values to -/

@[simp] def ExprKind.sets? (kind : ExprKind) : Option String :=
  kind.fetch?.map Prod.fst

@[simp] def partSets (parts : List ExprKind) : List String :=
  parts.filterMap ExprKind.sets?

@[simp] def Expr.sets (e : Expr) : List String :=
  partSets e.parts

@[simp] def exprSets (es : List Expr) : List String :=
  partSets (exprParts es)

@[simp] def optionSets (e : Option Expr) : List String :=
  partSets (optionParts e)

mutual

/-- The variables that a block of the source gives values to, declares or unsets, at any depth but
not in closures. -/
def blockSets : List Statement → List String
  | [] => []
  | ⟨kind, _, _⟩ :: rest => kindSets kind ++ blockSets rest

def kindSets : StatementKind → List String
  | .lets assignments => letSets assignments
  | .declare _ declared => declaredSets declared
  | .fetch e => e.sets
  | .assign _ assign => assign.written ++ optionSets assign.value ++ exprSets assign.index
  | .echo expressions => exprSets expressions
  | .effect kind e => e.sets ++ kind.unsets e
  | .ret value => optionSets value
  | .branch condition body elseIfs otherwise =>
    condition.sets ++ blockSets body ++ elseIfSets elseIfs ++ otherwiseSets otherwise
  | .whileLoop _ condition body => condition.sets ++ blockSets body
  | .loop body => blockSets body
  | .forLoop head iterated body =>
    head.key.toList ++ head.value.toList ++ iterated.sets ++ blockSets body
  | .switch subject clauses => subject.sets ++ clauseSets clauses
  | .tryCatch body catches => blockSets body ++ catchSets catches
  | _ => []

def letSets : List LetAssignment → List String
  | [] => []
  | ⟨assign, _⟩ :: rest =>
    assign.written ++ optionSets assign.value ++ exprSets assign.index ++ letSets rest

def declaredSets : List DeclaredVariable → List String
  | [] => []
  | ⟨name, value, _⟩ :: rest => name :: optionSets value ++ declaredSets rest

def elseIfSets : List ElseIf → List String
  | [] => []
  | ⟨condition, body, _⟩ :: rest => condition.sets ++ blockSets body ++ elseIfSets rest

def otherwiseSets : Option (List Statement) → List String
  | none => []
  | some body => blockSets body

def clauseSets : List SwitchClause → List String
  | [] => []
  | ⟨test, body⟩ :: rest => optionSets test ++ blockSets body ++ clauseSets rest

def catchSets : List Catch → List String
  | [] => []
  | ⟨_, binding, body, _⟩ :: rest =>
    blockSets body ++ (binding.bind Expr.asVar?).toList ++ catchSets rest

end

/-! ### New temporaries -/

def IsTemporaryName (name : String) : Prop :=
  ∃ dataType mark index, Scope.temporaryMark? dataType = some mark ∧
    name = Scope.numbered mark index

/-- A temporary of the type was made on the way from one scope to another. -/
structure IsNew (before after : Scope) (name dataType : String) : Prop where
  free : before.isTaken name = false
  kept : name ∈ after.locals.keys
  issued : (name, dataType) ∈ after.issued
  form : IsTemporaryName name

theorem Scope.firstFree_numbered (mark : String) (taken : String → Bool) (index tries : Nat) :
    ∃ number, firstFree mark taken index tries = numbered mark number := by
  induction tries generalizing index with
  | zero => exact ⟨index, rfl⟩
  | succ tries ih =>
      rw [firstFree]
      split
      · exact ih (index + 1)
      · exact ⟨index, rfl⟩

namespace IsNew

variable {bound : String → Prop} {scope before mid after : Scope} {name dataType other : String}

theorem temporary {pos : Position}
    (fresh : scope.temporary? dataType pos = some (name, after)) :
    IsNew scope after name dataType := by
  obtain ⟨mark, marked, made⟩ := Option.map_eq_some_iff.mp fresh
  cases made
  obtain ⟨number, numbered⟩ := Scope.firstFree_numbered mark scope.isTaken 1
    (scope.locals.entries.length + scope.parameters.length)
  exact ⟨scope.isTaken_freshName mark, OrderedMap.mem_keys_insert _ _ _, List.mem_cons_self,
    dataType, mark, number, marked, numbered⟩

theorem sooner (first : Grows bound before mid) (new : IsNew mid after name dataType) :
    IsNew before after name dataType :=
  ⟨first.isTaken_mono new.free, new.kept, new.issued, new.form⟩

theorem later (new : IsNew before mid name dataType) (second : Grows bound mid after) :
    IsNew before after name dataType :=
  ⟨new.free, second.keys.subset new.kept, second.issued_suffix.subset new.issued, new.form⟩

theorem isTaken (new : IsNew before mid name dataType) : mid.isTaken name = true :=
  Scope.isTaken_iff.mpr (List.mem_append_left _ new.kept)

theorem not_again (new : IsNew before mid name dataType) : ¬ IsNew mid after name other := by
  intro again
  have free := again.free
  rw [new.isTaken] at free
  cases free

end IsNew

/-! ### What expressions write -/

/-- All writes on the way from one scope to another go to the names given or to new temporaries. -/
structure Sets (bound : String → Prop) (names : List String) (scope next : Scope)
    (writes : List (String × Writer)) : Prop where
  grows : Grows bound scope next
  each : ∀ write ∈ writes, write.1 ∈ names ∨ ∃ dataType, IsNew scope next write.1 dataType

namespace Sets

variable {bound : String → Prop} {names more : List String} {scope mid next : Scope}
  {writes later : List (String × Writer)}

theorem none (scope : Scope) : Sets bound names scope scope [] :=
  ⟨.refl scope, by simp⟩

theorem mono (sets : Sets bound names scope next writes) (names_subset : names ⊆ more) :
    Sets bound more scope next writes :=
  ⟨sets.grows, fun write among => (sets.each write among).imp_left fun here => names_subset here⟩

theorem append (first : Sets bound names scope mid writes)
    (second : Sets bound more mid next later) :
    Sets bound (names ++ more) scope next (writes ++ later) := by
  refine ⟨first.grows.trans second.grows, ?_⟩
  rw [List.forall_mem_append]
  constructor
  · intro write among
    rcases first.each write among with named | ⟨dataType, new⟩
    · exact .inl (List.mem_append_left _ named)
    · exact .inr ⟨dataType, new.later second.grows⟩
  · intro write among
    rcases second.each write among with named | ⟨dataType, new⟩
    · exact .inl (List.mem_append_right _ named)
    · exact .inr ⟨dataType, new.sooner first.grows⟩

theorem assignTo (scope : Scope) (name : String) (value : Expr) (pos : Position) :
    Sets bound [name] scope scope (blockWrites [.assignTo name value pos]) :=
  ⟨.refl scope, by simp⟩

theorem assign (scope : Scope) (mode : AssignMode) (assign : Assign) (pos : Position) :
    Sets bound assign.written scope scope (blockWrites [⟨.assign mode assign, pos, []⟩]) := by
  refine ⟨.refl scope, fun write among => .inl ?_⟩
  obtain ⟨name, named, rfl⟩ : ∃ name ∈ assign.written, (name, _) = write := by
    simpa [blockWrites, kindWrites] using among
  exact named

theorem insertAll {entries : List (String × Local)} (all : ∀ entry ∈ entries, bound entry.1) :
    Sets bound [] scope { scope with locals := scope.locals.insertAll entries } [] :=
  ⟨.insertAll all, by simp⟩

theorem temporary {name dataType : String} {pos : Position}
    (fresh : scope.temporary? dataType pos = some (name, next)) (writer : Writer) :
    Sets bound [] scope next [(name, writer)] :=
  ⟨.temporary fresh, by simpa using ⟨dataType, IsNew.temporary fresh⟩⟩

end Sets

section Expressions

variable {bound : String → Prop}

mutual

theorem LowersExpr.sets {e e' : Expr} {scope next : Scope} {before : List Statement} :
    LowersExpr e scope before e' next →
      Sets bound e.sets scope next (blockWrites before)
  | .null | .literal _ | .istring | .emptyArray | .var | .staticAccess _ | .newArray
  | .newString | .closure _ | .closureArrow _ _ => .none scope
  | .array lowered => lowered.sets.mono (by simp)
  | .property lowered | .likely _ lowered | .empty lowered | .ungroup lowered _
  | .group lowered _ | .unary _ _ lowered | .instanceOf lowered | .cast lowered _
  | .castHint lowered _ | .typeHint lowered _ | .strayHint lowered _ =>
      lowered.sets.mono (by simp)
  | .call lowered | .staticCall lowered | .new lowered => lowered.sets.mono (by simp)
  | .fetch named lowered => by
      rw [blockWrites_append]
      exact (lowered.sets.append (.assignTo _ _ _ _)).mono (by simp [named])
  | .notFetch named lowered => by
      rw [blockWrites_append]
      exact (lowered.sets.append (.assignTo _ _ _ _)).mono (by simp [named])
  | .access computed first second => by
      rw [blockWrites_append]
      refine (first.sets.append second.sets).mono ?_
      rcases computed with rfl | rfl <;> simp
  | .binary first second | .range first second => by
      rw [blockWrites_append]
      exact (first.sets.append second.sets).mono (by simp)
  | .stringProperty first second fresh => by
      rw [blockWrites_append, blockWrites_append]
      exact ((first.sets.append second.sets).append (.temporary fresh _)).mono (by simp)
  | .methodCall receiver arguments _ | .pseudoCall receiver arguments _ _ => by
      rw [blockWrites_append]
      exact (receiver.sets.append arguments.sets).mono (by simp)
  | .ternary condition yes no => by
      rw [blockWrites_append, blockWrites_append]
      exact ((condition.sets.append yes.sets).append no.sets).mono (by simp [-List.append_assoc])

theorem LowersExprs.sets {es es' : List Expr} {scope next : Scope} {before : List Statement} :
    LowersExprs es scope before es' next →
      Sets bound (exprSets es) scope next (blockWrites before)
  | .nil => .none scope
  | .cons first rest => by
      rw [blockWrites_append]
      exact (first.sets.append rest.sets).mono (by simp)

theorem LowersOption.sets {e e' : Option Expr} {scope next : Scope} {before : List Statement} :
    LowersOption e scope before e' next →
      Sets bound (optionSets e) scope next (blockWrites before)
  | .none => .none scope
  | .some lowered => lowered.sets

theorem LowersEntries.sets {entries entries' : List ArrayEntry} {scope next : Scope}
    {before : List Statement} :
    LowersEntries entries scope before entries' next →
      Sets bound (partSets (entryParts entries)) scope next (blockWrites before)
  | .nil => .none scope
  | .cons key value rest => by
      rw [blockWrites_append, blockWrites_append]
      exact ((key.sets.append value.sets).append rest.sets).mono (by simp)

end

/-- Lowering keeps the variable at the root of an expression. -/
theorem LowersExpr.root_eq {e e' : Expr} {scope next : Scope} {before : List Statement} :
    LowersExpr e scope before e' next → e'.root? = e.root?
  | .null | .literal _ | .istring | .emptyArray | .array _ | .property _ | .stringProperty _ _ _
  | .call _ | .methodCall _ _ _ | .staticCall _ | .new _ | .newArray | .newString | .empty _
  | .range _ _ | .binary _ _ | .instanceOf _ | .ternary _ _ _ | .fetch _ _ | .notFetch _ _
  | .closure _ | .closureArrow _ _ => rfl
  | .var => rfl
  | .staticAccess static => by
      rcases static with rfl | rfl <;> rfl
  | .access computed object _ => by
      rcases computed with rfl | rfl
      · exact object.root_eq
      · rfl
  | .pseudoCall _ _ _ translated => by
      obtain ⟨entry, -, rfl⟩ := pseudoCall_ok translated
      rfl
  | .likely hint lowered => by
      rcases hint with rfl | rfl <;> exact lowered.root_eq
  | .ungroup lowered _ => lowered.root_eq
  | .group lowered _ => lowered.root_eq
  | @LowersExpr.unary op _ _ _ _ _ _ _ _ plain _ _ => by
      obtain ⟨likely, unlikely, -, group⟩ := plain
      cases op <;> first | contradiction | rfl
  | .cast lowered _ => lowered.root_eq
  | .castHint lowered _ => by
      rw [root_withType]
      exact lowered.root_eq
  | .typeHint lowered _ => by
      rw [root_withType]
      exact lowered.root_eq
  | .strayHint lowered _ => lowered.root_eq

theorem effect_sets {kind : EffectKind} {e e' : Expr} {scope next : Scope}
    {before : List Statement} (lowered : LowersExpr e scope before e' next) (pos : Position) :
    Sets bound (kindSets (.effect kind e)) scope next
      (blockWrites (before ++ [⟨.effect kind e', pos, []⟩])) := by
  rw [blockWrites_append]
  refine lowered.sets.append ⟨.refl next, fun write among => .inl ?_⟩
  obtain ⟨name, named, rfl⟩ : ∃ name ∈ kind.unsets e', (name, _) = write := by
    simpa [blockWrites, kindWrites] using among
  rw [EffectKind.unsets, lowered.root_eq] at named
  exact named

theorem LowersAssign.sets {assign assign' : Assign} {scope next : Scope}
    {before : List Statement} (lowered : LowersAssign assign scope before assign' next) :
    assign'.written = assign.written ∧
      Sets bound (optionSets assign.value ++ exprSets assign.index) scope next
        (blockWrites before) := by
  obtain ⟨value, index⟩ := lowered
  rw [blockWrites_append]
  exact ⟨rfl, value.sets.append index.sets⟩

theorem resolveTarget_sets {target : AssignTarget} {operator : Option AssignOp} {base : String}
    {property : Option String} {pos : Position} {mode : AssignMode} {location : Assign}
    {scope named : Scope} {opening : List Statement}
    (resolved : (resolveTarget ⟨target, operator, base, property, [], none⟩ pos).Runs scope
      opening (mode, location) named) :
    location.written ⊆ (Assign.mk target operator base property [] none).written ∧
      Sets bound [] scope named (blockWrites opening) := by
  obtain ⟨-, ⟨rfl, rfl, result, noVariable, noProperty⟩ | ⟨text, name, rfl, fresh, result⟩⟩ :=
    resolveTarget_ensures _ _ resolved
  · cases result
    refine ⟨?_, .none _⟩
    cases target <;> simp [AssignTarget.step, Assign.written]
  · refine ⟨?_, .temporary fresh _⟩
    rcases result with ⟨-, -, result⟩ | ⟨-, -, result⟩ <;> cases result <;> simp [Assign.written]

theorem LowersLets.sets {assignments : List LetAssignment} {scope next : Scope}
    {before : List Statement} (lowered : LowersLets assignments scope before next) :
    Sets bound (letSets assignments) scope next (blockWrites before) := by
  induction assignments generalizing scope before with
  | nil =>
      cases lowered
      exact .none _
  | cons assignment others ih =>
      cases lowered with
      | @cons target operator base property index index' value value' pos _ mode location _ _ _ _ _
          _ last later _ resolved loweredValue loweredIndex loweredRest =>
          obtain ⟨written, opens⟩ := resolveTarget_sets resolved
          have assigned : Sets bound location.written last last (blockWrites
              [⟨.assign mode { location with index := index', value := value' }, pos, []⟩]) :=
            .assign last mode { location with index := index', value := value' } pos
          have whole := ((opens.append ((loweredValue.sets.append loweredIndex.sets).append
            (assigned.mono written))).append (ih loweredRest))
          simp only [blockWrites_append]
          refine whole.mono ?_
          intro name among
          simp only [letSets, List.mem_append, List.nil_append] at among ⊢
          grind [Assign.written]

theorem LowersInitial.sets {declared : List DeclaredVariable} {scope next : Scope}
    {before : List Statement} (lowered : LowersInitial declared scope before next) :
    Sets bound (declaredSets declared) scope next (blockWrites before) := by
  induction declared generalizing scope before with
  | nil =>
      cases lowered
      exact .none _
  | cons first others ih =>
      cases lowered with
      | unset rest =>
          exact (ih rest).mono (by simp [declaredSets])
      | set value rest =>
          simp only [blockWrites_append]
          refine ((value.sets.append (.assignTo _ _ _ _)).append (ih rest)).mono ?_
          intro name among
          simp only [declaredSets, List.mem_append, List.mem_cons, optionSets, optionParts,
            Expr.sets] at among ⊢
          grind

theorem catchBinding_sets {binding : Option Expr} {pos : Position} {scope : Scope} :
    (catchBinding binding pos).Ensures scope fun _ binding' next =>
      Grows bound scope next ∧ ∀ name ∈ binding'.asVar?,
        name ∈ (binding.bind Expr.asVar?).toList ∨ ∃ dataType, IsNew scope next name dataType := by
  cases binding with
  | none =>
      refine ensures_temporary.andReturn ?_
      rintro _ name next ⟨-, fresh⟩
      refine ⟨.temporary fresh, ?_⟩
      rintro _ ⟨rfl⟩
      exact .inr ⟨_, .temporary fresh⟩
  | some binding =>
      unfold catchBinding
      dsimp only
      split
      · rename_i name named
        refine ensures_modifyScope.andReturn ?_
        rintro _ _ _ ⟨-, rfl⟩
        exact ⟨.declare _ _, fun _ same => .inl (by simpa using same)⟩
      · exact ensures_pure ⟨.refl scope, fun _ same => .inl (by simpa using same)⟩

/-- The clauses of a split handler write what its body writes, once for every class, and each takes
what was thrown. -/
theorem catchWrites_splitCatch_perm (classes : List Expr) (binding : Expr) (body : List Statement)
    (pos : Position) :
    (catchWrites (splitCatch classes binding body pos)).Perm
      ((List.replicate classes.length (blockWrites body)).flatten ++
        (splitCatch classes binding body pos).flatMap fun clause =>
          clause.written.map (·, .handler clause)) := by
  classical
  induction classes with
  | nil => rfl
  | cons name rest ih =>
      refine List.perm_iff_count.mpr fun write => ?_
      have others := ih.count_eq write
      simp only [List.count_append] at others
      simp only [splitCatch, List.map_cons, catchWrites, List.length_cons, List.replicate_succ,
        List.flatten_cons, List.flatMap_cons, List.count_append] at others ⊢
      omega

theorem splitCatch_sets {binding : Option Expr} {binding' : Expr} {pos : Position}
    {scope next : Scope} (binds : (catchBinding binding pos).Runs scope [] binding' next)
    (classes : List Expr) (body : List Statement) :
    Sets bound (binding.bind Expr.asVar?).toList scope next
      ((splitCatch classes binding' body pos).flatMap fun clause =>
        clause.written.map (·, .handler clause)) := by
  obtain ⟨-, grows, named⟩ := catchBinding_sets _ _ binds
  refine ⟨grows, fun write among => ?_⟩
  simp only [splitCatch, List.mem_flatMap, List.mem_map, exists_exists_and_eq_and] at among
  obtain ⟨_, _, name, there, rfl⟩ := among
  exact named name (by simpa [Catch.written] using there)

theorem defaultCatch_sets {name : String} {pos : Position} {scope next : Scope}
    (fresh : scope.temporary? "variable" pos = some (name, next)) :
    Sets bound [] scope next
      (catchWrites (splitCatch [baseException pos] (.var name pos) [] pos)) :=
  .temporary fresh _

theorem declare_sets {dataType : String} {declared : List DeclaredVariable} {scope next : Scope}
    {before : List Statement} (binds : ∀ name ∈ declared.map (·.name), bound name)
    (lowered : LowersInitial declared
      { scope with locals := scope.locals.insertAll (declaredLocals dataType declared) }
      before next) : Sets bound (declaredSets declared) scope next (blockWrites before) := by
  have declares : Sets bound [] scope
      { scope with locals := scope.locals.insertAll (declaredLocals dataType declared) } [] :=
    .insertAll (by simpa [declaredLocals] using binds)
  exact declares.append lowered.sets

theorem fetch_sets {target source source' value : Expr} {name : String} {fetchPos : Position}
    {dataType : Option String} {doCast : Bool} {scope next : Scope} {before : List Statement}
    (named : target.asVar? = some name) (lowered : LowersExpr source scope before source' next)
    (pos : Position) :
    Sets bound (kindSets (.fetch ⟨.fetch target source, fetchPos, dataType, doCast⟩)) scope next
      (blockWrites (before ++ [.assignTo name value pos])) := by
  rw [blockWrites_append]
  exact (lowered.sets.append (.assignTo _ _ _ _)).mono (by simp [kindSets, named])

theorem assign_sets {assign assign' : Assign} {scope next : Scope} {before : List Statement}
    (lowered : LowersAssign assign scope before assign' next) (mode : AssignMode)
    (pos : Position) :
    Sets bound (kindSets (.assign mode assign)) scope next
      (blockWrites (before ++ [⟨.assign mode assign', pos, []⟩])) := by
  obtain ⟨written, sets⟩ := lowered.sets
  rw [blockWrites_append]
  refine (sets.append (.assign _ mode assign' pos)).mono ?_
  simp [written, kindSets]

end Expressions

end Zephir
