import Zephir.Proofs.Lowering.Rules

/-!
Every successful run of lowering is derived by its rules. First come the steps that lower nothing
further, each with what it leaves.
-/

namespace Zephir

open Lowering

theorem fetchTarget_ensures {target : Expr} {pos : Position} {scope : Scope} :
    (fetchTarget target pos).Ensures scope fun before name next =>
      before = [] ∧ target.asVar? = some name ∧ next = scope := by
  unfold fetchTarget
  cases found : target.asVar? with
  | none => exact ensures_fail
  | some name => exact ensures_pure ⟨rfl, rfl, rfl⟩

theorem storeFetched_ensures {name : String} {targetPos pos : Position} {source : Splice Expr}
    {scope : Scope} (nothing : source.after = []) :
    (storeFetched name targetPos source pos).Ensures scope fun before stored next =>
      before = source.before ++ [.assignTo name (fetchedValue source.node pos) targetPos] ∧
        stored = ⟨.var name, targetPos, scope.typeOf? name, false⟩ ∧ next = scope := by
  refine ensures_hoist.bind ?_
  rintro _ _ _ ⟨rfl, rfl⟩
  refine ensures_typeOf.andReturn ?_
  rintro _ _ _ ⟨rfl, rfl, rfl⟩
  simp [nothing]

theorem fetch_ensures {β : Type} {target source : Expr} {pos : Position} {scope : Scope}
    {g : Expr → β} {post : List Statement → β → Scope → Prop}
    (lowered : (lowerExpr source).Ensures scope (LowersExpr source scope))
    (holds : ∀ name before source' next, target.asVar? = some name →
      LowersExpr source scope before source' next →
      post (before ++ [.assignTo name (fetchedValue source' pos) target.pos])
        (g ⟨.var name, target.pos, next.typeOf? name, false⟩) next) :
    (do
      let name ← fetchTarget target pos
      let source ← isolate (lowerExpr source)
      let stored ← storeFetched name target.pos source pos
      pure (g stored)).Ensures scope post := by
  refine fetchTarget_ensures.bind ?_
  rintro _ name _ ⟨rfl, named, rfl⟩
  refine lowered.isolate.bind ?_
  rintro _ splice next ⟨rfl, nothing, derived⟩
  refine (storeFetched_ensures nothing).andReturn ?_
  rintro _ _ _ ⟨rfl, rfl, rfl⟩
  exact holds name _ _ _ named derived

theorem stringTemporary_ensures {text : String} {pos : Position} {scope : Scope} :
    (stringTemporary text pos).Ensures scope fun before name next =>
      before = [.assignTo name (.str text pos) pos] ∧
        scope.temporary? "string" pos = some (name, next) := by
  refine ensures_temporary.bind ?_
  rintro _ name next ⟨rfl, fresh⟩
  refine ensures_hoist.andReturn ?_
  rintro _ _ _ ⟨rfl, rfl⟩
  exact ⟨rfl, fresh⟩

/-- A `let` assignment ends up with a target that is written as it stands. A name given as a string
is stored in a temporary first. -/
theorem resolveTarget_ensures {assign : Assign} {pos : Position} {scope : Scope} :
    (resolveTarget assign pos).Ensures scope fun before resolved next =>
      (before = [] ∧ next = scope ∧
        resolved = (assign.target.step.1, { assign with target := assign.target.step.2 }) ∧
        assign.target ≠ .dynamicVariableString ∧
        assign.target ≠ .stringDynamicObjectProperty) ∨
      ∃ text name, before = [.assignTo name (.str text pos) pos] ∧
        scope.temporary? "string" pos = some (name, next) ∧
        ((assign.target = .dynamicVariableString ∧ text = assign.base ∧
            resolved = (.set, { assign with base := name, target := .dynamicVariable })) ∨
          (assign.target = .stringDynamicObjectProperty ∧ assign.property = some text ∧
            resolved = (.set, { assign with
              property := some name, target := .variableDynamicObjectProperty }))) := by
  unfold resolveTarget
  split
  · rename_i isDynamic
    refine stringTemporary_ensures.andReturn ?_
    rintro _ name next ⟨rfl, fresh⟩
    exact .inr ⟨_, name, rfl, fresh, .inl ⟨isDynamic, rfl, rfl⟩⟩
  · rename_i isDynamic
    cases found : assign.property with
    | none => exact ensures_fail
    | some text =>
        refine stringTemporary_ensures.andReturn ?_
        rintro _ name next ⟨rfl, fresh⟩
        exact .inr ⟨text, name, rfl, fresh, .inr ⟨isDynamic, rfl, rfl⟩⟩
  · rename_i target noVariable noProperty
    exact ensures_pure (.inl ⟨rfl, rfl, rfl, noVariable, noProperty⟩)

theorem loopNames_ensures {head : ForHead} {pos : Position} {scope : Scope} :
    (loopNames head pos).Ensures scope fun before _ _ => before = [] := by
  have named : ∀ (key : Option String) (value : String) (scope : Scope),
      (do modifyScope (·.declare value "variable" pos); pure (key, value) :
        Lowering (Option String × String)).Ensures scope fun before _ _ => before = [] := by
    intro key value scope
    refine ensures_modifyScope.andReturn ?_
    rintro _ _ _ ⟨rfl, rfl⟩
    rfl
  have unnamed : ∀ (key : Option String) (scope : Scope),
      (do let value ← temporary "variable" pos; pure (key, value) :
        Lowering (Option String × String)).Ensures scope fun before _ _ => before = [] := by
    intro key scope
    refine ensures_temporary.andReturn ?_
    rintro _ _ _ ⟨rfl, fresh⟩
    rfl
  unfold loopNames
  dsimp only
  split
  · refine ensures_modifyScope.bind ?_
    rintro _ _ _ ⟨rfl, rfl⟩
    split
    · exact named _ _ _
    · exact unnamed _ _
  · split
    · exact named _ _ _
    · exact unnamed _ _

/-- A loop over a string stores the string and its length before it, counts up to the length, and
opens by taking a character. -/
def CountsOver (iterated : Expr) (value : String) (pos : Position) (before : List Statement)
    (start : LoopStart) : Prop :=
  ∃ source size index,
    before = [.assignTo source iterated iterated.pos, .assignTo size
      ((Expr.callOf "strlen" [(Expr.var source iterated.pos).withType "string"]
        iterated.pos).withType "int") iterated.pos] ∧
    start = {
      head := ⟨some index, some value, false, true, some size⟩
      iterated := (Expr.var source iterated.pos).withType "string"
      opening := [.assignTo value (.plain (.access .element
        ((Expr.var source iterated.pos).withType "string")
        ((Expr.var index pos).withType "int")) pos) pos] }

theorem stringLoop_ensures {key : Option String} {value : String} {iterated : Expr}
    {pos : Position} {scope : Scope} :
    (stringLoop key value iterated pos).Ensures scope fun before start _ =>
      CountsOver iterated value pos before start := by
  have counts : ∀ (index : String) (scope : Scope), (do
      let source ← temporary "string" iterated.pos
      hoist [.assignTo source iterated iterated.pos]
      let stored := (Expr.var source iterated.pos).withType "string"
      let size ← temporary "int" iterated.pos
      hoist [.assignTo size
        ((Expr.callOf "strlen" [stored] iterated.pos).withType "int") iterated.pos]
      let charAt := Expr.plain (.access .element stored ((Expr.var index pos).withType "int")) pos
      pure {
        head := { key := some index, value := some value, reverse := false, counted := true,
                  length := some size }
        iterated := stored
        opening := [.assignTo value charAt pos] } : Lowering LoopStart).Ensures scope
          fun before start _ => CountsOver iterated value pos before start := by
    intro index scope
    refine ensures_temporary.bind ?_
    rintro _ source _ ⟨rfl, freshSource⟩
    refine ensures_hoist.bind ?_
    rintro _ _ _ ⟨rfl, rfl⟩
    refine ensures_temporary.bind ?_
    rintro _ size _ ⟨rfl, freshSize⟩
    refine ensures_hoist.andReturn ?_
    rintro _ _ _ ⟨rfl, rfl⟩
    exact ⟨source, size, index, rfl, rfl⟩
  unfold stringLoop
  cases key with
  | none =>
      refine ensures_temporary.bind ?_
      rintro _ index _ ⟨rfl, fresh⟩
      exact counts index _
  | some index =>
      refine Ensures.bind ensures_modifyScope ?_
      rintro _ _ _ ⟨rfl, rfl⟩
      exact counts index _

theorem loopStart_ensures {head : ForHead} {key : Option String} {value : String}
    {iterated : Expr} {pos : Position} {scope : Scope} :
    (loopStart head key value iterated pos).Ensures scope fun before start _ =>
      CountsOver (reversed head.reverse true iterated) value pos before start ∨
      (before = [] ∧ start = {
        head := ⟨key, some value, false, false, none⟩
        iterated := reversed head.reverse false iterated
        opening := [] }) := by
  unfold loopStart
  split
  · exact stringLoop_ensures.mono fun _ _ _ counts => .inl counts
  · exact ensures_pure (.inr ⟨rfl, rfl⟩)

theorem catchBinding_ensures {binding : Option Expr} {pos : Position} {scope : Scope} :
    (catchBinding binding pos).Ensures scope fun before binding' _ => before = [] ∧
      (binding = some binding' ∨ (binding = none ∧ ∃ name, binding' = .var name pos)) := by
  cases binding with
  | none =>
      refine ensures_temporary.andReturn ?_
      rintro _ name _ ⟨rfl, fresh⟩
      exact ⟨rfl, .inr ⟨rfl, name, rfl⟩⟩
  | some binding =>
      unfold catchBinding
      dsimp only
      split
      · refine ensures_modifyScope.andReturn ?_
        rintro _ _ _ ⟨rfl, rfl⟩
        exact ⟨rfl, .inl rfl⟩
      · exact ensures_pure ⟨rfl, .inl rfl⟩

theorem defaultCatch_ensures {pos : Position} {scope : Scope} :
    (defaultCatch pos).Ensures scope fun before catches next => before = [] ∧ ∃ name,
      scope.temporary? "variable" pos = some (name, next) ∧
        catches = splitCatch [baseException pos] (.var name pos) [] pos := by
  refine ensures_temporary.andReturn ?_
  rintro _ name _ ⟨rfl, fresh⟩
  exact ⟨rfl, name, fresh, rfl⟩

theorem lowerExpr_unary {op : UnaryOp} {operand : Expr} (pos : Position)
    (dataType : Option String) (doCast : Bool)
    (plain : op ≠ .likely ∧ op ≠ .unlikely ∧ op ≠ .empty ∧ op ≠ .group)
    (noFetch : op = .not → ∀ target source, operand.kind ≠ .fetch target source) :
    lowerExpr ⟨.unary op operand, pos, dataType, doCast⟩ = (do
      let operand ← lowerExpr operand
      pure ⟨.unary op operand, pos, dataType, doCast⟩) := by
  obtain ⟨noLikely, noUnlikely, noEmpty, noGroup⟩ := plain
  rw [lowerExpr]
  · simp_all
  · simp_all
  · intro target source fetchPos dataType doCast isNot
    rintro rfl
    exact noFetch isNot target source rfl
  · simp_all
  · simp_all

theorem after_prependDocs {docblocks : List Docblock} {splice : Splice (Option Statement)}
    (nothing : splice.after = []) : (splice.prependDocs docblocks).after = [] := by
  obtain ⟨before, node, after⟩ := splice
  simp only at nothing
  subst nothing
  cases before with
  | cons first rest => rfl
  | nil => cases node <;> rfl

theorem toBlock_prependDocs (docblocks : List Docblock) (splice : Splice (Option Statement)) :
    (splice.prependDocs docblocks).toBlock = headDocs docblocks splice.toBlock := by
  obtain ⟨before, node, after⟩ := splice
  cases before with
  | cons first rest => rfl
  | nil =>
      cases node with
      | some node => rfl
      | none => cases after <;> rfl

/-- A statement becomes what is hoisted out of it and what is left of it, with its comments above
the first of these. -/
theorem lowerStatement_ensures {kind : StatementKind} {pos : Position}
    {docblocks : List Docblock} {scope : Scope}
    {post : List Statement → Option StatementKind → Scope → Prop}
    (ensures : (lowerKind pos kind).Ensures scope post) :
    (lowerStatement ⟨kind, pos, docblocks⟩).Ensures scope fun before node next =>
      ∃ hoisted kind', post hoisted kind' next ∧ before ++ node.toList =
        headDocs docblocks (hoisted ++ (kind'.map fun kind => ⟨kind, pos, []⟩).toList) := by
  rw [lowerStatement]
  refine ensures.isolate.bind ?_
  rintro _ ⟨before, kind', after⟩ next ⟨rfl, nothing, holds⟩
  simp only at nothing
  subst nothing
  have noneAfter : (Splice.prependDocs docblocks
      ⟨before, kind'.map fun kind => ⟨kind, pos, []⟩, []⟩).after = [] :=
    after_prependDocs rfl
  refine ensures_emit noneAfter ?_
  have block := toBlock_prependDocs docblocks ⟨before, kind'.map fun kind => ⟨kind, pos, []⟩, []⟩
  rw [Splice.toBlock, noneAfter, List.append_nil, Splice.toBlock, List.append_nil] at block
  exact ⟨before, kind', holds, block⟩

theorem assigned_ensures {index : List Expr} {value : Option Expr} {scope : Scope}
    (location : Assign)
    (loweredValue : (lowerOption value).Ensures scope (LowersOption value scope))
    (loweredIndex : ∀ mid, (lowerExprs index).Ensures mid (LowersExprs index mid)) :
    (do
      let value ← lowerOption value
      let index ← lowerExprs index
      pure { location with index, value }).Ensures scope fun before assign next =>
        ∃ first value' mid second index', LowersOption value scope first value' mid ∧
          LowersExprs index mid second index' next ∧ before = first ++ second ∧
          assign = { location with index := index', value := value' } := by
  refine loweredValue.bind ?_
  intro first value' mid derivedValue
  refine (loweredIndex mid).andReturn ?_
  intro second index' next derivedIndex
  exact ⟨first, value', mid, second, index', derivedValue, derivedIndex, rfl, rfl⟩

mutual

theorem lowerExpr_derives (scope : Scope) : (e : Expr) →
    (lowerExpr e).Ensures scope (LowersExpr e scope)
  | ⟨.null, pos, dataType, doCast⟩ => by
      rw [lowerExpr]
      · exact ensures_pure .null
      all_goals simp
  | ⟨.literal kind text, pos, dataType, doCast⟩ => by
      by_cases plain : kind = .istring
      · subst plain
        rw [lowerExpr]
        exact ensures_pure .istring
      · rw [lowerExpr]
        · exact ensures_pure (.literal plain)
        all_goals simp_all
  | ⟨.emptyArray, pos, dataType, doCast⟩ => by
      rw [lowerExpr]
      · exact ensures_pure .emptyArray
      all_goals simp
  | ⟨.array entries, pos, dataType, doCast⟩ => by
      rw [lowerExpr]
      refine (lowerEntries_derives scope entries).andReturn ?_
      intro before entries' next lowered
      exact .array lowered
  | ⟨.var name, pos, dataType, doCast⟩ => by
      rw [lowerExpr]
      refine ensures_typeOf.andReturn ?_
      rintro _ _ _ ⟨rfl, rfl, rfl⟩
      exact .var
  | ⟨.access .element object member, pos, dataType, doCast⟩ => by
      rw [lowerExpr]
      refine (lowerExpr_derives scope object).bind ?_
      intro first object' mid loweredObject
      refine (lowerExpr_derives mid member).andReturn ?_
      intro second member' next loweredMember
      exact .access (.inl rfl) loweredObject loweredMember
  | ⟨.access .dynamicProperty object member, pos, dataType, doCast⟩ => by
      rw [lowerExpr]
      refine (lowerExpr_derives scope object).bind ?_
      intro first object' mid loweredObject
      refine (lowerExpr_derives mid member).andReturn ?_
      intro second member' next loweredMember
      exact .access (.inr rfl) loweredObject loweredMember
  | ⟨.access .property object member, pos, dataType, doCast⟩ => by
      rw [lowerExpr]
      refine (lowerExpr_derives scope object).andReturn ?_
      intro before object' next lowered
      exact .property lowered
  | ⟨.access .stringProperty object member, pos, dataType, doCast⟩ => by
      rw [lowerExpr]
      refine (lowerExpr_derives scope object).bind ?_
      intro first object' mid loweredObject
      refine (lowerExpr_derives mid member).bind ?_
      intro second member' last loweredMember
      refine ensures_temporary.bind ?_
      rintro _ name next ⟨rfl, fresh⟩
      refine ensures_hoist.andReturn ?_
      rintro _ _ _ ⟨rfl, rfl⟩
      rw [List.nil_append, ← List.append_assoc]
      exact .stringProperty loweredObject loweredMember fresh
  | ⟨.access .staticProperty object member, pos, dataType, doCast⟩ => by
      rw [lowerExpr]
      · exact ensures_pure (.staticAccess (.inl rfl))
      all_goals simp
  | ⟨.access .classConstant object member, pos, dataType, doCast⟩ => by
      rw [lowerExpr]
      · exact ensures_pure (.staticAccess (.inr rfl))
      all_goals simp
  | ⟨.call name callType arguments, pos, dataType, doCast⟩ => by
      rw [lowerExpr]
      refine (lowerExprs_derives scope arguments).andReturn ?_
      intro before arguments' next lowered
      exact .call lowered
  | ⟨.methodCall receiver name callType arguments, pos, dataType, doCast⟩ => by
      rw [lowerExpr]
      refine (lowerExpr_derives scope receiver).bind ?_
      intro first receiver' mid loweredReceiver
      refine (lowerExprs_derives mid arguments).bind ?_
      intro second arguments' next loweredArguments
      cases owned : primitiveOwner? receiver' with
      | none =>
          refine ensures_pure ?_
          rw [List.append_nil]
          exact .methodCall loweredReceiver loweredArguments owned
      | some owner =>
          refine ensures_ofExcept.mono ?_
          rintro _ called _ ⟨rfl, translated, rfl⟩
          rw [List.append_nil]
          exact .pseudoCall loweredReceiver loweredArguments owned translated
  | ⟨.staticCall callee arguments, pos, dataType, doCast⟩ => by
      rw [lowerExpr]
      refine (lowerExprs_derives scope arguments).andReturn ?_
      intro before arguments' next lowered
      exact .staticCall lowered
  | ⟨.new className dynamic arguments, pos, dataType, doCast⟩ => by
      rw [lowerExpr]
      refine (lowerExprs_derives scope arguments).andReturn ?_
      intro before arguments' next lowered
      exact .new lowered
  | ⟨.newType typeName arguments, pos, dataType, doCast⟩ => by
      rw [lowerExpr]
      split
      · subst typeName
        exact ensures_pure .newArray
      · split
        · subst typeName
          exact ensures_pure .newString
        · exact ensures_fail
  | ⟨.unary op operand, pos, dataType, doCast⟩ => by
      have derived := lowerExpr_derives scope operand
      cases op with
      | likely =>
          rw [lowerExpr]
          exact derived.mono fun _ _ _ lowered => .likely (.inl rfl) lowered
      | unlikely =>
          rw [lowerExpr]
          exact derived.mono fun _ _ _ lowered => .likely (.inr rfl) lowered
      | empty =>
          rw [lowerExpr]
          exact derived.andReturn fun _ _ _ lowered => .empty lowered
      | group =>
          rw [lowerExpr]
          refine derived.bind ?_
          intro before operand' next lowered
          split
          · rename_i primary
            refine ensures_pure ?_
            rw [List.append_nil]
            exact .ungroup lowered primary
          · rename_i compound
            refine ensures_pure ?_
            rw [List.append_nil]
            exact .group lowered (by simpa using compound)
      | not =>
          -- A negated fetch is one step: its source is lowered, and not the fetch itself.
          obtain ⟨kind, fetchPos, fetchType, fetchCast⟩ := operand
          cases kind with
          | fetch target source =>
              rw [lowerExpr]
              refine fetch_ensures (lowerExpr_derives scope source) ?_
              intro name before source' next named lowered
              exact .notFetch named lowered
          | _ =>
              rw [lowerExpr_unary pos dataType doCast (by simp) (by simp)]
              exact derived.andReturn fun _ _ _ lowered => .unary (by simp) (by simp) lowered
      | _ =>
          rw [lowerExpr_unary pos dataType doCast (by simp) (by simp)]
          exact derived.andReturn fun _ _ _ lowered => .unary (by simp) (by simp) lowered
  | ⟨.binary op left right, pos, dataType, doCast⟩ => by
      rw [lowerExpr]
      refine (lowerExpr_derives scope left).bind ?_
      intro first left' mid loweredLeft
      refine (lowerExpr_derives mid right).andReturn ?_
      intro second right' next loweredRight
      exact .binary loweredLeft loweredRight
  | ⟨.instanceOf value className, pos, dataType, doCast⟩ => by
      rw [lowerExpr]
      refine (lowerExpr_derives scope value).andReturn ?_
      intro before value' next lowered
      exact .instanceOf lowered
  | ⟨.range kind low high, pos, dataType, doCast⟩ => by
      rw [lowerExpr]
      refine (lowerExpr_derives scope low).bind ?_
      intro first low' mid loweredLow
      refine (lowerExpr_derives mid high).andReturn ?_
      intro second high' next loweredHigh
      exact .range loweredLow loweredHigh
  | ⟨.ternary condition yes no, pos, dataType, doCast⟩ => by
      rw [lowerExpr]
      refine (lowerExpr_derives scope condition).bind ?_
      intro first condition' mid loweredCondition
      refine (lowerExpr_derives mid yes).bind ?_
      intro second yes' last loweredYes
      refine (lowerExpr_derives last no).andReturn ?_
      intro third no' next loweredNo
      rw [← List.append_assoc]
      exact .ternary loweredCondition loweredYes loweredNo
  | ⟨.cast typeName operand, pos, dataType, doCast⟩ => by
      rw [lowerExpr]
      refine (lowerExpr_derives scope operand).bind ?_
      intro before operand' next lowered
      split
      · rename_i castable
        refine ensures_pure ?_
        rw [List.append_nil]
        exact .cast lowered castable
      · rename_i other
        refine ensures_pure ?_
        rw [List.append_nil]
        exact .castHint lowered (by simpa using other)
  | ⟨.typeHint hint operand, pos, dataType, doCast⟩ => by
      rw [lowerExpr]
      refine (lowerExpr_derives scope operand).bind ?_
      intro before operand' next lowered
      cases named : hint.name? with
      | none =>
          refine ensures_pure ?_
          rw [List.append_nil]
          exact .strayHint lowered named
      | some name =>
          refine ensures_pure ?_
          rw [List.append_nil]
          exact .typeHint lowered named
  | ⟨.fetch target source, pos, dataType, doCast⟩ => by
      rw [lowerExpr]
      refine fetch_ensures (lowerExpr_derives scope source) ?_
      intro name before source' next named lowered
      exact .fetch named lowered
  | ⟨.closure parameters body locals, pos, dataType, doCast⟩ => by
      rw [lowerExpr]
      refine (lowerBlock_derives { locals, parameters } body).within.andReturn ?_
      rintro _ ⟨splice, _⟩ _ ⟨rfl, nothing, rfl, inner, rfl, none, lowered⟩
      exact .closure lowered
  | ⟨.closureArrow parameter body, pos, dataType, doCast⟩ => by
      rw [lowerExpr]
      cases named : parameter.asVar? with
      | none => exact ensures_fail
      | some name =>
          refine (lowerExpr_derives _ body).within.bind ?_
          rintro _ ⟨splice, _⟩ _ ⟨rfl, nothing, rfl, inner, rfl, lowered⟩
          refine ensures_ofExcept.andReturn ?_
          rintro _ body' _ ⟨rfl, returned, rfl⟩
          simp only at nothing
          have returns : body' = splice.before ++
              [{ kind := .ret (some splice.node), pos := splice.node.pos }] := by
            simpa [arrowBody, nothing, eq_comm] using returned
          rw [returns]
          exact .closureArrow named lowered

theorem lowerExprs_derives (scope : Scope) : (es : List Expr) →
    (lowerExprs es).Ensures scope (LowersExprs es scope)
  | [] => by
      rw [lowerExprs]
      exact ensures_pure .nil
  | e :: rest => by
      rw [lowerExprs]
      refine (lowerExpr_derives scope e).bind ?_
      intro first e' mid lowered
      refine (lowerExprs_derives mid rest).andReturn ?_
      intro second rest' next loweredRest
      exact .cons lowered loweredRest

theorem lowerOption_derives (scope : Scope) : (e : Option Expr) →
    (lowerOption e).Ensures scope (LowersOption e scope)
  | none => by
      rw [lowerOption]
      exact ensures_pure .none
  | some e => by
      rw [lowerOption]
      refine (lowerExpr_derives scope e).andReturn ?_
      intro before e' next lowered
      exact .some lowered

theorem lowerEntries_derives (scope : Scope) : (entries : List ArrayEntry) →
    (lowerEntries entries).Ensures scope (LowersEntries entries scope)
  | [] => by
      rw [lowerEntries]
      exact ensures_pure .nil
  | ⟨key, value⟩ :: rest => by
      rw [lowerEntries]
      refine (lowerOption_derives scope key).bind ?_
      intro first key' mid loweredKey
      refine (lowerExpr_derives mid value).bind ?_
      intro second value' last loweredValue
      refine (lowerEntries_derives last rest).andReturn ?_
      intro third rest' next loweredRest
      rw [← List.append_assoc]
      exact .cons loweredKey loweredValue loweredRest

theorem lowerBlock_derives (scope : Scope) : (body : List Statement) →
    (lowerBlock body).Ensures scope fun before body' next =>
      before = [] ∧ LowersBlock body scope body' next
  | [] => by
      rw [lowerBlock]
      exact ensures_pure ⟨rfl, .nil⟩
  | s :: rest => by
      rw [lowerBlock]
      refine (lowerStatement_derives scope s).isolate.bind ?_
      rintro _ splice mid ⟨rfl, nothing, lowered⟩
      refine (lowerBlock_derives mid rest).andReturn ?_
      rintro _ rest' next ⟨rfl, loweredRest⟩
      refine ⟨rfl, ?_⟩
      rw [Splice.toBlock, nothing, List.append_nil]
      exact .cons lowered loweredRest

theorem lowerStatement_derives (scope : Scope) : (s : Statement) →
    (lowerStatement s).Ensures scope fun before node next =>
      LowersStatement s scope (before ++ node.toList) next
  | ⟨kind, pos, docblocks⟩ => by
      refine (lowerStatement_ensures (lowerKind_derives scope pos kind)).mono ?_
      rintro before node next ⟨hoisted, kind', lowered, block⟩
      rw [block]
      exact .mk lowered

theorem lowerKind_derives (scope : Scope) (pos : Position) : (kind : StatementKind) →
    (lowerKind pos kind).Ensures scope (LowersKind pos kind scope)
  | .lets assignments => by
      rw [lowerKind]
      refine (lowerLets_derives scope assignments).andReturn ?_
      intro before _ next lowered
      exact .lets lowered
  | .declare dataType declared => by
      rw [lowerKind]
      refine ensures_modifyScope.bind ?_
      rintro _ _ _ ⟨rfl, rfl⟩
      refine (lowerInitial_derives _ declared).andReturn ?_
      intro before _ next lowered
      exact .declare lowered
  | .fetch e => by
      obtain ⟨kind, fetchPos, dataType, doCast⟩ := e
      cases kind with
      | fetch target source =>
          rw [lowerKind]
          refine fetch_ensures (lowerExpr_derives scope source) ?_
          intro name before source' next named lowered
          exact .fetch named lowered
      | _ =>
          rw [lowerKind]
          · exact ensures_fail
          · simp
  | .assign mode assign => by
      rw [lowerKind]
      refine (lowerAssign_derives scope assign).andReturn ?_
      intro before assign' next lowered
      exact .assign lowered
  | .echo expressions => by
      rw [lowerKind]
      refine (lowerExprs_derives scope expressions).andReturn ?_
      intro before expressions' next lowered
      exact .echo lowered
  | .effect kind e => by
      have derived := lowerExpr_derives scope e
      by_cases method : kind = .methodCall
      · subst method
        rw [lowerKind]
        refine derived.bind ?_
        intro before e' next lowered
        split
        · rename_i called
          refine ensures_pure ?_
          rw [List.append_nil]
          exact .effectCall lowered called
        · rename_i other
          refine ensures_pure ?_
          rw [List.append_nil]
          exact .effect lowered fun _ => other
      · rw [lowerKind]
        · refine derived.andReturn ?_
          intro before e' next lowered
          exact .effect lowered fun same => absurd same method
        · exact method
  | .ret value => by
      rw [lowerKind]
      refine (lowerOption_derives scope value).andReturn ?_
      intro before value' next lowered
      exact .ret lowered
  | .jump kind => by
      rw [lowerKind]
      · exact ensures_pure .jump
      all_goals simp
  | .empty => by
      rw [lowerKind]
      · exact ensures_pure .empty
      all_goals simp
  | .branch condition body elseIfs otherwise => by
      rw [lowerKind]
      refine (lowerExpr_derives scope condition).bind ?_
      intro first condition' mid loweredCondition
      refine (lowerBlock_derives mid body).bind ?_
      rintro _ body' last ⟨rfl, loweredBody⟩
      refine (lowerElseIfs_derives last elseIfs).bind ?_
      intro second elseIfs' rest loweredElseIfs
      cases otherwise with
      | none =>
          refine ensures_pure ?_
          rw [List.append_nil]
          exact .branch loweredCondition loweredBody loweredElseIfs .none
      | some final =>
          refine (lowerBlock_derives rest final).andReturn ?_
          rintro _ final' next ⟨rfl, loweredFinal⟩
          rw [List.append_nil]
          exact .branch loweredCondition loweredBody loweredElseIfs (.some loweredFinal)
  | .whileLoop kind condition body => by
      rw [lowerKind]
      refine (lowerExpr_derives scope condition).bind ?_
      intro before condition' mid loweredCondition
      refine (lowerBlock_derives mid body).andReturn ?_
      rintro _ body' next ⟨rfl, loweredBody⟩
      rw [List.append_nil]
      exact .whileLoop loweredCondition loweredBody
  | .loop body => by
      rw [lowerKind]
      refine (lowerBlock_derives scope body).andReturn ?_
      rintro _ body' next ⟨rfl, loweredBody⟩
      exact .loop loweredBody
  | .forLoop head iterated body => by
      rw [lowerKind]
      refine loopNames_ensures.runs.bind ?_
      rintro _ ⟨key, value⟩ named ⟨names, rfl⟩
      refine (lowerExpr_derives named iterated).bind ?_
      intro first iterated' mid loweredIterated
      refine loopStart_ensures.runs.bind ?_
      rintro second start last ⟨starts, _⟩
      refine (lowerBlock_derives last body).andReturn ?_
      rintro _ body' next ⟨rfl, loweredBody⟩
      rw [List.append_nil, List.nil_append]
      exact .forLoop names loweredIterated starts loweredBody
  | .switch subject clauses => by
      rw [lowerKind]
      refine (lowerExpr_derives scope subject).bind ?_
      intro first subject' mid loweredSubject
      refine (lowerClauses_derives mid clauses).andReturn ?_
      intro second clauses' next loweredClauses
      exact .switch loweredSubject loweredClauses
  | .tryCatch body [] => by
      rw [lowerKind]
      refine (lowerBlock_derives scope body).bind ?_
      rintro _ body' mid ⟨rfl, loweredBody⟩
      refine defaultCatch_ensures.andReturn ?_
      rintro _ _ next ⟨rfl, name, fresh, rfl⟩
      exact .tryAlone loweredBody fresh
  | .tryCatch body (clause :: catches) => by
      rw [lowerKind]
      · refine (lowerBlock_derives scope body).bind ?_
        rintro _ body' mid ⟨rfl, loweredBody⟩
        refine (lowerCatches_derives mid (clause :: catches)).andReturn ?_
        rintro _ catches' next ⟨rfl, loweredCatches⟩
        exact .tryCatch loweredBody loweredCatches
      · simp
  | .comment text => by
      rw [lowerKind]
      · exact ensures_pure .comment
      all_goals simp
  | .cblock text => by
      rw [lowerKind]
      exact ensures_pure .cblock

theorem lowerAssign_derives (scope : Scope) : (assign : Assign) →
    (lowerAssign assign).Ensures scope (LowersAssign assign scope)
  | ⟨target, operator, base, property, index, value⟩ => by
      rw [lowerAssign]
      refine (lowerOption_derives scope value).bind ?_
      intro first value' mid loweredValue
      refine (lowerExprs_derives mid index).andReturn ?_
      intro second index' next loweredIndex
      exact .mk loweredValue loweredIndex

theorem lowerLets_derives (scope : Scope) : (assignments : List LetAssignment) →
    (lowerLets assignments).Ensures scope fun before _ next =>
      LowersLets assignments scope before next
  | [] => by
      rw [lowerLets]
      exact ensures_pure .nil
  | ⟨⟨target, operator, base, property, index, value⟩, pos⟩ :: rest => by
      rw [lowerLets]
      refine resolveTarget_ensures.runs.bind ?_
      rintro opening ⟨mode, location⟩ named ⟨resolved, _⟩
      refine (assigned_ensures location (lowerOption_derives named value)
        fun mid => lowerExprs_derives mid index).isolate.bind ?_
      rintro _ splice last ⟨rfl, nothing, first, value', mid, second, index', loweredValue,
        loweredIndex, beforeEq, nodeEq⟩
      refine ensures_hoist.bind ?_
      rintro _ _ last ⟨rfl, rfl⟩
      refine (lowerLets_derives last rest).mono ?_
      intro later _ next loweredRest
      rw [nothing, List.append_nil, beforeEq, nodeEq, List.nil_append, ← List.append_assoc]
      exact .cons resolved loweredValue loweredIndex loweredRest

theorem lowerInitial_derives (scope : Scope) : (declared : List DeclaredVariable) →
    (lowerInitial declared).Ensures scope fun before _ next =>
      LowersInitial declared scope before next
  | [] => by
      rw [lowerInitial]
      exact ensures_pure .nil
  | ⟨name, none, pos⟩ :: rest => by
      rw [lowerInitial]
      refine (lowerInitial_derives scope rest).mono ?_
      intro later _ next loweredRest
      exact .unset loweredRest
  | ⟨name, some value, pos⟩ :: rest => by
      rw [lowerInitial]
      have assigned : (do
          let value ← lowerExpr value
          pure (Assign.set name value)).Ensures scope fun before assign next =>
            ∃ value', LowersExpr value scope before value' next ∧ assign = Assign.set name value' :=
        (lowerExpr_derives scope value).andReturn fun _ value' _ lowered => ⟨value', lowered, rfl⟩
      refine assigned.isolate.bind ?_
      rintro _ splice mid ⟨rfl, nothing, value', loweredValue, nodeEq⟩
      refine ensures_hoist.bind ?_
      rintro _ _ mid ⟨rfl, rfl⟩
      refine (lowerInitial_derives mid rest).mono ?_
      intro later _ next loweredRest
      rw [nothing, List.append_nil, nodeEq, List.nil_append]
      exact .set loweredValue loweredRest

theorem lowerElseIfs_derives (scope : Scope) : (elseIfs : List ElseIf) →
    (lowerElseIfs elseIfs).Ensures scope (LowersElseIfs elseIfs scope)
  | [] => by
      rw [lowerElseIfs]
      exact ensures_pure .nil
  | ⟨condition, body, pos⟩ :: rest => by
      rw [lowerElseIfs]
      refine (lowerExpr_derives scope condition).bind ?_
      intro first condition' mid loweredCondition
      refine (lowerBlock_derives mid body).bind ?_
      rintro _ body' last ⟨rfl, loweredBody⟩
      refine (lowerElseIfs_derives last rest).andReturn ?_
      intro second rest' next loweredRest
      exact .cons loweredCondition loweredBody loweredRest

theorem lowerClauses_derives (scope : Scope) : (clauses : List SwitchClause) →
    (lowerClauses clauses).Ensures scope (LowersClauses clauses scope)
  | [] => by
      rw [lowerClauses]
      exact ensures_pure .nil
  | ⟨test, body⟩ :: rest => by
      rw [lowerClauses]
      refine (lowerOption_derives scope test).bind ?_
      intro first test' mid loweredTest
      refine (lowerBlock_derives mid body).bind ?_
      rintro _ body' last ⟨rfl, loweredBody⟩
      refine (lowerClauses_derives last rest).andReturn ?_
      intro second rest' next loweredRest
      exact .cons loweredTest loweredBody loweredRest

theorem lowerCatches_derives (scope : Scope) : (catches : List Catch) →
    (lowerCatches catches).Ensures scope fun before catches' next =>
      before = [] ∧ LowersCatches catches scope catches' next
  | [] => by
      rw [lowerCatches]
      exact ensures_pure ⟨rfl, .nil⟩
  | ⟨classes, binding, body, pos⟩ :: rest => by
      rw [lowerCatches]
      refine (lowerBlock_derives scope body).bind ?_
      rintro _ body' mid ⟨rfl, loweredBody⟩
      refine catchBinding_ensures.runs.bind ?_
      rintro _ binding' last ⟨bound, rfl, _⟩
      refine (lowerCatches_derives last rest).andReturn ?_
      rintro _ rest' next ⟨rfl, loweredRest⟩
      exact ⟨rfl, .cons loweredBody bound loweredRest⟩

end

end Zephir
