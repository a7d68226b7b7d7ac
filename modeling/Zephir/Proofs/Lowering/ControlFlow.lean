import Zephir.Proofs.Lowering.Hoisting

/-!
Lowering keeps the control flow of a block. Each statement turns into a stretch of the lowered
block: the assignments hoisted out of its expressions, and then the statement itself with the same
blocks. What turns into assignments altogether has no part in the control flow, so that once all
assignments are left out the two blocks have the same outline.
-/

namespace Zephir
open Lowering

inductive LetsBecome : List LetAssignment → List Statement → Prop
  | nil : LetsBecome [] []
  | cons {assign pos rest hoisted mode assign' later} (assigns : ∀ s ∈ hoisted, IsHoisted s)
      (others : LetsBecome rest later) :
      LetsBecome (⟨assign, pos⟩ :: rest) (hoisted ++ ⟨.assign mode assign', pos, []⟩ :: later)

inductive InitialBecome : List DeclaredVariable → List Statement → Prop
  | nil : InitialBecome [] []
  | unset {name pos rest later} (others : InitialBecome rest later) :
      InitialBecome (⟨name, none, pos⟩ :: rest) later
  | set {name value value' pos rest hoisted later} (assigns : ∀ s ∈ hoisted, IsHoisted s)
      (others : InitialBecome rest later) :
      InitialBecome (⟨name, some value, pos⟩ :: rest)
        (hoisted ++ .assignTo name value' pos :: later)

inductive Dissolves : StatementKind → List Statement → Prop
  | lets {assignments statements} (become : LetsBecome assignments statements) :
      Dissolves (.lets assignments) statements
  | declare {dataType declared statements} (become : InitialBecome declared statements) :
      Dissolves (.declare dataType declared) statements
  | fetch {e statements} (assigns : ∀ s ∈ statements, IsHoisted s) :
      Dissolves (.fetch e) statements
  | cblock {text} : Dissolves (.cblock text) []

mutual

/-- The lowered block has a stretch for each statement of the block, in the same order. -/
inductive Follows : List Statement → List Statement → Prop
  | nil : Follows [] []
  | cons {s stretch rest rest'} (first : Becomes s stretch) (others : Follows rest rest') :
      Follows (s :: rest) (stretch ++ rest')

/-- A stretch ends with the statement itself, at the same place, behind what is hoisted out of it.
The comments are above the first statement of the stretch. -/
inductive Becomes : Statement → List Statement → Prop
  | stays {kind kind' pos docblocks hoisted} (assigns : ∀ s ∈ hoisted, IsHoisted s)
      (same : Keeps kind kind') :
      Becomes ⟨kind, pos, docblocks⟩ (headDocs docblocks (hoisted ++ [⟨kind', pos, []⟩]))
  | dissolves {kind pos docblocks statements} (turned : Dissolves kind statements) :
      Becomes ⟨kind, pos, docblocks⟩ (headDocs docblocks statements)

/-- A statement that stays is of the same kind, and so are the blocks in it. Only a method call may
turn into a function call. -/
inductive Keeps : StatementKind → StatementKind → Prop
  | assign {mode assign assign'} : Keeps (.assign mode assign) (.assign mode assign')
  | echo {expressions expressions'} : Keeps (.echo expressions) (.echo expressions')
  | effect {kind e e'} : Keeps (.effect kind e) (.effect kind e')
  | effectCall {e e'} : Keeps (.effect .methodCall e) (.effect .call e')
  | ret {value value'} : Keeps (.ret value) (.ret value')
  | jump {kind} : Keeps (.jump kind) (.jump kind)
  | empty : Keeps .empty .empty
  | comment {text} : Keeps (.comment text) (.comment text)
  | branch {condition condition' body body' elseIfs elseIfs' otherwise otherwise'}
      (yes : Follows body body') (others : ElseIfsFollow elseIfs elseIfs')
      (final : OtherwiseFollows otherwise otherwise') :
      Keeps (.branch condition body elseIfs otherwise)
        (.branch condition' body' elseIfs' otherwise')
  | whileLoop {kind condition condition' body body'} (inner : Follows body body') :
      Keeps (.whileLoop kind condition body) (.whileLoop kind condition' body')
  | loop {body body'} (inner : Follows body body') : Keeps (.loop body) (.loop body')
  | forLoop {head head' iterated iterated' opening body body'}
      (assigns : ∀ s ∈ opening, IsHoisted s) (inner : Follows body body') :
      Keeps (.forLoop head iterated body) (.forLoop head' iterated' (opening ++ body'))
  | switch {subject subject' clauses clauses'} (inner : ClausesFollow clauses clauses') :
      Keeps (.switch subject clauses) (.switch subject' clauses')
  | tryAlone {body body' className binding pos} (inner : Follows body body') :
      Keeps (.tryCatch body []) (.tryCatch body' [⟨[className], binding, [], pos⟩])
  | tryCatch {body body' clause catches catches'} (inner : Follows body body')
      (handlers : CatchesFollow (clause :: catches) catches') :
      Keeps (.tryCatch body (clause :: catches)) (.tryCatch body' catches')

inductive ElseIfsFollow : List ElseIf → List ElseIf → Prop
  | nil : ElseIfsFollow [] []
  | cons {condition condition' body body' pos rest rest'} (inner : Follows body body')
      (others : ElseIfsFollow rest rest') :
      ElseIfsFollow (⟨condition, body, pos⟩ :: rest) (⟨condition', body', pos⟩ :: rest')

inductive OtherwiseFollows : Option (List Statement) → Option (List Statement) → Prop
  | none : OtherwiseFollows none none
  | some {body body'} (inner : Follows body body') : OtherwiseFollows (some body) (some body')

inductive ClausesFollow : List SwitchClause → List SwitchClause → Prop
  | nil : ClausesFollow [] []
  | cons {test test' body body' rest rest'} (tested : test'.isSome = test.isSome)
      (inner : Follows body body') (others : ClausesFollow rest rest') :
      ClausesFollow (⟨test, body⟩ :: rest) (⟨test', body'⟩ :: rest')

/-- One `catch` for each class, or a single one if there is none. They are consecutive, at the same
place and with the same body. -/
inductive CatchesFollow : List Catch → List Catch → Prop
  | nil : CatchesFollow [] []
  | cons {classes binding body body' pos rest rest' split} (inner : Follows body body')
      (counted : split.length = max 1 classes.length)
      (equal : ∀ clause ∈ split,
        clause.classes.length = 1 ∧ clause.body = body' ∧ clause.pos = pos)
      (others : CatchesFollow rest rest') :
      CatchesFollow (⟨classes, binding, body, pos⟩ :: rest) (split ++ rest')

end

theorem LowersOption.isSome_eq {e e' : Option Expr} {scope next : Scope}
    {before : List Statement} (lowered : LowersOption e scope before e' next) :
    e'.isSome = e.isSome := by
  cases lowered <;> rfl

theorem LowersLets.become {assignments : List LetAssignment} {scope next : Scope}
    {statements : List Statement} (lowered : LowersLets assignments scope statements next) :
    LetsBecome assignments statements := by
  induction assignments generalizing scope statements with
  | nil =>
      cases lowered
      exact .nil
  | cons assignment others ih =>
      cases lowered with
      | cons resolved value index rest =>
          rw [← List.append_assoc, List.append_assoc _ [_], List.singleton_append]
          refine .cons ?_ (ih rest)
          simp only [List.forall_mem_append]
          exact ⟨resolveTarget_hoisted resolved, value.hoisted, index.hoisted⟩

theorem LowersInitial.become {declared : List DeclaredVariable} {scope next : Scope}
    {statements : List Statement} (lowered : LowersInitial declared scope statements next) :
    InitialBecome declared statements := by
  induction declared generalizing scope statements with
  | nil =>
      cases lowered
      exact .nil
  | cons first others ih =>
      cases lowered with
      | unset rest => exact .unset (ih rest)
      | set value rest =>
          rw [List.append_assoc, List.singleton_append]
          exact .set value.hoisted (ih rest)

theorem splitCatch_follows {classes : List Expr} {binding : Expr} {body : List Statement}
    {pos : Position} :
    (splitCatch (if classes.isEmpty then [baseException pos] else classes) binding body
        pos).length = max 1 classes.length ∧
      ∀ clause ∈ splitCatch (if classes.isEmpty then [baseException pos] else classes) binding body
        pos, clause.classes.length = 1 ∧ clause.body = body ∧ clause.pos = pos := by
  cases classes with
  | nil => simp [splitCatch]
  | cons first rest =>
      refine ⟨by simp [splitCatch], ?_⟩
      simp [splitCatch]

mutual

theorem LowersBlock.follows {body body' : List Statement} {scope next : Scope} :
    LowersBlock body scope body' next → Follows body body'
  | .nil => .nil
  | .cons first rest => .cons first.becomes rest.follows

theorem LowersStatement.becomes {s : Statement} {scope next : Scope} {stretch : List Statement} :
    LowersStatement s scope stretch next → Becomes s stretch
  | .mk lowered => lowered.becomes

theorem LowersKind.becomes {pos : Position} {docblocks : List Docblock} {kind : StatementKind}
    {scope next : Scope} {before : List Statement} {kind' : Option StatementKind} :
    LowersKind pos kind scope before kind' next → Becomes ⟨kind, pos, docblocks⟩
      (headDocs docblocks (before ++ (kind'.map fun kind => ⟨kind, pos, []⟩).toList))
  | .lets lowered => by
      rw [Option.map_none, Option.toList_none, List.append_nil]
      exact .dissolves (.lets lowered.become)
  | .declare lowered => by
      rw [Option.map_none, Option.toList_none, List.append_nil]
      exact .dissolves (.declare lowered.become)
  | .fetch _ lowered => by
      rw [Option.map_none, Option.toList_none, List.append_nil]
      refine .dissolves (.fetch ?_)
      simp only [List.forall_mem_append, List.forall_mem_singleton]
      exact ⟨lowered.hoisted, isHoisted_assignTo _ _ _⟩
  | .assign lowered => .stays lowered.hoisted .assign
  | .echo lowered => .stays lowered.hoisted .echo
  | .effect lowered _ => .stays lowered.hoisted .effect
  | .effectCall lowered _ => .stays lowered.hoisted .effectCall
  | .ret lowered => .stays lowered.hoisted .ret
  | .jump => .stays (by simp) .jump
  | .empty => .stays (by simp) .empty
  | .branch condition body elseIfs otherwise =>
      .stays (List.forall_mem_append.mpr ⟨condition.hoisted, elseIfs.hoisted⟩)
        (.branch body.follows elseIfs.follow otherwise.follows)
  | .whileLoop condition body => .stays condition.hoisted (.whileLoop body.follows)
  | .loop body => .stays (by simp) (.loop body.follows)
  | .forLoop _ iterated starts body => by
      obtain ⟨stored, opening⟩ := loopStart_hoisted starts
      exact .stays (List.forall_mem_append.mpr ⟨iterated.hoisted, stored⟩)
        (.forLoop opening body.follows)
  | .switch subject clauses =>
      .stays (List.forall_mem_append.mpr ⟨subject.hoisted, clauses.hoisted⟩)
        (.switch clauses.follow)
  | .tryAlone body _ => .stays (by simp) (.tryAlone body.follows)
  | .tryCatch body catches => .stays (by simp) (.tryCatch body.follows catches.follow)
  | .comment => .stays (by simp) .comment
  | .cblock => .dissolves .cblock

theorem LowersElseIfs.follow {elseIfs elseIfs' : List ElseIf} {scope next : Scope}
    {before : List Statement} :
    LowersElseIfs elseIfs scope before elseIfs' next → ElseIfsFollow elseIfs elseIfs'
  | .nil => .nil
  | .cons _ body rest => .cons body.follows rest.follow

theorem LowersOtherwise.follows {otherwise otherwise' : Option (List Statement)}
    {scope next : Scope} :
    LowersOtherwise otherwise scope otherwise' next → OtherwiseFollows otherwise otherwise'
  | .none => .none
  | .some body => .some body.follows

theorem LowersClauses.follow {clauses clauses' : List SwitchClause} {scope next : Scope}
    {before : List Statement} :
    LowersClauses clauses scope before clauses' next → ClausesFollow clauses clauses'
  | .nil => .nil
  | .cons test body rest => .cons test.isSome_eq body.follows rest.follow

theorem LowersCatches.follow {catches catches' : List Catch} {scope next : Scope} :
    LowersCatches catches scope catches' next → CatchesFollow catches catches'
  | .nil => .nil
  | .cons body _ rest =>
      .cons body.follows splitCatch_follows.1 splitCatch_follows.2 rest.follow

end

inductive Arm
  | body
  | elseIf (pos : Position)
  | otherwise
  | case
  | fallback
  | handler (classes : Nat) (pos : Position)
  deriving DecidableEq

inductive Flow
  | mk (form : StatementForm) (pos : Position) (arms : List (Arm × List Flow))

/-- The forms that control flow is told without: assignments and what turns into them. -/
def StatementForm.isErased : StatementForm → Bool
  | .lets => true
  | .declare => true
  | .fetch => true
  | .cblock => true
  | .assign _ => true
  | _ => false

mutual

def flow : List Statement → List Flow
  | [] => []
  | ⟨kind, pos, _⟩ :: rest =>
    if kind.form.isErased then flow rest else .mk kind.form pos (arms kind) :: flow rest

def arms : StatementKind → List (Arm × List Flow)
  | .branch _ body elseIfs otherwise =>
    (.body, flow body) :: elseIfArms elseIfs ++ otherwiseArms otherwise
  | .whileLoop _ _ body => [(.body, flow body)]
  | .loop body => [(.body, flow body)]
  | .forLoop _ _ body => [(.body, flow body)]
  | .switch _ clauses => clauseArms clauses
  | .tryCatch body catches => (.body, flow body) :: catchArms catches
  | _ => []

def elseIfArms : List ElseIf → List (Arm × List Flow)
  | [] => []
  | ⟨_, body, pos⟩ :: rest => (.elseIf pos, flow body) :: elseIfArms rest

def otherwiseArms : Option (List Statement) → List (Arm × List Flow)
  | none => []
  | some body => [(.otherwise, flow body)]

def clauseArms : List SwitchClause → List (Arm × List Flow)
  | [] => []
  | ⟨test, body⟩ :: rest =>
    (if test.isSome then .case else .fallback, flow body) :: clauseArms rest

def catchArms : List Catch → List (Arm × List Flow)
  | [] => []
  | ⟨classes, _, body, pos⟩ :: rest => (.handler classes.length pos, flow body) :: catchArms rest

end

mutual

/-- Statements of the same forms at the same places, in the same order. A method call may be a
function call instead, and a `try` without a handler has an empty one. -/
inductive FlowKept : List Flow → List Flow → Prop
  | nil : FlowKept [] []
  | same {form pos arms arms' rest rest'} (handled : form = .tryCatch → 1 < arms.length)
      (inner : ArmsKept arms arms') (others : FlowKept rest rest') :
      FlowKept (.mk form pos arms :: rest) (.mk form pos arms' :: rest')
  | call {pos rest rest'} (others : FlowKept rest rest') :
      FlowKept (.mk (.effect .methodCall) pos [] :: rest) (.mk (.effect .call) pos [] :: rest')
  | handler {pos catchPos block block' rest rest'} (inner : FlowKept block block')
      (others : FlowKept rest rest') :
      FlowKept (.mk .tryCatch pos [(.body, block)] :: rest)
        (.mk .tryCatch pos [(.body, block'), (.handler 1 catchPos, [])] :: rest')

inductive ArmsKept : List (Arm × List Flow) → List (Arm × List Flow) → Prop
  | nil : ArmsKept [] []
  | same {arm block block' rest rest'} (plain : ∀ classes pos, arm ≠ .handler classes pos)
      (inner : FlowKept block block') (others : ArmsKept rest rest') :
      ArmsKept ((arm, block) :: rest) ((arm, block') :: rest')
  | split {classes pos block block' rest rest'} (inner : FlowKept block block')
      (others : ArmsKept rest rest') :
      ArmsKept ((.handler classes pos, block) :: rest)
        (List.replicate (max 1 classes) (.handler 1 pos, block') ++ rest')

end

theorem flow_cons (s : Statement) (rest : List Statement) :
    flow (s :: rest) = flow [s] ++ flow rest := by
  obtain ⟨kind, pos, docblocks⟩ := s
  rw [flow, flow, flow]
  split <;> rfl

theorem flow_append (left right : List Statement) :
    flow (left ++ right) = flow left ++ flow right := by
  induction left with
  | nil => simp [flow]
  | cons s rest ih => rw [List.cons_append, flow_cons, ih, flow_cons s rest, List.append_assoc]

theorem flow_hoisted {statements : List Statement} (assigns : ∀ s ∈ statements, IsHoisted s) :
    flow statements = [] := by
  induction statements with
  | nil => simp [flow]
  | cons s rest ih =>
      rw [List.forall_mem_cons] at assigns
      obtain ⟨⟨name, value, pos, rfl⟩, others⟩ := assigns
      rw [flow_cons, ih others]
      rfl

theorem flow_headDocs (docblocks : List Docblock) (statements : List Statement) :
    flow (headDocs docblocks statements) = flow statements := by
  cases statements with
  | nil => rfl
  | cons s rest =>
      obtain ⟨kind, pos, own⟩ := s
      rw [headDocs, Statement.prependDocs, flow, flow]

theorem FlowKept.append {left left' right right' : List Flow} (first : FlowKept left left')
    (second : FlowKept right right') : FlowKept (left ++ right) (left' ++ right') := by
  induction left generalizing left' with
  | nil =>
      cases first
      exact second
  | cons flow rest ih =>
      cases first with
      | same handled inner others => exact .same handled inner (ih others)
      | call others => exact .call (ih others)
      | handler inner others => exact .handler inner (ih others)

theorem ArmsKept.append {left left' right right' : List (Arm × List Flow)}
    (first : ArmsKept left left') (second : ArmsKept right right') :
    ArmsKept (left ++ right) (left' ++ right') := by
  induction left generalizing left' with
  | nil =>
      cases first
      exact second
  | cons arm rest ih =>
      cases first with
      | same plain inner others => exact .same plain inner (ih others)
      | split inner others =>
          rw [List.append_assoc]
          exact .split inner (ih others)

theorem LetsBecome.flow_eq_nil {assignments : List LetAssignment} {statements : List Statement}
    (become : LetsBecome assignments statements) : flow statements = [] := by
  induction become with
  | nil => rfl
  | cons assigns others ih =>
      rw [flow_append, flow_hoisted assigns, flow_cons, ih]
      rfl

theorem InitialBecome.flow_eq_nil {declared : List DeclaredVariable} {statements : List Statement}
    (become : InitialBecome declared statements) : flow statements = [] := by
  induction become with
  | nil => rfl
  | unset others ih => exact ih
  | set assigns others ih =>
      rw [flow_append, flow_hoisted assigns, flow_cons, ih]
      rfl

theorem Dissolves.flow_eq_nil {kind : StatementKind} {statements : List Statement}
    (turned : Dissolves kind statements) :
    kind.form.isErased = true ∧ flow statements = [] := by
  cases turned with
  | lets become => exact ⟨rfl, become.flow_eq_nil⟩
  | declare become => exact ⟨rfl, become.flow_eq_nil⟩
  | fetch assigns => exact ⟨rfl, flow_hoisted assigns⟩
  | cblock => exact ⟨rfl, by simp [flow]⟩

theorem length_catchArms (catches : List Catch) : (catchArms catches).length = catches.length := by
  induction catches with
  | nil => rfl
  | cons clause rest ih =>
      obtain ⟨classes, binding, body, pos⟩ := clause
      rw [catchArms, List.length_cons, ih, List.length_cons]

theorem catchArms_split {split : List Catch} {body : List Statement} {pos : Position}
    (equal : ∀ clause ∈ split,
      clause.classes.length = 1 ∧ clause.body = body ∧ clause.pos = pos) (rest : List Catch) :
    catchArms (split ++ rest) =
      List.replicate split.length (.handler 1 pos, flow body) ++ catchArms rest := by
  induction split with
  | nil => rfl
  | cons clause others ih =>
      rw [List.forall_mem_cons] at equal
      obtain ⟨classes, binding, inner, catchPos⟩ := clause
      obtain ⟨⟨single, rfl, rfl⟩, same⟩ := equal
      simp only at single
      rw [List.cons_append, catchArms, ih same, single, List.length_cons, List.replicate_succ]
      rfl

mutual

theorem Follows.flowKept {body body' : List Statement} :
    Follows body body' → FlowKept (flow body) (flow body')
  | .nil => .nil
  | .cons first others => by
      rw [flow_cons, flow_append]
      exact first.flowKept.append others.flowKept

theorem Becomes.flowKept {s : Statement} {stretch : List Statement} :
    Becomes s stretch → FlowKept (flow [s]) (flow stretch)
  | .stays assigns same => by
      rw [flow_headDocs, flow_append, flow_hoisted assigns, List.nil_append]
      exact same.flowKept
  | .dissolves turned => by
      obtain ⟨erased, gone⟩ := turned.flow_eq_nil
      rw [flow_headDocs, gone, flow, if_pos erased]
      exact .nil

theorem Keeps.flowKept {kind kind' : StatementKind} {pos : Position}
    {docblocks docblocks' : List Docblock} :
    Keeps kind kind' → FlowKept (flow [⟨kind, pos, docblocks⟩]) (flow [⟨kind', pos, docblocks'⟩])
  | .assign => .nil
  | .echo => .same nofun .nil .nil
  | .effect => .same nofun .nil .nil
  | .effectCall => .call .nil
  | .ret => .same nofun .nil .nil
  | .jump => .same nofun .nil .nil
  | .empty => .same nofun .nil .nil
  | .comment => .same nofun .nil .nil
  | .branch yes others final =>
      .same nofun (.same nofun yes.flowKept (others.armsKept.append final.armsKept)) .nil
  | .whileLoop inner => .same nofun (.same nofun inner.flowKept .nil) .nil
  | .loop inner => .same nofun (.same nofun inner.flowKept .nil) .nil
  | .forLoop assigns inner => by
      refine .same nofun (.same nofun ?_ .nil) .nil
      rw [flow_append, flow_hoisted assigns, List.nil_append]
      exact inner.flowKept
  | .switch inner => .same nofun inner.armsKept .nil
  | .tryAlone inner => .handler inner.flowKept .nil
  | .tryCatch inner handlers =>
      .same (by simp [arms, length_catchArms])
        (.same nofun inner.flowKept handlers.armsKept) .nil

theorem ElseIfsFollow.armsKept {elseIfs elseIfs' : List ElseIf} :
    ElseIfsFollow elseIfs elseIfs' → ArmsKept (elseIfArms elseIfs) (elseIfArms elseIfs')
  | .nil => .nil
  | .cons inner others => .same nofun inner.flowKept others.armsKept

theorem OtherwiseFollows.armsKept {otherwise otherwise' : Option (List Statement)} :
    OtherwiseFollows otherwise otherwise' →
      ArmsKept (otherwiseArms otherwise) (otherwiseArms otherwise')
  | .none => .nil
  | .some inner => .same nofun inner.flowKept .nil

theorem ClausesFollow.armsKept {clauses clauses' : List SwitchClause} :
    ClausesFollow clauses clauses' → ArmsKept (clauseArms clauses) (clauseArms clauses')
  | .nil => .nil
  | .cons tested inner others => by
      rw [clauseArms, clauseArms, tested]
      refine .same ?_ inner.flowKept others.armsKept
      split <;> simp

theorem CatchesFollow.armsKept {catches catches' : List Catch} :
    CatchesFollow catches catches' → ArmsKept (catchArms catches) (catchArms catches')
  | .nil => .nil
  | .cons inner counted equal others => by
      rw [catchArms_split equal, counted]
      exact .split inner.flowKept others.armsKept

end

/-- Lowering keeps the control flow of a block. -/
theorem lowerBlock_keeps_flow {body : List Statement} {scope next : Scope}
    {splice : Splice (List Statement)} (ran : lowerBlock body scope = .ok (splice, next)) :
    splice.before = [] ∧ splice.after = [] ∧ Follows body splice.node ∧
      FlowKept (flow body) (flow splice.node) := by
  obtain ⟨nothing, none, derived⟩ := lowerBlock_derives scope body splice next ran
  exact ⟨none, nothing, derived.follows, derived.follows.flowKept⟩

def flowSample : List Statement :=
  let pos : Position := { file := "sample.zep", line := 4, column := 9 }
  let name := Expr.var "name" pos
  [ { kind := .branch (.plain (.fetch (.var "found" pos) name) pos) [{ kind := .ret none, pos }]
        [] none
      pos
      docblocks := [⟨.one "Looks it up.", true, true, pos⟩] },
    { kind := .effect .methodCall (.plain (.methodCall name "trim" 1 []) pos), pos },
    { kind := .forLoop ⟨none, some "char", true, false, none⟩ name [{ kind := .empty, pos }], pos },
    { kind := .tryCatch [] [], pos },
    { kind := .tryCatch [] [⟨[.var "First" pos, .var "Second" pos], none, [], pos⟩], pos } ]

def flowScope : Scope :=
  { locals := OrderedMap.empty.insert "name" ⟨"string", {}⟩, parameters := [] }

theorem flowSample_kept : ∃ splice next,
    lowerBlock flowSample flowScope = .ok (splice, next) ∧ splice.node.length = 8 ∧
      Follows flowSample splice.node ∧ FlowKept (flow flowSample) (flow splice.node) := by
  obtain ⟨splice, next, ran, count⟩ : ∃ splice next,
      lowerBlock flowSample flowScope = .ok (splice, next) ∧ splice.node.length = 8 :=
    ⟨_, _, rfl, rfl⟩
  exact ⟨splice, next, ran, count, (lowerBlock_keeps_flow ran).2.2⟩

end Zephir
