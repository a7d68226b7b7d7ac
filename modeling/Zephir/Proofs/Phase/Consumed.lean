import Mathlib.Tactic.Tauto
import Zephir.Proofs.Compile.Refinement
import Zephir.Proofs.Phase.Attaching
import Zephir.Proofs.Syntax.Every

/-!
Which comments are gone once they are attached. In the blocks of functions and methods none is left,
at any depth: each is blank, or nothing but comments follows it in its block, or it is among the
docblocks of the statement that follows. Expressions are not looked into, so the comments in the
bodies of closures all stay where they are.
-/

namespace Zephir

/-! ## The phase on its own -/

def Members.attach (m : Members) : Members :=
  { m with
    constants := m.constants.mapValues Constant.attach
    properties := m.properties.mapValues Property.attach
    methods := m.methods.mapValues Method.attach }

def Node.attachAll (waiting : List Docblock) (n : Node) : Node :=
  match n.attach waiting with
  | ⟨.classDecl decl, pos, docblocks⟩ =>
    ⟨.classDecl { decl with members := decl.members.attach }, pos, docblocks⟩
  | ⟨.interfaceDecl decl, pos, docblocks⟩ =>
    ⟨.interfaceDecl { decl with members := decl.members.attach }, pos, docblocks⟩
  | n => n

section

open PhaseStep

variable {σ α : Type} {state : σ} {owner : Members}

theorem runSection_single {hook : MemberHook σ α} {f : α → α}
    (each : ∀ owner member state, hook owner member state = .ok ((some (f member), owner), state))
    (map : OrderedMap α) :
    Phase.runSection [hook] owner .empty map.entries state =
      .ok ((map.mapValues f, owner), state) := by
  have runs : ∀ (entries : List (String × α)) (kept made : OrderedMap α),
      made.entries = kept.entries ++ entries.map (fun entry => (entry.1, f entry.2)) →
      Phase.runSection [hook] owner kept entries state = .ok ((made, owner), state) := by
    intro entries
    induction entries with
    | nil =>
        intro kept made listed
        have same : made = kept := OrderedMap.eq_of_entries (by simpa using listed)
        rw [same]
        rfl
    | cons entry rest ih =>
        intro kept made listed
        obtain ⟨name, member⟩ := entry
        have absent : name ∉ kept.keys :=
          OrderedMap.notMem_keys_of_get? (OrderedMap.get?_of_entries listed)
        have ran : Phase.runMember [hook] owner member state =
            .ok ((some (f member), owner), state) := by
          rw [Phase.runMember, bind_of_ok (each owner member state)]
          rfl
        rw [Phase.runSection, bind_of_ok ran]
        refine ih (kept.insert name (f member)) made ?_
        rw [listed, OrderedMap.entries_insert_of_notMem absent]
        simp
  exact runs map.entries .empty (map.mapValues f) rfl

end

open PhaseStep

variable {queue : List Docblock}

theorem runMembers_attach (m : Members) :
    Phase.runMembers [attachComments .whole] m queue = .ok (m.attach, queue) := by
  have constants : Phase.runSection [(attachComments .whole).constant]
      { m with constants := .empty } .empty m.constants.entries queue =
      .ok ((m.constants.mapValues Constant.attach, { m with constants := .empty }), queue) :=
    runSection_single (fun _ _ _ => rfl) m.constants
  let owner := { m with constants := m.constants.mapValues Constant.attach }
  have properties : Phase.runSection [(attachComments .whole).property]
      { owner with properties := .empty } .empty owner.properties.entries queue =
      .ok ((m.properties.mapValues Property.attach, { owner with properties := .empty }), queue) :=
    runSection_single (fun _ _ _ => rfl) m.properties
  let owner := { owner with properties := m.properties.mapValues Property.attach }
  have methods : Phase.runSection [(attachComments .whole).method]
      { owner with methods := .empty } .empty owner.methods.entries queue =
      .ok ((m.methods.mapValues Method.attach, { owner with methods := .empty }), queue) :=
    runSection_single (fun _ _ _ => rfl) m.methods
  rw [Phase.runMembers]
  exact (bind_of_ok constants).trans ((bind_of_ok properties).trans (bind_of_ok methods))

theorem runNode_attach {n : Node} (plain : n.isComment = false) :
    Phase.runNode [attachComments .whole] n queue = .ok (some (n.attachAll queue), []) := by
  obtain ⟨kind, pos, docblocks⟩ := n
  cases kind with
  | comment text => contradiction
  | classDecl decl =>
      have top : Phase.runTop [attachComments .whole] ⟨.classDecl decl, pos, docblocks⟩ queue =
        .ok (some (Node.attach queue ⟨.classDecl decl, pos, docblocks⟩), []) := rfl
      rw [Phase.runNode, bind_of_ok top]
      exact bind_of_ok (runMembers_attach decl.members)
  | interfaceDecl decl =>
      have top : Phase.runTop [attachComments .whole] ⟨.interfaceDecl decl, pos, docblocks⟩ queue =
        .ok (some (Node.attach queue ⟨.interfaceDecl decl, pos, docblocks⟩), []) := rfl
      rw [Phase.runNode, bind_of_ok top]
      exact bind_of_ok (runMembers_attach decl.members)
  | _ => rfl

def attachedUnit (queue : List Docblock) (unit : List Node) : List Node :=
  (withComments queue unit).map fun taken => taken.2.attachAll taken.1

/-- The phase never fails, and what it makes of a node depends only on the comments in front. -/
theorem run_attach (unit : List Node) (queue : List Docblock) :
    ∃ left, Phase.run [attachComments .whole] unit queue =
      .ok (attachedUnit queue unit, left) := by
  induction unit generalizing queue with
  | nil => exact ⟨queue, rfl⟩
  | cons n rest ih =>
      cases isComment : n.isComment with
      | true =>
          obtain ⟨kind, pos, docblocks⟩ := n
          cases kind with
          | comment text =>
              have taken : Phase.runNode [attachComments .whole] ⟨.comment text, pos, docblocks⟩
                queue = .ok (none, queue ++ (docblock? text pos).toList) := rfl
              obtain ⟨left, ran⟩ := ih (queue ++ (docblock? text pos).toList)
              refine ⟨left, ?_⟩
              rw [attachedUnit, withComments, Phase.run, bind_of_ok taken, bind_of_ok ran]
              rfl
          | _ => contradiction
      | false =>
          obtain ⟨left, ran⟩ := ih []
          refine ⟨left, ?_⟩
          rw [attachedUnit, withComments_cons isComment, Phase.run,
            bind_of_ok (runNode_attach isComment), bind_of_ok ran]
          rfl

/-! ## Bodies and expressions -/

def Node.bodies (n : Node) : List (List Statement) :=
  match n.kind with
  | .functionDecl decl => [decl.body]
  | .classDecl decl => decl.members.methods.values.map Method.body
  | .interfaceDecl decl => decl.members.methods.values.map Method.body
  | _ => []

def bodyExprs (body : List Statement) : List Expr :=
  (statementsIn body).flatMap (·.kind.operands)

def Members.exprs (m : Members) : List Expr :=
  m.constants.values.filterMap Constant.value ++ m.properties.values.filterMap Property.value ++
    m.methods.values.flatMap fun method =>
      method.parameters.filterMap Parameter.initial ++ bodyExprs method.body

def Node.exprs (n : Node) : List Expr :=
  match n.kind with
  | .require e => [e]
  | .functionDecl decl => decl.parameters.filterMap Parameter.initial ++ bodyExprs decl.body
  | .classDecl decl => decl.interfaces ++ decl.members.exprs
  | .interfaceDecl decl => decl.parents ++ decl.members.exprs
  | _ => []

variable {body : List Statement} {waiting : List Docblock}

theorem Statement.blocks_of_comment {s : Statement} (comment : s.isComment = true) :
    s.kind.blocks = [] := by
  obtain ⟨kind, pos, docblocks⟩ := s
  cases kind with
  | comment text => rfl
  | _ => contradiction

theorem kinds_attachBlock (waiting : List Docblock) (body : List Statement) :
    (statementsIn (attachBlock waiting body)).map Statement.kind =
      ((statementsIn body).filter (!·.isComment)).map
        fun s => s.kind.mapBlocks (attachBlock []) := by
  induction body using block_induction generalizing waiting with
  | nil =>
      rw [attachBlock, statementsIn_nil]
      rfl
  | cons s rest inside ih =>
      cases isComment : s.isComment with
      | true =>
          rw [attachBlock_comment isComment, ih, statementsIn_cons,
            Statement.blocks_of_comment isComment]
          simp [isComment]
      | false =>
          have inner : (s.kind.blocks.flatMap fun block =>
              (statementsIn (attachBlock [] block)).map Statement.kind) =
              s.kind.blocks.flatMap fun block => ((statementsIn block).filter (!·.isComment)).map
                fun s => s.kind.mapBlocks (attachBlock []) :=
            List.flatMap_congr fun block among => inside block among []
          rw [attachBlock_plain isComment, statementsIn_cons, statementsIn_cons,
            StatementKind.blocks_mapBlocks, List.flatMap_map, List.map_cons, List.map_append,
            List.map_flatMap, inner, ih, List.filter_cons_of_pos (by simp [isComment]),
            List.filter_append, List.filter_flatMap, List.map_cons, List.map_append,
            List.map_flatMap]

theorem isComment_of_kind {s t : Statement} {f : List Statement → List Statement}
    (same : s.kind = t.kind.mapBlocks f) : s.isComment = t.isComment := by
  obtain ⟨kind, pos, docblocks⟩ := s
  obtain ⟨kind', pos', docblocks'⟩ := t
  change kind = kind'.mapBlocks f at same
  subst same
  cases kind' <;> rfl

theorem isComment_of_mem_attachBlock {s : Statement}
    (among : s ∈ statementsIn (attachBlock waiting body)) : s.isComment = false := by
  have kind := List.mem_map_of_mem (f := Statement.kind) among
  rw [kinds_attachBlock] at kind
  obtain ⟨t, kept, same⟩ := List.mem_map.mp kind
  rw [isComment_of_kind same.symm]
  simpa using (List.mem_filter.mp kept).2

theorem flatMap_filter_of_nil {α β : Type} {p : α → Bool} {f : α → List β}
    (nothing : ∀ a, p a = false → f a = []) (l : List α) :
    (l.filter p).flatMap f = l.flatMap f := by
  induction l with
  | nil => rfl
  | cons a rest ih =>
      cases kept : p a with
      | true => rw [List.filter_cons_of_pos kept, List.flatMap_cons, List.flatMap_cons, ih]
      | false =>
          rw [List.filter_cons_of_neg (by simp [kept]), List.flatMap_cons, nothing a kept, ih,
            List.nil_append]

theorem Statement.operands_of_comment {s : Statement} (comment : s.isComment = true) :
    s.kind.operands = [] := by
  obtain ⟨kind, pos, docblocks⟩ := s
  cases kind with
  | comment text => rfl
  | _ => contradiction

theorem bodyExprs_attachBlock (waiting : List Docblock) (body : List Statement) :
    bodyExprs (attachBlock waiting body) = bodyExprs body := by
  have kinds := congrArg (List.flatMap StatementKind.operands) (kinds_attachBlock waiting body)
  simp only [List.flatMap_map, StatementKind.operands_mapBlocks] at kinds
  rw [bodyExprs, kinds, bodyExprs]
  exact flatMap_filter_of_nil
    (fun s plain => Statement.operands_of_comment (by simpa using plain)) _

theorem blocksIn_attachBlock (body : List Statement) :
    blocksIn (attachBlock [] body) = (blocksIn body).map (attachBlock []) := by
  have kinds := congrArg (List.flatMap StatementKind.blocks) (kinds_attachBlock [] body)
  simp only [List.flatMap_map, StatementKind.blocks_mapBlocks] at kinds
  rw [blocksIn, blocksIn, kinds, List.map_cons, List.map_flatMap]
  congr 1
  refine flatMap_filter_of_nil (fun s plain => ?_) _
  rw [Statement.blocks_of_comment (by simpa using plain), List.map_nil]

/-! ## Comments of a block -/

/-- What becomes of a comment that stands in a block before the rest of it. -/
inductive CommentFate (before : List Statement) (c : Statement) : List Statement → Prop
  | blank {after : List Statement} (nothing : c.asDocblock? = none) : CommentFate before c after
  | trailing {after : List Statement} (comments : ∀ s ∈ after, s.isComment = true) :
      CommentFate before c after
  | taken {run rest : List Statement} {s : Statement} {kind : StatementKind} {d : Docblock}
      {earlier later : List Docblock} (found : c.asDocblock? = some d)
      (comments : ∀ other ∈ run, other.isComment = true) (plain : s.isComment = false)
      (stands : attachBlock [] (before ++ c :: (run ++ s :: rest)) =
        attachBlock [] before ++
          ⟨kind, s.pos, s.docblocks ++ (earlier ++ d :: later)⟩ :: attachBlock [] rest) :
      CommentFate before c (run ++ s :: rest)

theorem attachBlock_append (waiting : List Docblock) (before : List Statement) :
    ∃ left, ∀ rest, attachBlock waiting (before ++ rest) =
      attachBlock waiting before ++ attachBlock left rest := by
  induction before generalizing waiting with
  | nil => exact ⟨waiting, fun rest => by rw [attachBlock]; rfl⟩
  | cons s others ih =>
      cases isComment : s.isComment with
      | true =>
          obtain ⟨left, splits⟩ := ih (waiting ++ s.asDocblock?.toList)
          refine ⟨left, fun rest => ?_⟩
          rw [List.cons_append, attachBlock_comment isComment, attachBlock_comment isComment,
            splits]
      | false =>
          obtain ⟨left, splits⟩ := ih []
          refine ⟨left, fun rest => ?_⟩
          rw [List.cons_append, attachBlock_plain isComment, attachBlock_plain isComment, splits,
            List.cons_append]

theorem comments_or_next (after : List Statement) :
    (∀ s ∈ after, s.isComment = true) ∨ ∃ run s rest, after = run ++ s :: rest ∧
      (∀ other ∈ run, other.isComment = true) ∧ s.isComment = false := by
  induction after with
  | nil => exact .inl (List.forall_mem_nil _)
  | cons first others ih =>
      cases isComment : first.isComment with
      | false => exact .inr ⟨[], first, others, rfl, List.forall_mem_nil _, isComment⟩
      | true =>
          rcases ih with comments | ⟨run, s, rest, rfl, comments, plain⟩
          · exact .inl (List.forall_mem_cons.mpr ⟨isComment, comments⟩)
          · exact .inr ⟨first :: run, s, rest, rfl,
              List.forall_mem_cons.mpr ⟨isComment, comments⟩, plain⟩

theorem commentFate {before after : List Statement} {c : Statement}
    (comment : c.isComment = true) : CommentFate before c after := by
  cases found : c.asDocblock? with
  | none => exact .blank found
  | some d =>
      rcases comments_or_next after with comments | ⟨run, s, rest, rfl, comments, plain⟩
      · exact .trailing comments
      · obtain ⟨left, splits⟩ := attachBlock_append [] before
        have stands : attachBlock [] (before ++ c :: (run ++ s :: rest)) =
            attachBlock [] before ++ ⟨s.kind.mapBlocks (attachBlock []), s.pos,
              s.docblocks ++ (left ++ d :: run.filterMap Statement.asDocblock?)⟩ ::
              attachBlock [] rest := by
          rw [splits, attachBlock_comment comment, attachBlock_run comments,
            attachBlock_plain plain, found, List.append_assoc]
          rfl
        exact .taken found comments plain stands

/-! ## Comments in closures -/

def Check.noComments : Check :=
  { statement := (· ≠ .comment) }

section

variable {check : Check}

theorem everyExprs_iff {es : List Expr} : EveryExprs check es ↔ ∀ e ∈ es, EveryExpr check e := by
  induction es with
  | nil => simp [EveryExprs]
  | cons e rest ih => rw [EveryExprs, ih, List.forall_mem_cons]

theorem everyOption_iff {e : Option Expr} :
    EveryOption check e ↔ ∀ inner ∈ e.toList, EveryExpr check inner := by
  cases e <;> simp [EveryOption]

theorem everyParameters_iff {parameters : List Parameter} :
    EveryParameters check parameters ↔
      ∀ e ∈ parameters.filterMap Parameter.initial, EveryExpr check e := by
  induction parameters with
  | nil => simp [EveryParameters]
  | cons parameter rest ih =>
      obtain ⟨name, dataType, initial, constant, reference, pos⟩ := parameter
      cases initial <;> simp [EveryParameters, EveryOption, ih]

theorem everyLets_iff {assignments : List LetAssignment} :
    EveryLets check assignments ↔
      ∀ e ∈ (StatementKind.lets assignments).operands, EveryExpr check e := by
  induction assignments with
  | nil => simp [EveryLets, StatementKind.operands]
  | cons entry rest ih =>
      obtain ⟨⟨target, operator, base, property, index, value⟩, pos⟩ := entry
      rw [EveryLets, ih, everyExprs_iff, everyOption_iff, StatementKind.operands,
        StatementKind.operands, List.flatMap_cons, List.forall_mem_append, List.forall_mem_append,
        and_assoc]

theorem everyDeclared_iff {declared : List DeclaredVariable} :
    EveryDeclared check declared ↔
      ∀ e ∈ declared.filterMap DeclaredVariable.value, EveryExpr check e := by
  induction declared with
  | nil => simp [EveryDeclared]
  | cons v rest ih =>
      obtain ⟨name, value, pos⟩ := v
      cases value <;> simp [EveryDeclared, EveryOption, ih]

theorem everyElseIfs_iff {elseIfs : List ElseIf} :
    EveryElseIfs check elseIfs ↔ (∀ e ∈ elseIfs.map ElseIf.condition, EveryExpr check e) ∧
      ∀ block ∈ elseIfs.map ElseIf.body, EveryBlock check block := by
  induction elseIfs with
  | nil => simp [EveryElseIfs]
  | cons clause rest ih =>
      obtain ⟨condition, body, pos⟩ := clause
      rw [EveryElseIfs, ih, List.map_cons, List.map_cons, List.forall_mem_cons,
        List.forall_mem_cons]
      tauto

theorem everyClauses_iff {clauses : List SwitchClause} :
    EveryClauses check clauses ↔
      (∀ e ∈ clauses.filterMap SwitchClause.test, EveryExpr check e) ∧
        ∀ block ∈ clauses.map SwitchClause.body, EveryBlock check block := by
  induction clauses with
  | nil => simp [EveryClauses]
  | cons clause rest ih =>
      obtain ⟨test, body⟩ := clause
      rw [EveryClauses, ih, everyOption_iff, List.map_cons, List.forall_mem_cons,
        List.filterMap_cons]
      cases test with
      | none =>
          simp only [Option.toList_none, List.not_mem_nil, false_imp_iff, forall_true_iff]
          tauto
      | some test =>
          simp only [Option.toList_some, List.forall_mem_singleton, List.forall_mem_cons]
          tauto

theorem everyOtherwise_iff {otherwise : Option (List Statement)} :
    EveryOtherwise check otherwise ↔ ∀ block ∈ otherwise.toList, EveryBlock check block := by
  cases otherwise <;> simp [EveryOtherwise]

theorem everyCatches_iff {catches : List Catch} :
    EveryCatches check catches ↔
      (∀ e ∈ catches.flatMap (fun clause => clause.classes ++ clause.binding.toList),
        EveryExpr check e) ∧
        ∀ block ∈ catches.map Catch.body, EveryBlock check block := by
  induction catches with
  | nil => simp [EveryCatches]
  | cons clause rest ih =>
      obtain ⟨classes, binding, body, pos⟩ := clause
      rw [EveryCatches, ih, everyExprs_iff, everyOption_iff, List.flatMap_cons,
        List.forall_mem_append, List.forall_mem_append, List.map_cons, List.forall_mem_cons]
      tauto

end

theorem everyInner_iff {kind : StatementKind} :
    EveryInner .noComments kind ↔ (∀ e ∈ kind.operands, EveryExpr .noComments e) ∧
      ∀ block ∈ kind.blocks, EveryBlock .noComments block := by
  cases kind with
  | lets assignments => simp [EveryInner, everyLets_iff, StatementKind.blocks]
  | declare dataType declared =>
      simp [EveryInner, everyDeclared_iff, StatementKind.operands, StatementKind.blocks]
  | assign mode assign =>
      obtain ⟨target, operator, base, property, index, value⟩ := assign
      rw [EveryInner, everyExprs_iff, everyOption_iff, StatementKind.operands,
        List.forall_mem_append]
      simp [StatementKind.blocks, Check.noComments]
  | branch condition body elseIfs otherwise =>
      rw [EveryInner, everyElseIfs_iff, everyOtherwise_iff, StatementKind.operands,
        StatementKind.blocks, List.cons_append, List.forall_mem_cons, List.forall_mem_cons,
        List.forall_mem_append]
      tauto
  | switch subject clauses =>
      rw [EveryInner, everyClauses_iff, StatementKind.operands, StatementKind.blocks,
        List.forall_mem_cons, and_assoc]
  | tryCatch body catches =>
      rw [EveryInner, everyCatches_iff, StatementKind.operands, StatementKind.blocks,
        List.forall_mem_cons]
      simp only [Check.noComments]
      tauto
  | echo | ret =>
      simp [EveryInner, everyExprs_iff, everyOption_iff, StatementKind.operands,
        StatementKind.blocks]
  | _ => simp [EveryInner, StatementKind.operands, StatementKind.blocks, Check.noComments]

theorem everyStatement_iff {s : Statement} :
    EveryStatement .noComments s ↔ s.isComment = false ∧ EveryInner .noComments s.kind := by
  obtain ⟨kind, pos, docblocks⟩ := s
  rw [EveryStatement]
  cases kind <;> simp [Check.noComments, StatementKind.form, Statement.isComment]

theorem everyBlock_iff : EveryBlock .noComments body ↔
    (∀ s ∈ statementsIn body, s.isComment = false) ∧
      ∀ e ∈ bodyExprs body, EveryExpr .noComments e := by
  induction body using block_induction with
  | nil => simp [EveryBlock, bodyExprs]
  | cons s rest inside ih =>
      have inner : (∀ block ∈ s.kind.blocks, EveryBlock .noComments block) ↔
          (∀ t ∈ s.kind.blocks.flatMap statementsIn, t.isComment = false) ∧
            ∀ e ∈ (s.kind.blocks.flatMap statementsIn).flatMap (·.kind.operands),
              EveryExpr .noComments e := by
        rw [List.flatMap_assoc, List.forall_mem_flatMap, List.forall_mem_flatMap,
          ← forall₂_and]
        exact forall₂_congr inside
      rw [EveryBlock, everyStatement_iff, everyInner_iff, inner, ih, bodyExprs, bodyExprs,
        statementsIn_cons, List.forall_mem_cons, List.forall_mem_append, List.flatMap_cons,
        List.flatMap_append, List.forall_mem_append, List.forall_mem_append]
      tauto

theorem everyOption_filterMap {α : Type} {f : α → Option Expr} {l : List α} {check : Check} :
    (∀ a ∈ l, EveryOption check (f a)) ↔ ∀ e ∈ l.filterMap f, EveryExpr check e := by
  simp only [everyOption_iff, List.mem_filterMap, Option.mem_toList]
  constructor
  · rintro all e ⟨a, among, found⟩
    exact all a among e found
  · exact fun all a among e found => all e ⟨a, among, found⟩

theorem everyMembers_iff {m : Members} : EveryMembers .noComments m ↔
    (∀ body ∈ m.methods.values.map Method.body, ∀ s ∈ statementsIn body, s.isComment = false) ∧
      ∀ e ∈ m.exprs, EveryExpr .noComments e := by
  rw [Members.exprs, List.forall_mem_append, List.forall_mem_append, ← everyOption_filterMap,
    ← everyOption_filterMap, List.forall_mem_map, List.forall_mem_flatMap]
  simp only [List.forall_mem_append, ← everyParameters_iff]
  constructor
  · rintro ⟨constants, properties, methods⟩
    refine ⟨fun m among => (everyBlock_iff.mp (methods m among).2).1, ⟨constants, properties⟩,
      fun m among => ⟨(methods m among).1, (everyBlock_iff.mp (methods m among).2).2⟩⟩
  · rintro ⟨statements, ⟨constants, properties⟩, methods⟩
    exact ⟨constants, properties, fun m among => ⟨(methods m among).1,
      everyBlock_iff.mpr ⟨statements m among, (methods m among).2⟩⟩⟩

theorem everyNode_iff {n : Node} : EveryNode .noComments n.kind ↔ n.isComment = false ∧
    (∀ body ∈ n.bodies, ∀ s ∈ statementsIn body, s.isComment = false) ∧
      ∀ e ∈ n.exprs, EveryExpr .noComments e := by
  obtain ⟨kind, pos, docblocks⟩ := n
  cases kind with
  | functionDecl decl =>
      simp only [EveryNode, Node.isComment, Node.bodies, Node.exprs, List.forall_mem_singleton,
        List.forall_mem_append, everyBlock_iff, everyParameters_iff, true_and]
      tauto
  | classDecl decl | interfaceDecl decl =>
      simp only [EveryNode, Node.isComment, Node.bodies, Node.exprs, List.forall_mem_append,
        everyMembers_iff, everyExprs_iff, true_and]
      tauto
  | _ => simp [EveryNode, Node.isComment, Node.bodies, Node.exprs, Check.noComments]

/-! ## Units -/

section

variable {n : Node}

theorem bodies_attachAll : (n.attachAll waiting).bodies = n.bodies.map (attachBlock []) := by
  obtain ⟨kind, pos, docblocks⟩ := n
  cases kind with
  | classDecl decl | interfaceDecl decl =>
      simp [Node.attachAll, Node.attach, Node.bodies, Members.attach, OrderedMap.values,
        OrderedMap.mapValues, Method.attach, Function.comp_def]
  | _ => rfl

theorem exprs_attach (m : Members) : m.attach.exprs = m.exprs := by
  simp [Members.exprs, Members.attach, OrderedMap.values, OrderedMap.mapValues, Constant.attach,
    Property.attach, Method.attach, List.filterMap_map, List.flatMap_map, Function.comp_def,
    bodyExprs_attachBlock]

theorem exprs_attachAll : (n.attachAll waiting).exprs = n.exprs := by
  obtain ⟨kind, pos, docblocks⟩ := n
  cases kind with
  | classDecl decl | interfaceDecl decl =>
      simp [Node.attachAll, Node.attach, Node.exprs, exprs_attach]
  | functionDecl decl =>
      simp [Node.attachAll, Node.attach, Node.exprs, bodyExprs_attachBlock]
  | _ => rfl

theorem isComment_attachAll : (n.attachAll waiting).isComment = n.isComment := by
  obtain ⟨kind, pos, docblocks⟩ := n
  cases kind <;> rfl

end

/-- What attaching the comments of a unit leaves of them. -/
structure ConsumesComments (unit made : List Node) : Prop where
  compact : ∀ n ∈ made, n.kind.IsCompact
  nodes : ∀ n ∈ made, n.isComment = false
  bodies : made.flatMap Node.bodies = (unit.flatMap Node.bodies).map (attachBlock [])
  blocks : ∀ body ∈ unit.flatMap Node.bodies,
    blocksIn (attachBlock [] body) = (blocksIn body).map (attachBlock [])
  statements : ∀ body ∈ made.flatMap Node.bodies, ∀ s ∈ statementsIn body, s.isComment = false
  fates : ∀ body ∈ unit.flatMap Node.bodies, ∀ before c after,
    before ++ c :: after ∈ blocksIn body → c.isComment = true → CommentFate before c after
  exprs : made.flatMap Node.exprs = unit.flatMap Node.exprs
  closures : EveryUnit .noComments made ↔
    ∀ e ∈ unit.flatMap Node.exprs, EveryExpr .noComments e

section

variable {unit : List Node} {n : Node}

theorem forall_mem_attachedUnit {holds : Node → Prop}
    (attached : ∀ waiting, ∀ n ∈ unit, n.isComment = false → holds (n.attachAll waiting)) :
    ∀ n ∈ attachedUnit queue unit, holds n := by
  rw [attachedUnit, List.forall_mem_map]
  intro taken listed
  have kept := List.mem_map_of_mem (f := Prod.snd) listed
  rw [map_snd_withComments, List.mem_filter] at kept
  exact attached taken.1 taken.2 kept.1 (by simpa using kept.2)

theorem flatMap_attachedUnit {β : Type} {f g : Node → List β}
    (same : ∀ waiting n, f (n.attachAll waiting) = g n)
    (nothing : ∀ n, n.isComment = true → g n = []) :
    (attachedUnit queue unit).flatMap f = unit.flatMap g := by
  have kept := congrArg (List.flatMap g) (map_snd_withComments queue unit)
  rw [List.flatMap_map, flatMap_filter_of_nil fun n plain => nothing n (by simpa using plain)]
    at kept
  simp only [attachedUnit, List.flatMap_map, same, kept]

theorem bodies_of_comment (comment : n.isComment = true) : n.bodies = [] := by
  obtain ⟨kind, pos, docblocks⟩ := n
  cases kind with
  | comment text => rfl
  | _ => contradiction

theorem exprs_of_comment (comment : n.isComment = true) : n.exprs = [] := by
  obtain ⟨kind, pos, docblocks⟩ := n
  cases kind with
  | comment text => rfl
  | _ => contradiction

theorem bodies_attachedUnit : (attachedUnit queue unit).flatMap Node.bodies =
    (unit.flatMap Node.bodies).map (attachBlock []) := by
  rw [List.map_flatMap]
  exact flatMap_attachedUnit (fun _ _ => bodies_attachAll) fun n comment => by
    rw [bodies_of_comment comment, List.map_nil]

theorem exprs_attachedUnit :
    (attachedUnit queue unit).flatMap Node.exprs = unit.flatMap Node.exprs :=
  flatMap_attachedUnit (fun _ _ => exprs_attachAll) fun _ => exprs_of_comment

theorem isCompact_attachAll (isCompact : n.kind.IsCompact) :
    (n.attachAll waiting).kind.IsCompact := by
  obtain ⟨kind, pos, docblocks⟩ := n
  cases kind <;> exact isCompact

theorem consumesComments (isCompact : ∀ n ∈ unit, n.kind.IsCompact) :
    ConsumesComments unit (attachedUnit queue unit) := by
  have nodes : ∀ n ∈ attachedUnit queue unit, n.isComment = false :=
    forall_mem_attachedUnit fun _ _ _ plain => isComment_attachAll.trans plain
  have statements : ∀ body ∈ (attachedUnit queue unit).flatMap Node.bodies,
      ∀ s ∈ statementsIn body, s.isComment = false := by
    rw [bodies_attachedUnit, List.forall_mem_map]
    exact fun body _ s => isComment_of_mem_attachBlock
  have closures : EveryUnit .noComments (attachedUnit queue unit) ↔
      ∀ e ∈ unit.flatMap Node.exprs, EveryExpr .noComments e := by
    rw [← @exprs_attachedUnit queue unit, List.forall_mem_flatMap]
    rw [List.forall_mem_flatMap] at statements
    constructor
    · exact fun every n among => (everyNode_iff.mp (every n among)).2.2
    · exact fun every n among =>
        everyNode_iff.mpr ⟨nodes n among, statements n among, every n among⟩
  exact ⟨forall_mem_attachedUnit fun _ n among _ => isCompact_attachAll (isCompact n among), nodes,
    bodies_attachedUnit, fun body _ => blocksIn_attachBlock body, statements,
    fun _ _ before c after _ comment => commentFate comment, exprs_attachedUnit, closures⟩

end

/-- Attaching the comments of a compact unit does away with all of them but those in closures, which
stay as they are: some comment is left exactly if a closure of the unit holds one. -/
theorem comments_left_in_closures {raw unit : List Node} {collector collector' : Collector}
    (compacted : compact raw collector = .ok (unit, collector')) (queue : List Docblock) :
    ∃ made left, (Phase.run [attachComments .whole] unit).run queue = .ok (made, left) ∧
      ConsumesComments unit made := by
  obtain ⟨left, ran⟩ := run_attach unit queue
  have isCompact := (compact_ok (c := .noComments) compacted).1
  exact ⟨_, left, ran, consumesComments isCompact⟩

def noteBody (closureBody : List Statement) : List Statement :=
  [⟨.comment "* counts ", {}, []⟩,
    ⟨.loop [⟨.empty, {}, []⟩, ⟨.comment " trails ", {}, []⟩], {}, []⟩, ⟨.comment "*", {}, []⟩,
    ⟨.ret (some (.plain (.closure [] closureBody .empty) {})), {}, []⟩]

def noteSample (closureBody : List Statement) : Node :=
  ⟨.functionDecl ⟨"f", [], noteBody closureBody, .empty, none⟩, {}, []⟩

theorem compact_noteSample (closureBody : List Statement) :
    ∃ collector, compact [noteSample closureBody] {} = .ok ([noteSample closureBody], collector) :=
  ⟨_, rfl⟩

theorem exprs_noteSample (closureBody : List Statement) :
    [noteSample closureBody].flatMap Node.exprs = [.plain (.closure [] closureBody .empty) {}] := by
  simp [noteSample, noteBody, Node.exprs, bodyExprs, StatementKind.blocks, StatementKind.operands]

/-- With a comment in the closure that one is left, and without it none. -/
theorem noteSample_consumed :
    (∃ unit collector made left,
      compact [noteSample [⟨.comment "* Note ", {}, []⟩]] {} = .ok (unit, collector) ∧
      (Phase.run [attachComments .whole] unit).run [] = .ok (made, left) ∧
      ConsumesComments unit made ∧ ¬ EveryUnit .noComments made) ∧
    ∃ unit collector made left, compact [noteSample []] {} = .ok (unit, collector) ∧
      (Phase.run [attachComments .whole] unit).run [] = .ok (made, left) ∧
      ConsumesComments unit made ∧ EveryUnit .noComments made := by
  constructor
  · obtain ⟨collector, ran⟩ := compact_noteSample [⟨.comment "* Note ", {}, []⟩]
    obtain ⟨made, left, attached, consumed⟩ := comments_left_in_closures ran []
    refine ⟨_, _, made, left, ran, attached, consumed, ?_⟩
    rw [consumed.closures, exprs_noteSample, List.forall_mem_singleton, everyExpr_plain]
    simp [EveryPart, EveryBlock, EveryStatement, StatementKind.form, Check.noComments]
  · obtain ⟨collector, ran⟩ := compact_noteSample []
    obtain ⟨made, left, attached, consumed⟩ := comments_left_in_closures ran []
    refine ⟨_, _, made, left, ran, attached, consumed, ?_⟩
    rw [consumed.closures, exprs_noteSample, List.forall_mem_singleton, everyExpr_plain]
    simp [EveryPart, EveryBlock, EveryParameters, Check.noComments]

end Zephir
