import Zephir.Phase.Comments
import Zephir.Proofs.Syntax.Blocks

/-!
How the comments of a body are attached. A statement takes the comments directly in front of it in
its own block, those of them of which something is left, and comments at the end of a block are
dropped. This is so in every block at every depth, whatever waits around it: a single queue does,
if each block puts it aside and brings it back at its end.
-/

namespace Zephir

def Statement.isComment (s : Statement) : Bool :=
  match s.kind with
  | .comment _ => true
  | _ => false

def Statement.asDocblock? (s : Statement) : Option Docblock :=
  match s.kind with
  | .comment text => docblock? text s.pos
  | _ => none

variable {waiting : List Docblock} {s : Statement} {run rest body out : List Statement}

/-! ## Steps of attaching -/

theorem attachElseIfs_eq (elseIfs : List ElseIf) :
    attachElseIfs elseIfs =
      elseIfs.map fun clause => { clause with body := attachBlock [] clause.body } := by
  induction elseIfs with
  | nil => rfl
  | cons clause rest ih =>
      obtain ⟨condition, body, pos⟩ := clause
      rw [attachElseIfs, ih, List.map_cons]

theorem attachClauses_eq (clauses : List SwitchClause) :
    attachClauses clauses =
      clauses.map fun clause => { clause with body := attachBlock [] clause.body } := by
  induction clauses with
  | nil => rfl
  | cons clause rest ih =>
      obtain ⟨test, body⟩ := clause
      rw [attachClauses, ih, List.map_cons]

theorem attachCatches_eq (catches : List Catch) :
    attachCatches catches =
      catches.map fun clause => { clause with body := attachBlock [] clause.body } := by
  induction catches with
  | nil => rfl
  | cons clause rest ih =>
      obtain ⟨classes, binding, body, pos⟩ := clause
      rw [attachCatches, ih, List.map_cons]

theorem attachKind_eq (kind : StatementKind) :
    attachKind kind = kind.mapBlocks (attachBlock []) := by
  cases kind with
  | branch condition body elseIfs otherwise =>
      cases otherwise <;> rw [attachKind, attachElseIfs_eq] <;> rfl
  | switch subject clauses => rw [attachKind, attachClauses_eq, StatementKind.mapBlocks]
  | tryCatch body catches => rw [attachKind, attachCatches_eq, StatementKind.mapBlocks]
  | whileLoop | loop | forLoop => rw [attachKind, StatementKind.mapBlocks]
  | _ => rfl

theorem attachBlock_comment (comment : s.isComment = true) :
    attachBlock waiting (s :: rest) = attachBlock (waiting ++ s.asDocblock?.toList) rest := by
  obtain ⟨kind, pos, docblocks⟩ := s
  cases kind with
  | comment text => rw [attachBlock, Statement.asDocblock?]
  | _ => contradiction

theorem attachBlock_plain (plain : s.isComment = false) :
    attachBlock waiting (s :: rest) =
      ⟨s.kind.mapBlocks (attachBlock []), s.pos, s.docblocks ++ waiting⟩ ::
        attachBlock [] rest := by
  obtain ⟨kind, pos, docblocks⟩ := s
  rw [attachBlock, attachKind_eq]
  rintro text rfl
  contradiction

theorem attachBlock_run (comments : ∀ c ∈ run, c.isComment = true) :
    attachBlock waiting (run ++ rest) =
      attachBlock (waiting ++ run.filterMap Statement.asDocblock?) rest := by
  induction run generalizing waiting with
  | nil => simp
  | cons c others ih =>
      rw [List.forall_mem_cons] at comments
      rw [List.cons_append, attachBlock_comment comments.1, ih comments.2, List.append_assoc,
        List.filterMap_cons]
      cases c.asDocblock? <;> rfl

/-! ## The rule -/

/-- A block, and what attaching makes of it. The comments before a statement are all those since the
statement before it; inside the statement the rule starts over with each block. -/
inductive Attached : List Statement → List Statement → Prop
  | trailing {run : List Statement} (comments : ∀ c ∈ run, c.isComment = true) : Attached run []
  | next {run rest out : List Statement} {s : Statement} {kind : StatementKind}
      (comments : ∀ c ∈ run, c.isComment = true) (plain : s.isComment = false)
      (alike : kind.skeleton = s.kind.skeleton)
      (inner : List.Forall₂ Attached s.kind.blocks kind.blocks) (others : Attached rest out) :
      Attached (run ++ s :: rest)
        (⟨kind, s.pos, s.docblocks ++ run.filterMap Statement.asDocblock?⟩ :: out)

theorem attached_attachBlock (comments : ∀ c ∈ run, c.isComment = true) :
    Attached (run ++ body) (attachBlock (run.filterMap Statement.asDocblock?) body) := by
  induction body using block_induction generalizing run with
  | nil =>
      rw [List.append_nil, attachBlock]
      exact .trailing comments
  | cons s rest inside ih =>
      cases isComment : s.isComment with
      | true =>
          have longer : ∀ c ∈ run ++ [s], c.isComment = true := by
            rw [List.forall_mem_append, List.forall_mem_singleton]
            exact ⟨comments, isComment⟩
          rw [attachBlock_comment isComment]
          have later := ih longer
          rw [List.append_assoc, List.filterMap_append] at later
          cases found : s.asDocblock? <;> simpa [found] using later
      | false =>
          rw [attachBlock_plain isComment]
          refine .next comments isComment StatementKind.skeleton_mapBlocks ?_
            (@ih [] (List.forall_mem_nil _))
          rw [StatementKind.blocks_mapBlocks, List.forall₂_map_right_iff, List.forall₂_same]
          exact fun block among => @inside block among [] (List.forall_mem_nil _)

theorem run_unique {others later : List Statement} {t : Statement}
    (comments : ∀ c ∈ run, c.isComment = true) (plain : s.isComment = false)
    (comments' : ∀ c ∈ others, c.isComment = true) (plain' : t.isComment = false)
    (same : run ++ s :: rest = others ++ t :: later) : run = others ∧ s = t ∧ rest = later := by
  induction run generalizing others with
  | nil =>
      cases others with
      | nil => simpa using same
      | cons c others =>
          simp only [List.nil_append, List.cons_append, List.cons.injEq] at same
          have comment := comments' c (by simp)
          rw [← same.1, plain] at comment
          contradiction
  | cons c run ih =>
      rw [List.forall_mem_cons] at comments
      cases others with
      | nil =>
          simp only [List.nil_append, List.cons_append, List.cons.injEq] at same
          rw [same.1, plain'] at comments
          simp at comments
      | cons c' others =>
          rw [List.forall_mem_cons] at comments'
          rw [List.cons_append, List.cons_append, List.cons.injEq] at same
          obtain ⟨sameRun, sameNext⟩ := ih comments.2 comments'.2 same.2
          exact ⟨by rw [same.1, sameRun], sameNext⟩

theorem Attached.eq_attachBlock (comments : ∀ c ∈ run, c.isComment = true)
    (attached : Attached (run ++ body) out) :
    out = attachBlock (run.filterMap Statement.asDocblock?) body := by
  induction body using block_induction generalizing run out with
  | nil =>
      rw [List.append_nil] at attached
      cases attached with
      | trailing => rfl
      | @next before after _ s _ _ plain =>
          have comment := comments s (by simp)
          rw [plain] at comment
          contradiction
  | cons s rest inside ih =>
      cases isComment : s.isComment with
      | true =>
          have longer : ∀ c ∈ run ++ [s], c.isComment = true := by
            rw [List.forall_mem_append, List.forall_mem_singleton]
            exact ⟨comments, isComment⟩
          have later := ih longer (by simpa using attached)
          rw [attachBlock_comment isComment, later, List.filterMap_append]
          cases found : s.asDocblock? <;> simp [found]
      | false =>
          generalize whole : run ++ s :: rest = block at attached
          cases attached with
          | trailing all =>
              have comment := all s (by simp [← whole])
              rw [isComment] at comment
              contradiction
          | @next before after made t kind front plain alike inner others =>
              obtain ⟨rfl, rfl, rfl⟩ := run_unique comments isComment front plain whole
              have blocks : kind.blocks = s.kind.blocks.map (attachBlock []) :=
                eq_map_of_forall₂ inner fun block among made attached =>
                  @inside block among [] made (List.forall_mem_nil _) attached
              have sameKind : kind = s.kind.mapBlocks (attachBlock []) :=
                StatementKind.eq_of_skeleton_of_blocks (by simpa using alike)
                  (by simpa using blocks)
              rw [attachBlock_plain isComment, sameKind, @ih [] _ (List.forall_mem_nil _) others]
              rfl

/-! ## One queue for all blocks -/

abbrev Queueing := StateM (List Docblock)

def takeWaiting : Queueing (List Docblock) :=
  modifyGet fun queue => (queue, [])

/-- The step with an empty queue of its own. The queue from before is back afterwards. -/
def inOwnQueue {α : Type} (step : Queueing α) : Queueing α := do
  let outer ← takeWaiting
  let a ← step
  set outer
  pure a

mutual

def queueStatements : List Statement → Queueing (List Statement)
  | [] => pure []
  | ⟨.comment text, pos, _⟩ :: rest => do
    modify (· ++ (docblock? text pos).toList)
    queueStatements rest
  | ⟨kind, pos, docblocks⟩ :: rest => do
    let waiting ← takeWaiting
    let kind ← queueKind kind
    let rest ← queueStatements rest
    pure (⟨kind, pos, docblocks ++ waiting⟩ :: rest)

def queueKind : StatementKind → Queueing StatementKind
  | .branch condition body elseIfs otherwise => do
    let body ← inOwnQueue (queueStatements body)
    let elseIfs ← queueElseIfs elseIfs
    let otherwise ← queueOtherwise otherwise
    pure (.branch condition body elseIfs otherwise)
  | .whileLoop kind condition body => do
    let body ← inOwnQueue (queueStatements body)
    pure (.whileLoop kind condition body)
  | .loop body => do
    let body ← inOwnQueue (queueStatements body)
    pure (.loop body)
  | .forLoop head iterated body => do
    let body ← inOwnQueue (queueStatements body)
    pure (.forLoop head iterated body)
  | .switch subject clauses => do
    let clauses ← queueClauses clauses
    pure (.switch subject clauses)
  | .tryCatch body catches => do
    let body ← inOwnQueue (queueStatements body)
    let catches ← queueCatches catches
    pure (.tryCatch body catches)
  | kind => pure kind

def queueElseIfs : List ElseIf → Queueing (List ElseIf)
  | [] => pure []
  | ⟨condition, body, pos⟩ :: rest => do
    let body ← inOwnQueue (queueStatements body)
    let rest ← queueElseIfs rest
    pure (⟨condition, body, pos⟩ :: rest)

def queueOtherwise : Option (List Statement) → Queueing (Option (List Statement))
  | none => pure none
  | some body => do
    let body ← inOwnQueue (queueStatements body)
    pure (some body)

def queueClauses : List SwitchClause → Queueing (List SwitchClause)
  | [] => pure []
  | ⟨test, body⟩ :: rest => do
    let body ← inOwnQueue (queueStatements body)
    let rest ← queueClauses rest
    pure (⟨test, body⟩ :: rest)

def queueCatches : List Catch → Queueing (List Catch)
  | [] => pure []
  | ⟨classes, binding, body, pos⟩ :: rest => do
    let body ← inOwnQueue (queueStatements body)
    let rest ← queueCatches rest
    pure (⟨classes, binding, body, pos⟩ :: rest)

end

section

variable {α β : Type} {queue left : List Docblock}

theorem run_bind {x : Queueing α} {f : α → Queueing β} {a : α} (first : x.run queue = (a, left)) :
    (x >>= f).run queue = (f a).run left := by
  change (f (x.run queue).1).run (x.run queue).2 = _
  rw [first]

theorem run_takeWaiting : takeWaiting.run queue = (queue, []) :=
  rfl

theorem run_inOwnQueue {step : Queueing α} {a : α} (ran : step.run [] = (a, left)) :
    (inOwnQueue step).run queue = (a, queue) := by
  rw [inOwnQueue, run_bind run_takeWaiting, run_bind ran]
  rfl

end

/-- The block becomes what it becomes without any queue, and the queue from before is untouched. -/
def KeepsQueue (body : List Statement) : Prop :=
  ∀ queue, (inOwnQueue (queueStatements body)).run queue = (attachBlock [] body, queue)

theorem run_queueElseIfs {elseIfs : List ElseIf}
    (keep : ∀ clause ∈ elseIfs, KeepsQueue clause.body) (queue : List Docblock) :
    (queueElseIfs elseIfs).run queue =
      (elseIfs.map fun clause => { clause with body := attachBlock [] clause.body }, queue) := by
  induction elseIfs with
  | nil => rfl
  | cons clause rest ih =>
      rw [List.forall_mem_cons] at keep
      obtain ⟨condition, body, pos⟩ := clause
      rw [queueElseIfs, run_bind (keep.1 queue), run_bind (ih keep.2)]
      rfl

theorem run_queueOtherwise {otherwise : Option (List Statement)}
    (keep : ∀ body ∈ otherwise, KeepsQueue body) (queue : List Docblock) :
    (queueOtherwise otherwise).run queue = (otherwise.map (attachBlock []), queue) := by
  cases otherwise with
  | none => rfl
  | some body =>
      rw [queueOtherwise, run_bind (keep body rfl queue)]
      rfl

theorem run_queueClauses {clauses : List SwitchClause}
    (keep : ∀ clause ∈ clauses, KeepsQueue clause.body) (queue : List Docblock) :
    (queueClauses clauses).run queue =
      (clauses.map fun clause => { clause with body := attachBlock [] clause.body }, queue) := by
  induction clauses with
  | nil => rfl
  | cons clause rest ih =>
      rw [List.forall_mem_cons] at keep
      obtain ⟨test, body⟩ := clause
      rw [queueClauses, run_bind (keep.1 queue), run_bind (ih keep.2)]
      rfl

theorem run_queueCatches {catches : List Catch}
    (keep : ∀ clause ∈ catches, KeepsQueue clause.body) (queue : List Docblock) :
    (queueCatches catches).run queue =
      (catches.map fun clause => { clause with body := attachBlock [] clause.body }, queue) := by
  induction catches with
  | nil => rfl
  | cons clause rest ih =>
      rw [List.forall_mem_cons] at keep
      obtain ⟨classes, binding, body, pos⟩ := clause
      rw [queueCatches, run_bind (keep.1 queue), run_bind (ih keep.2)]
      rfl

theorem run_queueKind {kind : StatementKind} (keep : ∀ block ∈ kind.blocks, KeepsQueue block)
    (queue : List Docblock) :
    (queueKind kind).run queue = (kind.mapBlocks (attachBlock []), queue) := by
  cases kind with
  | branch condition body elseIfs otherwise =>
      simp only [StatementKind.blocks, List.cons_append, List.forall_mem_cons,
        List.forall_mem_append, List.forall_mem_map, Option.mem_toList] at keep
      obtain ⟨keepBody, keepElseIfs, keepOtherwise⟩ := keep
      rw [queueKind, run_bind (keepBody queue), run_bind (run_queueElseIfs keepElseIfs queue),
        run_bind (run_queueOtherwise keepOtherwise queue)]
      rfl
  | switch subject clauses =>
      simp only [StatementKind.blocks, List.forall_mem_map] at keep
      rw [queueKind, run_bind (run_queueClauses keep queue)]
      rfl
  | tryCatch body catches =>
      simp only [StatementKind.blocks, List.forall_mem_cons, List.forall_mem_map] at keep
      obtain ⟨keepBody, keepCatches⟩ := keep
      rw [queueKind, run_bind (keepBody queue), run_bind (run_queueCatches keepCatches queue)]
      rfl
  | whileLoop | loop | forLoop =>
      rw [StatementKind.blocks, List.forall_mem_singleton] at keep
      rw [queueKind, run_bind (keep queue)]
      rfl
  | _ => rfl

theorem run_queueStatements (body : List Statement) (waiting : List Docblock) :
    ∃ left, (queueStatements body).run waiting = (attachBlock waiting body, left) := by
  induction body using block_induction generalizing waiting with
  | nil => exact ⟨waiting, by rw [attachBlock]; rfl⟩
  | cons s rest inside ih =>
      cases isComment : s.isComment with
      | true =>
          obtain ⟨kind, pos, docblocks⟩ := s
          cases kind with
          | comment text =>
              obtain ⟨left, ran⟩ := ih (waiting ++ (docblock? text pos).toList)
              exact ⟨left, by rw [queueStatements, attachBlock_comment isComment]; exact ran⟩
          | _ => contradiction
      | false =>
          have keep : ∀ block ∈ s.kind.blocks, KeepsQueue block := by
            intro block among queue
            obtain ⟨left, ran⟩ := inside block among []
            exact run_inOwnQueue ran
          obtain ⟨left, ran⟩ := ih []
          refine ⟨left, ?_⟩
          obtain ⟨kind, pos, docblocks⟩ := s
          rw [attachBlock_plain isComment, queueStatements, run_bind run_takeWaiting,
            run_bind (run_queueKind keep []), run_bind ran]
          · rfl
          · rintro text rfl
            contradiction

theorem keepsQueue (body : List Statement) : KeepsQueue body := by
  intro queue
  obtain ⟨left, ran⟩ := run_queueStatements body []
  exact run_inOwnQueue ran

theorem attached_iff : Attached body out ↔ out = attachBlock [] body := by
  constructor
  · exact fun attached => @Attached.eq_attachBlock [] _ _ (List.forall_mem_nil _) attached
  · rintro rfl
    exact @attached_attachBlock [] _ (List.forall_mem_nil _)

/-- Comments are attached by the rule and by nothing else. The queue that all blocks share is left
as it was found, be it by a block or, in the phase, by a method; a function takes what waits for it,
and its body leaves nothing in its place. -/
theorem comments_stay_in_their_block :
    (∀ body out, Attached body out ↔ out = attachBlock [] body) ∧
    (∀ body queue, (inOwnQueue (queueStatements body)).run queue = (attachBlock [] body, queue)) ∧
    (∀ owner m queue, ∃ made,
      ((attachComments .whole).method owner m).run queue = .ok ((some made, owner), queue) ∧
        Attached m.body made.body) ∧
    ∀ decl pos docblocks queue, ∃ made attached,
      ((attachComments .whole).top ⟨.functionDecl decl, pos, docblocks⟩).run queue =
        .ok (some ⟨.functionDecl made, pos, attached⟩, []) ∧ Attached decl.body made.body := by
  refine ⟨fun body out => attached_iff, keepsQueue, ?_, ?_⟩
  · intro owner m queue
    exact ⟨m.attach, rfl, attached_iff.mpr rfl⟩
  · intro decl pos docblocks queue
    exact ⟨{ decl with docblock := none, body := attachBlock [] decl.body }, _, rfl,
      attached_iff.mpr rfl⟩

end Zephir
