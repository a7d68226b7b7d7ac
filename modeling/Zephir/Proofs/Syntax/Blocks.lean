import Mathlib.Data.List.Forall2
import Zephir.Syntax.Tree

/-!
The blocks of statements. A statement is made of what it says itself and of the blocks that it
holds, so a pass that changes blocks only is known by what it does to one block, and everything at
any depth is reached through blocks of blocks. Closures are expressions: their bodies are no blocks
of the statement in which they stand.
-/

namespace Zephir

def StatementKind.blocks : StatementKind → List (List Statement)
  | .branch _ body elseIfs otherwise => body :: elseIfs.map (·.body) ++ otherwise.toList
  | .whileLoop _ _ body => [body]
  | .loop body => [body]
  | .forLoop _ _ body => [body]
  | .switch _ clauses => clauses.map (·.body)
  | .tryCatch body catches => body :: catches.map (·.body)
  | _ => []

namespace StatementKind

def mapBlocks (f : List Statement → List Statement) : StatementKind → StatementKind
  | .branch condition body elseIfs otherwise =>
    .branch condition (f body) (elseIfs.map fun clause => { clause with body := f clause.body })
      (otherwise.map f)
  | .whileLoop kind condition body => .whileLoop kind condition (f body)
  | .loop body => .loop (f body)
  | .forLoop head iterated body => .forLoop head iterated (f body)
  | .switch subject clauses =>
    .switch subject (clauses.map fun clause => { clause with body := f clause.body })
  | .tryCatch body catches =>
    .tryCatch (f body) (catches.map fun clause => { clause with body := f clause.body })
  | kind => kind

/-- What a statement says itself: its blocks are there, but nothing is in them. -/
def skeleton : StatementKind → StatementKind :=
  mapBlocks fun _ => []

variable {kind other : StatementKind} {f : List Statement → List Statement}

@[simp] theorem blocks_mapBlocks : (kind.mapBlocks f).blocks = kind.blocks.map f := by
  cases kind with
  | branch condition body elseIfs otherwise =>
      cases otherwise <;> simp [mapBlocks, blocks, Function.comp_def]
  | _ => simp [mapBlocks, blocks, Function.comp_def]

@[simp] theorem skeleton_mapBlocks : (kind.mapBlocks f).skeleton = kind.skeleton := by
  cases kind with
  | branch condition body elseIfs otherwise =>
      cases otherwise <;> simp [skeleton, mapBlocks, Function.comp_def]
  | _ => simp [skeleton, mapBlocks, Function.comp_def]

theorem eq_of_map_eq_of_map_eq {α β γ : Type} {f : α → β} {g : α → γ} {left right : List α}
    (split : ∀ a b, f a = f b → g a = g b → a = b) (first : left.map f = right.map f)
    (second : left.map g = right.map g) : left = right := by
  induction left generalizing right with
  | nil => simpa using first.symm
  | cons a rest ih =>
      cases right with
      | nil => simp at first
      | cons b others =>
          rw [List.map_cons, List.map_cons, List.cons.injEq] at first second
          rw [split a b first.1 second.1, ih first.2 second.2]

/-- A statement is what it says itself and its blocks. -/
theorem eq_of_skeleton_of_blocks (alike : kind.skeleton = other.skeleton)
    (same : kind.blocks = other.blocks) : kind = other := by
  cases kind with
  | branch condition body elseIfs otherwise =>
      cases other with
      | branch condition' body' elseIfs' otherwise' =>
          simp only [skeleton, mapBlocks, StatementKind.branch.injEq] at alike
          simp only [blocks, List.cons_append, List.cons.injEq] at same
          obtain ⟨rfl, -, clauses, finals⟩ := alike
          have length : elseIfs.length = elseIfs'.length := by
            simpa using congrArg List.length clauses
          obtain ⟨bodies, last⟩ := List.append_inj same.2 (by simpa using length)
          have sameElseIfs : elseIfs = elseIfs' := by
            refine eq_of_map_eq_of_map_eq ?_ clauses bodies
            rintro ⟨_, _, _⟩ ⟨_, _, _⟩ alike same
            simp_all
          have sameOtherwise : otherwise = otherwise' := by
            cases otherwise <;> cases otherwise' <;> simp_all
          rw [same.1, sameElseIfs, sameOtherwise]
      | _ => simp [skeleton, mapBlocks] at alike
  | switch subject clauses =>
      cases other with
      | switch subject' clauses' =>
          simp only [skeleton, mapBlocks, StatementKind.switch.injEq] at alike
          simp only [blocks] at same
          have sameClauses : clauses = clauses' := by
            refine eq_of_map_eq_of_map_eq ?_ alike.2 same
            rintro ⟨_, _⟩ ⟨_, _⟩ alike same
            simp_all
          rw [alike.1, sameClauses]
      | _ => simp [skeleton, mapBlocks] at alike
  | tryCatch body catches =>
      cases other with
      | tryCatch body' catches' =>
          simp only [skeleton, mapBlocks, StatementKind.tryCatch.injEq] at alike
          simp only [blocks, List.cons.injEq] at same
          have sameCatches : catches = catches' := by
            refine eq_of_map_eq_of_map_eq ?_ alike.2 same.2
            rintro ⟨_, _, _, _⟩ ⟨_, _, _, _⟩ alike same
            simp_all
          rw [same.1, sameCatches]
      | _ => simp [skeleton, mapBlocks] at alike
  | _ => cases other <;> simp_all [skeleton, mapBlocks, blocks]

theorem sizeOf_lt_of_mem_blocks {block : List Statement} (among : block ∈ kind.blocks) :
    sizeOf block < sizeOf kind := by
  cases kind with
  | branch condition body elseIfs otherwise =>
      simp only [blocks, List.cons_append, List.mem_cons, List.mem_append, List.mem_map,
        Option.mem_toList] at among
      rw [branch.sizeOf_spec]
      rcases among with rfl | ⟨clause, listed, rfl⟩ | final
      · omega
      · have inside := List.sizeOf_lt_of_mem listed
        cases clause
        simp only [ElseIf.mk.sizeOf_spec] at inside ⊢
        omega
      · cases final
        rw [Option.some.sizeOf_spec]
        omega
  | switch subject clauses =>
      simp only [blocks, List.mem_map] at among
      obtain ⟨clause, listed, rfl⟩ := among
      have inside := List.sizeOf_lt_of_mem listed
      cases clause
      simp only [SwitchClause.mk.sizeOf_spec, switch.sizeOf_spec] at inside ⊢
      omega
  | tryCatch body catches =>
      simp only [blocks, List.mem_cons, List.mem_map] at among
      rw [tryCatch.sizeOf_spec]
      rcases among with rfl | ⟨clause, listed, rfl⟩
      · omega
      · have inside := List.sizeOf_lt_of_mem listed
        cases clause
        simp only [Catch.mk.sizeOf_spec] at inside ⊢
        omega
  | whileLoop kind condition body =>
      rw [blocks, List.mem_singleton] at among
      rw [among, whileLoop.sizeOf_spec]
      omega
  | loop body =>
      rw [blocks, List.mem_singleton] at among
      rw [among, loop.sizeOf_spec]
      omega
  | forLoop head iterated body =>
      rw [blocks, List.mem_singleton] at among
      rw [among, forLoop.sizeOf_spec]
      omega
  | _ => simp [blocks] at among

def operands : StatementKind → List Expr
  | .lets assignments =>
    assignments.flatMap fun entry => entry.assign.index ++ entry.assign.value.toList
  | .declare _ declared => declared.filterMap DeclaredVariable.value
  | .fetch e => [e]
  | .assign _ ⟨_, _, _, _, index, value⟩ => index ++ value.toList
  | .echo expressions => expressions
  | .effect _ e => [e]
  | .ret value => value.toList
  | .branch condition _ elseIfs _ => condition :: elseIfs.map ElseIf.condition
  | .whileLoop _ condition _ => [condition]
  | .forLoop _ iterated _ => [iterated]
  | .switch subject clauses => subject :: clauses.filterMap SwitchClause.test
  | .tryCatch _ catches =>
    catches.flatMap fun clause => clause.classes ++ clause.binding.toList
  | .loop _ | .jump _ | .empty | .comment _ | .cblock _ => []

@[simp] theorem operands_mapBlocks : (kind.mapBlocks f).operands = kind.operands := by
  cases kind <;>
    simp [mapBlocks, operands, Function.comp_def, List.filterMap_map, List.flatMap_map]

end StatementKind

theorem Statement.sizeOf_lt_of_mem_blocks {s : Statement} {block : List Statement}
    (among : block ∈ s.kind.blocks) : sizeOf block < sizeOf s := by
  obtain ⟨kind, pos, docblocks⟩ := s
  have inside : sizeOf block < sizeOf kind := StatementKind.sizeOf_lt_of_mem_blocks among
  rw [Statement.mk.sizeOf_spec]
  omega

theorem eq_map_of_forall₂ {α β : Type} {related : α → β → Prop} {f : α → β} {left : List α}
    {right : List β} (all : List.Forall₂ related left right)
    (only : ∀ a ∈ left, ∀ b, related a b → b = f a) : right = left.map f := by
  induction all with
  | nil => rfl
  | cons first _ ih =>
      rw [List.forall_mem_cons] at only
      rw [List.map_cons, only.1 _ first, ih only.2]

/-- Induction over a block: what holds of the blocks inside its first statement and of its rest has
to hold of the block. -/
@[elab_as_elim]
theorem block_induction {motive : List Statement → Prop} (nil : motive [])
    (cons : ∀ s rest, (∀ block ∈ s.kind.blocks, motive block) → motive rest → motive (s :: rest)) :
    ∀ body, motive body
  | [] => nil
  | s :: rest =>
    cons s rest (fun block _ => block_induction nil cons block) (block_induction nil cons rest)
termination_by body => sizeOf body
decreasing_by
  · have inside := Statement.sizeOf_lt_of_mem_blocks ‹_›
    rw [List.cons.sizeOf_spec]
    omega
  · rw [List.cons.sizeOf_spec]
    omega

def statementsIn : List Statement → List Statement
  | [] => []
  | s :: rest =>
    s :: (s.kind.blocks.attach.flatMap (fun block => statementsIn block.1) ++ statementsIn rest)
termination_by body => sizeOf body
decreasing_by
  · have inside := Statement.sizeOf_lt_of_mem_blocks block.2
    rw [List.cons.sizeOf_spec]
    omega
  · rw [List.cons.sizeOf_spec]
    omega

@[simp] theorem statementsIn_nil : statementsIn [] = [] := by
  rw [statementsIn]

@[simp] theorem statementsIn_cons (s : Statement) (rest : List Statement) :
    statementsIn (s :: rest) = s :: (s.kind.blocks.flatMap statementsIn ++ statementsIn rest) := by
  rw [statementsIn, List.flatMap_subtype fun _ _ => rfl, List.unattach_attach]

def blocksIn (body : List Statement) : List (List Statement) :=
  body :: (statementsIn body).flatMap (·.kind.blocks)

end Zephir
