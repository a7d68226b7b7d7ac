import Zephir.Proofs.Compile.Printable

/-!
Compaction is idempotent. It leaves no C block and no `declare` in any block that it goes through and
no raw member lists, and what has none of them is left as it is, without a warning.
-/

namespace Zephir

mutual

/-- No C block and no `declare` at any depth. What stands in closures does not count, since
compaction does not look into expressions. -/
def CompactBlock : List Statement → Prop
  | [] => True
  | ⟨kind, _, _⟩ :: rest => CompactKind kind ∧ CompactBlock rest

def CompactKind : StatementKind → Prop
  | .declare _ _ => False
  | .cblock _ => False
  | .branch _ body elseIfs otherwise =>
    CompactBlock body ∧ CompactElseIfs elseIfs ∧ CompactOtherwise otherwise
  | .whileLoop _ _ body => CompactBlock body
  | .loop body => CompactBlock body
  | .forLoop _ _ body => CompactBlock body
  | .switch _ clauses => CompactClauses clauses
  | .tryCatch body catches => CompactBlock body ∧ CompactCatches catches
  | _ => True

def CompactElseIfs : List ElseIf → Prop
  | [] => True
  | ⟨_, body, _⟩ :: rest => CompactBlock body ∧ CompactElseIfs rest

def CompactOtherwise : Option (List Statement) → Prop
  | none => True
  | some body => CompactBlock body

def CompactClauses : List SwitchClause → Prop
  | [] => True
  | ⟨_, body⟩ :: rest => CompactBlock body ∧ CompactClauses rest

def CompactCatches : List Catch → Prop
  | [] => True
  | ⟨_, _, body, _⟩ :: rest => CompactBlock body ∧ CompactCatches rest

end

theorem compactBlock_append {left right : List Statement} (first : CompactBlock left)
    (second : CompactBlock right) : CompactBlock (left ++ right) := by
  induction left with
  | nil => exact second
  | cons s rest ih =>
      obtain ⟨kind, pos, docblocks⟩ := s
      rw [CompactBlock] at first
      rw [List.cons_append, CompactBlock]
      exact ⟨first.1, ih first.2⟩

theorem compactBlock_initialLets (declared : List DeclaredVariable) :
    CompactBlock (initialLets declared) := by
  induction declared with
  | nil => simp [initialLets, CompactBlock]
  | cons first rest ih =>
      obtain ⟨name, value, pos⟩ := first
      cases value with
      | none => exact ih
      | some value =>
          have lets : CompactBlock
              [{ kind := .lets [{ assign := .set name value, pos }], pos }] := by
            simp [CompactBlock, CompactKind]
          exact compactBlock_append lets ih

mutual

theorem compactBlock_compactBlock : (body : List Statement) → CompactBlock (compactBlock body)
  | [] => by simp [compactBlock, CompactBlock]
  | ⟨kind, pos, docblocks⟩ :: rest => by
      have inner := compactKind_compactKind kind
      have others := compactBlock_compactBlock rest
      cases kind with
      | cblock text =>
          rw [compactBlock]
          exact others
      | declare dataType declared =>
          rw [compactBlock]
          exact compactBlock_append (compactBlock_initialLets declared) others
      | _ =>
          rw [compactBlock, CompactBlock]
          · exact ⟨inner (by simp) (by simp), others⟩
          all_goals simp

theorem compactKind_compactKind (kind : StatementKind) (kept : ∀ text, kind ≠ .cblock text)
    (declares : ∀ dataType declared, kind ≠ .declare dataType declared) :
    CompactKind (compactKind kind) := by
  cases kind with
  | declare dataType declared => exact absurd rfl (declares dataType declared)
  | cblock text => exact absurd rfl (kept text)
  | branch condition body elseIfs otherwise =>
      cases otherwise with
      | none =>
          rw [compactKind, CompactKind, CompactOtherwise]
          exact ⟨compactBlock_compactBlock body, compactElseIfs_compactElseIfs elseIfs, trivial⟩
      | some final =>
          rw [compactKind, CompactKind, CompactOtherwise]
          exact ⟨compactBlock_compactBlock body, compactElseIfs_compactElseIfs elseIfs,
            compactBlock_compactBlock final⟩
  | whileLoop kind condition body =>
      rw [compactKind, CompactKind]
      exact compactBlock_compactBlock body
  | loop body =>
      rw [compactKind, CompactKind]
      exact compactBlock_compactBlock body
  | forLoop head iterated body =>
      rw [compactKind, CompactKind]
      exact compactBlock_compactBlock body
  | switch subject clauses =>
      rw [compactKind, CompactKind]
      exact compactClauses_compactClauses clauses
  | tryCatch body catches =>
      rw [compactKind, CompactKind]
      exact ⟨compactBlock_compactBlock body, compactCatches_compactCatches catches⟩
  | _ => simp [compactKind, CompactKind]

theorem compactElseIfs_compactElseIfs : (elseIfs : List ElseIf) →
    CompactElseIfs (compactElseIfs elseIfs)
  | [] => by simp [compactElseIfs, CompactElseIfs]
  | ⟨condition, body, pos⟩ :: rest => by
      rw [compactElseIfs, CompactElseIfs]
      exact ⟨compactBlock_compactBlock body, compactElseIfs_compactElseIfs rest⟩

theorem compactClauses_compactClauses : (clauses : List SwitchClause) →
    CompactClauses (compactClauses clauses)
  | [] => by simp [compactClauses, CompactClauses]
  | ⟨test, body⟩ :: rest => by
      rw [compactClauses, CompactClauses]
      exact ⟨compactBlock_compactBlock body, compactClauses_compactClauses rest⟩

theorem compactCatches_compactCatches : (catches : List Catch) →
    CompactCatches (compactCatches catches)
  | [] => by simp [compactCatches, CompactCatches]
  | ⟨classes, binding, body, pos⟩ :: rest => by
      rw [compactCatches, CompactCatches]
      exact ⟨compactBlock_compactBlock body, compactCatches_compactCatches rest⟩

end

/-- Compaction has nothing to do: it leaves a part of a body as it is, with nothing to declare and
nothing to drop. -/
structure Untouched {α : Type} (part compacted : α) (declared : List (String × Local))
    (dropped : List Position) : Prop where
  same : compacted = part
  declared : declared = []
  dropped : dropped = []

namespace Untouched

variable {α β γ : Type} {part compacted : α} {other otherCompacted : β}
  {declared declared' : List (String × Local)} {dropped dropped' : List Position}

theorem nest (wrap : α → γ) (inner : Untouched part compacted declared dropped) :
    Untouched (wrap part) (wrap compacted) declared dropped :=
  ⟨by rw [inner.same], inner.declared, inner.dropped⟩

theorem both (join : α → β → γ) (first : Untouched part compacted declared dropped)
    (second : Untouched other otherCompacted declared' dropped') :
    Untouched (join part other) (join compacted otherCompacted) (declared ++ declared')
      (dropped ++ dropped') :=
  ⟨by rw [first.same, second.same], by rw [first.declared, second.declared, List.append_nil],
    by rw [first.dropped, second.dropped, List.append_nil]⟩

end Untouched

mutual

theorem untouched_block : (body : List Statement) → CompactBlock body →
    Untouched body (compactBlock body) (blockLocals body) (blockCblocks body)
  | [], _ => by
      rw [compactBlock, blockLocals, blockCblocks]
      exact ⟨rfl, rfl, rfl⟩
  | ⟨kind, pos, docblocks⟩ :: rest, compact => by
      rw [CompactBlock] at compact
      have whole := (untouched_kind kind compact.1).both (fun kind rest =>
        (⟨kind, pos, docblocks⟩ : Statement) :: rest) (untouched_block rest compact.2)
      cases kind with
      | cblock text => exact absurd compact.1 (by simp [CompactKind])
      | declare dataType declared => exact absurd compact.1 (by simp [CompactKind])
      | _ =>
          rw [compactBlock, blockLocals, blockCblocks]
          · exact whole
          all_goals simp

theorem untouched_kind (kind : StatementKind) (compact : CompactKind kind) :
    Untouched kind (compactKind kind) (kindLocals kind) (kindCblocks kind) := by
  cases kind with
  | branch condition body elseIfs otherwise =>
      cases otherwise with
      | none =>
          rw [CompactKind] at compact
          rw [compactKind, kindLocals, kindCblocks, List.append_nil, List.append_nil]
          exact (untouched_block body compact.1).both (StatementKind.branch condition · · none)
            (untouched_elseIfs elseIfs compact.2.1)
      | some final =>
          rw [CompactKind, CompactOtherwise] at compact
          rw [compactKind, kindLocals, kindCblocks]
          have branches := (untouched_block body compact.1).both Prod.mk
            (untouched_elseIfs elseIfs compact.2.1)
          exact branches.both
            (fun branches final => StatementKind.branch condition branches.1 branches.2 (some final))
            (untouched_block final compact.2.2)
  | whileLoop kind condition body =>
      rw [CompactKind] at compact
      rw [compactKind, kindLocals, kindCblocks]
      exact (untouched_block body compact).nest (StatementKind.whileLoop kind condition)
  | loop body =>
      rw [CompactKind] at compact
      rw [compactKind, kindLocals, kindCblocks]
      exact (untouched_block body compact).nest StatementKind.loop
  | forLoop head iterated body =>
      rw [CompactKind] at compact
      rw [compactKind, kindLocals, kindCblocks]
      exact (untouched_block body compact).nest (StatementKind.forLoop head iterated)
  | switch subject clauses =>
      rw [CompactKind] at compact
      rw [compactKind, kindLocals, kindCblocks]
      exact (untouched_clauses clauses compact).nest (StatementKind.switch subject)
  | tryCatch body catches =>
      rw [CompactKind] at compact
      rw [compactKind, kindLocals, kindCblocks]
      exact (untouched_block body compact.1).both StatementKind.tryCatch
        (untouched_catches catches compact.2)
  | _ => exact ⟨by simp [compactKind], by simp [kindLocals], by simp [kindCblocks]⟩

theorem untouched_elseIfs : (elseIfs : List ElseIf) → CompactElseIfs elseIfs →
    Untouched elseIfs (compactElseIfs elseIfs) (elseIfsLocals elseIfs) (elseIfsCblocks elseIfs)
  | [], _ => by
      rw [compactElseIfs, elseIfsLocals, elseIfsCblocks]
      exact ⟨rfl, rfl, rfl⟩
  | ⟨condition, body, pos⟩ :: rest, compact => by
      rw [CompactElseIfs] at compact
      rw [compactElseIfs, elseIfsLocals, elseIfsCblocks]
      exact (untouched_block body compact.1).both (fun body rest => ⟨condition, body, pos⟩ :: rest)
        (untouched_elseIfs rest compact.2)

theorem untouched_clauses : (clauses : List SwitchClause) → CompactClauses clauses →
    Untouched clauses (compactClauses clauses) (clausesLocals clauses) (clausesCblocks clauses)
  | [], _ => by
      rw [compactClauses, clausesLocals, clausesCblocks]
      exact ⟨rfl, rfl, rfl⟩
  | ⟨test, body⟩ :: rest, compact => by
      rw [CompactClauses] at compact
      rw [compactClauses, clausesLocals, clausesCblocks]
      exact (untouched_block body compact.1).both (fun body rest => ⟨test, body⟩ :: rest)
        (untouched_clauses rest compact.2)

theorem untouched_catches : (catches : List Catch) → CompactCatches catches →
    Untouched catches (compactCatches catches) (catchesLocals catches) (catchesCblocks catches)
  | [], _ => by
      rw [compactCatches, catchesLocals, catchesCblocks]
      exact ⟨rfl, rfl, rfl⟩
  | ⟨classes, binding, body, pos⟩ :: rest, compact => by
      rw [CompactCatches] at compact
      rw [compactCatches, catchesLocals, catchesCblocks]
      exact (untouched_block body compact.1).both
        (fun body rest => ⟨classes, binding, body, pos⟩ :: rest)
        (untouched_catches rest compact.2)

end

theorem Function.compact_compact (decl : Function) :
    decl.compact.compact = decl.compact ∧ blockCblocks decl.compact.body = [] := by
  obtain ⟨same, noLocals, noCblocks⟩ :=
    untouched_block decl.compact.body (compactBlock_compactBlock decl.body)
  refine ⟨?_, noCblocks⟩
  rw [Function.compact, same, noLocals]
  rfl

theorem Members.compact_of_definition_eq_none {owner : Members} (compact : owner.definition = none) :
    owner.compact = .ok (owner, []) := by
  rw [Members.compact, compact]

theorem Node.compact_compact {node out : Node} {dropped : List Position}
    (ran : node.compact = .ok (some out, dropped)) : out.compact = .ok (some out, []) := by
  obtain ⟨kind, pos, docblocks⟩ := node
  cases kind with
  | cblock text => cases ran
  | functionDecl decl =>
      cases ran
      obtain ⟨same, noCblocks⟩ := decl.compact_compact
      simp only [Node.compact, same, noCblocks]
  | classDecl decl =>
      obtain ⟨⟨members, places⟩, ranMembers, built⟩ := except_bind_ok ran
      cases built
      obtain ⟨compact, -⟩ := Members.compact_ok (c := .printable) ranMembers
      have again := Members.compact_of_definition_eq_none compact
      simp only [Node.compact, again]
      rfl
  | interfaceDecl decl =>
      obtain ⟨⟨members, places⟩, ranMembers, built⟩ := except_bind_ok ran
      cases built
      obtain ⟨compact, -⟩ := Members.compact_ok (c := .printable) ranMembers
      have again := Members.compact_of_definition_eq_none compact
      simp only [Node.compact, again]
      rfl
  | _ =>
      cases ran
      rfl

/-- A compacted unit is compacted to itself, and nothing is added to what was collected. -/
theorem compact_idempotent {unit made : List Node} {collector collector' : Collector}
    (ran : compact unit collector = .ok (made, collector')) (later : Collector) :
    compact made later = .ok (made, later) := by
  induction unit generalizing made collector with
  | nil =>
      cases ran
      rfl
  | cons node rest ih =>
      rw [compact] at ran
      obtain ⟨⟨out, dropped⟩, ranNode, ran⟩ := except_bind_ok ran
      obtain ⟨⟨others, collected⟩, ranRest, built⟩ := except_bind_ok ran
      cases built
      have again := ih ranRest
      cases out with
      | none => exact again
      | some out =>
          have first := Node.compact_compact ranNode
          simp only [Option.toList, List.singleton_append, compact, first, bind, Except.bind,
            List.map_nil, List.foldl_nil, again]
          rfl

def rawSample : List Node :=
  let local_ name value : DeclaredVariable := ⟨name, value, {}⟩
  let body : List Statement :=
    [{ kind := .declare "int" [local_ "i" (some (.nullAt {})), local_ "j" none], pos := {} },
      { kind := .loop [{ kind := .declare "string" [local_ "s" none], pos := {} },
        { kind := .cblock "zval *x;", pos := {} }], pos := {} }]
  let raw : Definition := ⟨[], [], [{ Method.plain "run" {} with body }]⟩
  [⟨.cblock "#include <x.h>", {}, []⟩,
    ⟨.functionDecl ⟨"f", [], body, .empty, none⟩, {}, []⟩,
    ⟨.classDecl ⟨"A", false, false, none, [], none, ⟨some raw, .empty, .empty, .empty⟩⟩, {}, []⟩]

theorem rawSample_idempotent :
    ∃ made collector, compact rawSample {} = .ok (made, collector) ∧ made.length = 2 ∧
      collector.size = 3 ∧ compact made collector = .ok (made, collector) := by
  have ran : compact rawSample {} = .ok (_, _) := rfl
  exact ⟨_, _, ran, rfl, rfl, compact_idempotent ran _⟩

end Zephir
