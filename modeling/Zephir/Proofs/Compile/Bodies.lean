import Zephir.Compile
import Zephir.Proofs.Lowering.NormalForm

/-!
Bodies before lowering. Compaction and the attaching of comments go through the same blocks, and
neither looks into an expression. A body is settled if what lowering keeps of it passes a check once
the comments of its blocks are attached. The comments of closures stay where they are.
-/

namespace Zephir

mutual

/-- What lowering keeps of a block passes the check, comments apart. -/
def SettledBlock (c : Check) : List Statement → Prop
  | [] => True
  | ⟨kind, _, _⟩ :: rest => SettledInner c kind ∧ SettledBlock c rest

def SettledInner (c : Check) : StatementKind → Prop
  | .branch condition body elseIfs otherwise =>
    KeptExpr c condition ∧ SettledBlock c body ∧ SettledElseIfs c elseIfs ∧
      SettledOtherwise c otherwise
  | .whileLoop _ condition body => KeptExpr c condition ∧ SettledBlock c body
  | .loop body => SettledBlock c body
  | .forLoop _ iterated body => KeptExpr c iterated ∧ SettledBlock c body
  | .switch subject clauses => KeptExpr c subject ∧ SettledClauses c clauses
  | .tryCatch body catches => SettledBlock c body ∧ SettledCatches c catches
  | .comment _ => True
  | kind => KeptInner c kind

def SettledElseIfs (c : Check) : List ElseIf → Prop
  | [] => True
  | ⟨condition, body, _⟩ :: rest =>
    KeptExpr c condition ∧ SettledBlock c body ∧ SettledElseIfs c rest

def SettledOtherwise (c : Check) : Option (List Statement) → Prop
  | none => True
  | some body => SettledBlock c body

def SettledClauses (c : Check) : List SwitchClause → Prop
  | [] => True
  | ⟨test, body⟩ :: rest => KeptOption c test ∧ SettledBlock c body ∧ SettledClauses c rest

def SettledCatches (c : Check) : List Catch → Prop
  | [] => True
  | ⟨classes, binding, body, _⟩ :: rest =>
    EveryExprs c classes ∧ EveryOption c binding ∧ SettledBlock c body ∧ SettledCatches c rest

end

variable {c : Check}

mutual

theorem keptBlock_attachBlock (waiting : List Docblock) : (body : List Statement) →
    (KeptBlock c (attachBlock waiting body) ↔ SettledBlock c body)
  | [] => by simp [attachBlock, KeptBlock, SettledBlock]
  | ⟨kind, pos, docblocks⟩ :: rest => by
      have inner := keptInner_attachKind kind
      cases kind with
      | comment text =>
          rw [attachBlock, keptBlock_attachBlock _ rest, SettledBlock]
          simp [SettledInner]
      | _ =>
          rw [attachBlock, KeptBlock, KeptStatement, inner nofun, keptBlock_attachBlock _ rest,
            SettledBlock]
          simp

theorem keptInner_attachKind (kind : StatementKind) (plain : ∀ text, kind ≠ .comment text) :
    KeptInner c (attachKind kind) ↔ SettledInner c kind := by
  cases kind with
  | branch condition body elseIfs otherwise =>
      cases otherwise with
      | none =>
          rw [attachKind, KeptInner, SettledInner, keptBlock_attachBlock [] body,
            keptElseIfs_attachElseIfs elseIfs, KeptOtherwise, SettledOtherwise]
      | some final =>
          rw [attachKind, KeptInner, SettledInner, keptBlock_attachBlock [] body,
            keptElseIfs_attachElseIfs elseIfs, KeptOtherwise, SettledOtherwise,
            keptBlock_attachBlock [] final]
  | whileLoop kind condition body =>
      rw [attachKind, KeptInner, SettledInner, keptBlock_attachBlock [] body]
  | loop body => rw [attachKind, KeptInner, SettledInner, keptBlock_attachBlock [] body]
  | forLoop head iterated body =>
      rw [attachKind, KeptInner, SettledInner, keptBlock_attachBlock [] body]
  | switch subject clauses =>
      rw [attachKind, KeptInner, SettledInner, keptClauses_attachClauses clauses]
  | tryCatch body catches =>
      rw [attachKind, KeptInner, SettledInner, keptBlock_attachBlock [] body,
        keptCatches_attachCatches catches]
  | comment text => exact absurd rfl (plain text)
  | _ => simp [attachKind, SettledInner]

theorem keptElseIfs_attachElseIfs : (elseIfs : List ElseIf) →
    (KeptElseIfs c (attachElseIfs elseIfs) ↔ SettledElseIfs c elseIfs)
  | [] => by simp [attachElseIfs, KeptElseIfs, SettledElseIfs]
  | ⟨condition, body, pos⟩ :: rest => by
      rw [attachElseIfs, KeptElseIfs, SettledElseIfs, keptBlock_attachBlock [] body,
        keptElseIfs_attachElseIfs rest]

theorem keptClauses_attachClauses : (clauses : List SwitchClause) →
    (KeptClauses c (attachClauses clauses) ↔ SettledClauses c clauses)
  | [] => by simp [attachClauses, KeptClauses, SettledClauses]
  | ⟨test, body⟩ :: rest => by
      rw [attachClauses, KeptClauses, SettledClauses, keptBlock_attachBlock [] body,
        keptClauses_attachClauses rest]

theorem keptCatches_attachCatches : (catches : List Catch) →
    (KeptCatches c (attachCatches catches) ↔ SettledCatches c catches)
  | [] => by simp [attachCatches, KeptCatches, SettledCatches]
  | ⟨classes, binding, body, pos⟩ :: rest => by
      rw [attachCatches, KeptCatches, SettledCatches, keptBlock_attachBlock [] body,
        keptCatches_attachCatches rest]

end

theorem settledBlock_append {left right : List Statement} :
    SettledBlock c (left ++ right) ↔ SettledBlock c left ∧ SettledBlock c right := by
  induction left with
  | nil => simp [SettledBlock]
  | cons s rest ih =>
      obtain ⟨kind, pos, docblocks⟩ := s
      simp [SettledBlock, ih, and_assoc]

theorem settledBlock_initialLets (declared : List DeclaredVariable) :
    SettledBlock c (initialLets declared) ↔ KeptDeclared c declared := by
  induction declared with
  | nil => simp [initialLets, SettledBlock, KeptDeclared]
  | cons first rest ih =>
      obtain ⟨name, value, pos⟩ := first
      cases value with
      | none =>
          rw [KeptDeclared, KeptOption, true_and, ← ih]
          simp [initialLets, DeclaredVariable.initialAssignment?]
      | some value =>
          rw [KeptDeclared, KeptOption, ← ih]
          simp [initialLets, DeclaredVariable.initialAssignment?, SettledBlock, SettledInner,
            KeptInner, KeptLets, Assign.set, KeptExprs, KeptOption]

mutual

theorem settledBlock_compactBlock : (body : List Statement) →
    (SettledBlock c (compactBlock body) ↔ SettledBlock c body)
  | [] => by simp [compactBlock]
  | ⟨kind, pos, docblocks⟩ :: rest => by
      have inner := settledInner_compactKind kind
      cases kind with
      | cblock text =>
          rw [compactBlock, settledBlock_compactBlock rest, SettledBlock]
          simp [SettledInner, KeptInner]
      | declare dataType declared =>
          rw [compactBlock, settledBlock_append, settledBlock_initialLets,
            settledBlock_compactBlock rest, SettledBlock]
          simp [SettledInner, KeptInner]
      | _ =>
          rw [compactBlock, SettledBlock, inner, settledBlock_compactBlock rest, SettledBlock]
          all_goals simp

theorem settledInner_compactKind (kind : StatementKind) :
    SettledInner c (compactKind kind) ↔ SettledInner c kind := by
  cases kind with
  | branch condition body elseIfs otherwise =>
      cases otherwise with
      | none =>
          rw [compactKind, SettledInner, SettledInner, settledBlock_compactBlock body,
            settledElseIfs_compactElseIfs elseIfs, SettledOtherwise]
      | some final =>
          rw [compactKind, SettledInner, SettledInner, settledBlock_compactBlock body,
            settledElseIfs_compactElseIfs elseIfs, SettledOtherwise, SettledOtherwise,
            settledBlock_compactBlock final]
  | whileLoop kind condition body =>
      rw [compactKind, SettledInner, SettledInner, settledBlock_compactBlock body]
  | loop body => rw [compactKind, SettledInner, SettledInner, settledBlock_compactBlock body]
  | forLoop head iterated body =>
      rw [compactKind, SettledInner, SettledInner, settledBlock_compactBlock body]
  | switch subject clauses =>
      rw [compactKind, SettledInner, SettledInner, settledClauses_compactClauses clauses]
  | tryCatch body catches =>
      rw [compactKind, SettledInner, SettledInner, settledBlock_compactBlock body,
        settledCatches_compactCatches catches]
  | _ => simp [compactKind]

theorem settledElseIfs_compactElseIfs : (elseIfs : List ElseIf) →
    (SettledElseIfs c (compactElseIfs elseIfs) ↔ SettledElseIfs c elseIfs)
  | [] => by simp [compactElseIfs]
  | ⟨condition, body, pos⟩ :: rest => by
      rw [compactElseIfs, SettledElseIfs, SettledElseIfs, settledBlock_compactBlock body,
        settledElseIfs_compactElseIfs rest]

theorem settledClauses_compactClauses : (clauses : List SwitchClause) →
    (SettledClauses c (compactClauses clauses) ↔ SettledClauses c clauses)
  | [] => by simp [compactClauses]
  | ⟨test, body⟩ :: rest => by
      rw [compactClauses, SettledClauses, SettledClauses, settledBlock_compactBlock body,
        settledClauses_compactClauses rest]

theorem settledCatches_compactCatches : (catches : List Catch) →
    (SettledCatches c (compactCatches catches) ↔ SettledCatches c catches)
  | [] => by simp [compactCatches]
  | ⟨classes, binding, body, pos⟩ :: rest => by
      rw [compactCatches, SettledCatches, SettledCatches, settledBlock_compactBlock body,
        settledCatches_compactCatches rest]

end

/-- A lowered body passes a check exactly if the body was settled, comments attached. -/
theorem lowerBody_every_iff (accepts : c.AcceptsLowered) {locals locals' : Locals}
    {parameters : List Parameter} {body body' : List Statement}
    (ran : lowerBody locals parameters (attachBlock [] body) = .ok (body', locals')) :
    EveryBlock c body' ↔ SettledBlock c body := by
  unfold lowerBody at ran
  split at ran
  · contradiction
  · rename_i splice scope ranBlock
    cases ran
    obtain ⟨-, -, derived⟩ := lowerBlock_derives _ _ _ _ ranBlock
    rw [derived.every_iff accepts, keptBlock_attachBlock]

end Zephir
