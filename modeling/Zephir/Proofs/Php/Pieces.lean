import Zephir.Php.Declaration
import Zephir.Proofs.Positions.Basic

/-!
How the generator puts scripts together. Whatever an expression or statement is, its script consists
of operations that leave the level alone, of failures at places of the tree, and of bodies in braces
that are entered and left again. What holds of these pieces holds of all that is generated.
-/

namespace Zephir

def operatorTexts : List String :=
  ["(", ")", "[", "]", ",", ";", "->", "::", "=>", "?", ":", "as", "instanceof", "extends",
    "implements", "++", "--", "=", "+=", "-=", "*=", "/=", ".=", "%=", "+", "-", "*", "/", "%", ".",
    "|", "&", "^", "<<", ">>", "==", "!=", "===", "!==", "&&", "||", "<", "<=", ">", ">="]

def Op.isPlain : Op → Bool
  | .start _ => false
  | .keyword word => word != "case" && word != "default"
  | .operator op context => operatorTexts.contains op && (op != ":" || context != some "case")
  | .indent => false
  | .unindent => false
  | .pushIndent => false
  | .popIndent => false
  | _ => true

namespace Php

open Script

mutual

/-- A script of the generator that fails at most at a known place. -/
inductive Piece (known : Position → Prop) : Script → Prop
  | ops {ops : List Op} (plain : ∀ op ∈ ops, op.isPlain = true) : Piece known (of ops)
  | failed {cause : Cause} {pos : Position} (at_ : known pos) : Piece known (fail (cause.at pos))
  | append {first second : Script} (left : Piece known first) (right : Piece known second) :
      Piece known (first ++ second)
  | braces {inner : Script} {opening closing : String} (piece : Piece known inner) :
      Piece known (opIn "\x7b" opening ++ of [.flush, .indent] ++ inner ++
        of [.flush, .unindent] ++ opIn "\x7d" closing)
  | switch {clauses : Script} (all : Clauses known clauses) :
      Piece known (opIn "\x7b" "control" ++ of [.flush, .indent] ++ clauses ++ of [.unindent] ++
        opIn "\x7d" "block")

inductive Clauses (known : Position → Prop) : Script → Prop
  | nil : Clauses known empty
  | case {test body rest : Script} (tested : Piece known test) (piece : Piece known body)
      (others : Clauses known rest) :
      Clauses known (word "case" ++ test ++ opIn ":" "case" ++ of [.flush, .indent] ++ body ++
        of [.flush, .unindent] ++ rest)
  | default {body rest : Script} (piece : Piece known body) (others : Clauses known rest) :
      Clauses known (word "default" ++ opIn ":" "case" ++ of [.flush, .indent] ++ body ++
        of [.flush, .unindent] ++ rest)

end

def Pieces (known : Position → Prop) (scripts : List Script) : Prop :=
  ∀ s ∈ scripts, Piece known s

theorem append_assoc (first second third : Script) :
    first ++ second ++ third = first ++ (second ++ third) := by
  change Script.append (Script.append first second) third =
    Script.append first (Script.append second third)
  unfold Script.append
  cases failedFirst : first.failure with
  | some d => simp [failedFirst]
  | none =>
      cases failedSecond : second.failure with
      | some d => simp [failedSecond]
      | none => simp

variable {known : Position → Prop}

@[simp] theorem piece_empty : Piece known Script.empty := by
  apply Piece.ops
  simp

theorem piece_of {op : Op} (plain : op.isPlain = true) : Piece known (of [op]) :=
  .ops (by simpa using plain)

@[simp] theorem piece_token (sign : String) (before after : Option Bool) :
    Piece known (of [.token sign before after]) :=
  piece_of rfl

@[simp] theorem piece_text (s : String) : Piece known (text s) :=
  piece_of rfl

@[simp] theorem piece_semicolon : Piece known semicolon :=
  piece_of rfl

@[simp] theorem piece_op {sign : String} (plain : (Op.operator sign none).isPlain = true) :
    Piece known (op sign) :=
  piece_of plain

@[simp] theorem piece_opIn {sign context : String}
    (plain : (Op.operator sign (some context)).isPlain = true) :
    Piece known (opIn sign context) :=
  piece_of plain

@[simp] theorem piece_word {s : String} (plain : (Op.keyword s).isPlain = true) :
    Piece known (word s) :=
  piece_of plain

theorem isPlain_keyword {s : String} (first : Char) (lead : s.toList.head? = some first)
    (other : first ≠ 'c' ∧ first ≠ 'd') : (Op.keyword s).isPlain = true := by
  have notCase : s ≠ "case" := by
    rintro rfl
    exact other.1 (Option.some.inj lead).symm
  have notDefault : s ≠ "default" := by
    rintro rfl
    exact other.2 (Option.some.inj lead).symm
  simp [Op.isPlain, notCase, notDefault]

@[simp] theorem piece_word_dollar (name : String) : Piece known (word (dollar name)) :=
  piece_word (isPlain_keyword '$' (by simp [dollar]) (by decide))

@[simp] theorem piece_word_cast (name : String) : Piece known (word ("(" ++ name ++ ")")) :=
  piece_word (isPlain_keyword '(' (by simp) (by decide))

@[simp] theorem piece_op_binary (kind : BinaryOp) : Piece known (op kind.php) :=
  piece_op (by cases kind <;> rfl)

@[simp] theorem piece_op_assign (operator : AssignOp) : Piece known (op operator.php) :=
  piece_op (by cases operator <;> rfl)

@[simp] theorem piece_docblocks (docs : List Docblock) : Piece known (docblocks docs) := by
  refine .ops ?_
  intro op among
  obtain ⟨doc, -, among⟩ := List.mem_flatMap.mp among
  rcases List.mem_cons.mp among with rfl | among
  · rfl
  · obtain ⟨line, -, rfl⟩ := List.mem_map.mp among
    rfl

@[simp] theorem piece_unhandled {kind : String} {pos : Position} (at_ : known pos) :
    Piece known (unhandled kind pos) :=
  .failed at_

@[simp] theorem piece_malformed {message : String} {pos : Position} (at_ : known pos) :
    Piece known (malformed message pos) :=
  .failed at_

@[simp] theorem piece_invalidTarget {statement : String} {target : AssignTarget} {pos : Position}
    (at_ : known pos) : Piece known (invalidTarget statement target pos) :=
  .failed at_

@[simp] theorem pieces_nil : Pieces known [] := by
  simp [Pieces]

@[simp] theorem pieces_cons {s : Script} {rest : List Script} :
    Pieces known (s :: rest) ↔ Piece known s ∧ Pieces known rest := by
  simp [Pieces]

theorem pieces_map {α : Type} {values : List α} {script : α → Script}
    (all : ∀ value ∈ values, Piece known (script value)) : Pieces known (values.map script) := by
  intro s member
  obtain ⟨value, among, rfl⟩ := List.mem_map.mp member
  exact all value among

@[simp] theorem piece_join {scripts : List Script} (all : Pieces known scripts) :
    Piece known (join scripts) := by
  induction scripts with
  | nil => exact piece_empty
  | cons s rest ih =>
      rw [pieces_cons] at all
      exact .append all.1 (ih all.2)

theorem piece_join_behind {lead : Script} {scripts : List Script} (piece : Piece known lead)
    (all : Pieces known scripts) : Piece known (join (scripts.map (lead ++ ·))) := by
  apply piece_join
  apply pieces_map
  intro s member
  exact .append piece (all s member)

@[simp] theorem piece_commas {scripts : List Script} (all : Pieces known scripts) :
    Piece known (commas scripts) := by
  cases scripts with
  | nil => exact piece_empty
  | cons s rest =>
      rw [pieces_cons] at all
      exact .append all.1 (piece_join_behind (piece_op rfl) all.2)

@[simp] theorem piece_grouped {inner : Script} (piece : Piece known inner) :
    Piece known (grouped inner) := by
  unfold grouped
  with_reducible repeat' apply Piece.append
  all_goals simp [piece]

@[simp] theorem piece_braced {inner : Script} (piece : Piece known inner) :
    Piece known (braced inner) := by
  unfold braced
  with_reducible repeat' apply Piece.append
  all_goals simp [piece]

@[simp] theorem piece_indexed {inner : Script} (piece : Piece known inner) :
    Piece known (indexed inner) := by
  unfold indexed
  with_reducible repeat' apply Piece.append
  all_goals simp +decide [piece]

@[simp] theorem piece_call {function : String} {arguments : List Script}
    (all : Pieces known arguments) : Piece known (call function arguments) := by
  unfold call Script.arguments
  with_reducible repeat' apply Piece.append
  all_goals simp +decide [all]

@[simp] theorem piece_condition {inner : Script} (piece : Piece known inner) :
    Piece known (condition inner) := by
  unfold condition
  with_reducible repeat' apply Piece.append
  all_goals simp +decide [piece]

@[simp] theorem piece_parenthesized {parameters : List Script} {context : String}
    (all : Pieces known parameters) : Piece known (parenthesized parameters context) := by
  unfold parenthesized
  with_reducible repeat' apply Piece.append
  all_goals simp [all, Op.isPlain, operatorTexts]

@[simp] theorem piece_block {isEmpty : Bool} {statements : Script} {opening closing : String}
    {onEmpty : EmptyBlock} (piece : Piece known statements) :
    Piece known (block isEmpty statements opening closing onEmpty) := by
  unfold block
  split
  · exact piece_semicolon
  · exact .braces piece

@[simp] theorem piece_operand {e : Expr} {inner : Script} {least : Nat}
    (piece : Piece known inner) : Piece known (operand e inner least) := by
  unfold operand
  split <;> simp [piece]

@[simp] theorem piece_className {e : Expr} {inner : Script} (piece : Piece known inner) :
    Piece known (className e inner) := by
  unfold className
  split <;> simp [piece]

@[simp] theorem piece_memberName {e : Expr} {inner : Script} (piece : Piece known inner) :
    Piece known (memberName e inner) := by
  unfold memberName
  split <;> simp [piece]

@[simp] theorem piece_staticMember {kind : AccessKind} {member : Expr} {pos : Position}
    (at_ : known pos) : Piece known (staticMember kind member pos) := by
  unfold staticMember
  split <;> simp [at_]

@[simp] theorem piece_literal {kind : LiteralKind} {value : String} {pos : Position}
    (at_ : known pos) : Piece known (literal kind value pos) := by
  cases kind <;> simp [literal, at_]

@[simp] theorem piece_access {kind : AccessKind} {object member : Expr}
    {objectScript memberScript : Script} {pos : Position} (at_ : known pos)
    (pieceObject : Piece known objectScript) (pieceMember : Piece known memberScript) :
    Piece known (access kind object member objectScript memberScript pos) := by
  cases kind <;> unfold access
  all_goals
    with_reducible repeat' apply Piece.append
    all_goals simp +decide [at_, pieceObject, pieceMember]

@[simp] theorem piece_issetAccess {kind : AccessKind} {object member : Expr}
    {objectScript memberScript : Script} {pos : Position} (at_ : known pos)
    (pieceObject : Piece known objectScript) (pieceMember : Piece known memberScript) :
    Piece known (issetAccess kind object member objectScript memberScript pos) := by
  cases kind with
  | property =>
      unfold issetAccess
      cases member.name? <;> simp [pieceObject, pieceMember]
  | staticProperty =>
      have place : Piece known (className object objectScript ++ op "::" ++
          staticMember .staticProperty member pos) :=
        .append (.append (piece_className pieceObject) (piece_op rfl)) (piece_staticMember at_)
      simp [issetAccess, place]
  | _ => simp [issetAccess, at_, pieceObject, pieceMember]

@[simp] theorem piece_unary {op : UnaryOp} {inner : Expr} {script : Script} {pos : Position}
    (at_ : known pos) (piece : Piece known script) : Piece known (unary op inner script pos) := by
  have signed : ∀ sign, Piece known (of [.token sign none (some false)] ++
      (if leadsWith inner sign then grouped script
      else operand inner script (unaryFormLevel op))) := by
    intro sign
    refine .append (piece_token _ _ _) ?_
    split <;> simp [piece]
  cases op with
  | not | bitNot | minus | plus => exact signed _
  | clone => exact .append (piece_word rfl) (piece_operand piece)
  | require => exact .append (piece_word rfl) piece
  | _ => simp [unary, UnaryOp.sign?, at_, piece]

@[simp] theorem piece_withProperty {property : Option String} {pos : Position}
    {script : String → Script} (at_ : known pos) (piece : ∀ name, Piece known (script name)) :
    Piece known (withProperty property pos script) := by
  cases property with
  | none => exact piece_malformed at_
  | some name => exact piece name

@[simp] theorem piece_targetBase {target : AssignTarget} {base : String}
    {property : Option String} {statement : String} {pos : Position} (at_ : known pos) :
    Piece known (targetBase target base property statement pos) := by
  cases target <;> unfold targetBase
  all_goals
    with_reducible repeat' apply Piece.append
    all_goals simp +decide [at_]

@[simp] theorem piece_location {target : AssignTarget} {base : String} {property : Option String}
    {index : List Script} {statement : String} {pos : Position} (at_ : known pos)
    (all : Pieces known index) :
    Piece known (location target base property index statement pos) := by
  have indices : Piece known (join (index.map indexed)) := by
    apply piece_join
    apply pieces_map
    exact fun s member => piece_indexed (all s member)
  unfold location
  split <;> split
  all_goals
    with_reducible repeat' apply Piece.append
    all_goals simp +decide [at_, indices]

@[simp] theorem piece_loopHead {head : ForHead} {iterated : Script} {pos : Position}
    (at_ : known pos) (piece : Piece known iterated) :
    Piece known (loopHead head iterated pos) := by
  unfold loopHead
  split
  · exact piece_malformed at_
  · split
    · split
      · unfold countedHead
        with_reducible repeat' apply Piece.append
        all_goals simp +decide
      · exact piece_malformed at_
    · unfold eachHead
      split
      all_goals
        with_reducible repeat' apply Piece.append
        all_goals simp +decide [piece]

@[simp] theorem piece_catchVariable {binding : Option Expr} {pos : Position} (at_ : known pos) :
    Piece known (catchVariable binding pos) := by
  unfold catchVariable
  split
  · exact piece_empty
  · split <;> simp [at_]

theorem piece_counted {assign : Assign} {sign name : String} {pos : Position} (at_ : known pos)
    (plain : (Op.operator sign none).isPlain = true) (all : Pieces known (exprs assign.index)) :
    Piece known (counted assign sign name pos) := by
  obtain ⟨target, operator, base, property, index, value⟩ := assign
  rw [counted]
  split
  · exact piece_invalidTarget at_
  · exact .append (.append (piece_location at_ all) (piece_op plain)) piece_semicolon

@[simp] theorem piece_catchClasses {classes : List Script} (all : Pieces known classes) :
    Piece known (catchClasses classes) := by
  cases classes with
  | nil => exact piece_text _
  | cons first rest =>
      rw [pieces_cons] at all
      exact .append all.1 (piece_join_behind (piece_op rfl) all.2)

mutual

theorem piece_expr : (e : Expr) → AllAt known (exprPositions e) → Piece known (expr e)
  | ⟨kind, pos, _, _⟩, places => by
      rw [exprPositions, allAt_cons] at places
      rw [expr]
      exact piece_exprKind pos places.1 kind places.2

theorem piece_exprKind (pos : Position) (at_ : known pos) : (kind : ExprKind) →
    AllAt known (partPositions kind) → Piece known (exprKind pos kind)
  | .null, _ => by simp [exprKind]
  | .literal kind value, _ => by simp [exprKind, at_]
  | .emptyArray, _ => by
      rw [exprKind]
      exact .append (piece_op rfl) (piece_op rfl)
  | .array entries, places => by
      rw [exprKind]
      exact .append (.append (piece_op rfl) (piece_commas (pieces_arrayEntries entries places)))
        (piece_op rfl)
  | .var name, _ => by simp [exprKind]
  | .access kind object member, places => by
      rw [partPositions, allAt_append] at places
      rw [exprKind]
      exact piece_access at_ (piece_expr object places.1) (piece_expr member places.2)
  | .call name callType arguments, places => by
      rw [exprKind]
      exact piece_call (pieces_exprs arguments places)
  | .methodCall receiver name callType arguments, places => by
      rw [partPositions, allAt_append] at places
      rw [exprKind]
      exact .append (.append (piece_operand (piece_expr receiver places.1)) (piece_op rfl))
        (piece_call (pieces_exprs arguments places.2))
  | .staticCall callee arguments, places => by
      rw [exprKind]
      exact .append (.append (piece_text _) (piece_op rfl))
        (piece_call (pieces_exprs arguments places))
  | .new name dynamic arguments, places => by
      rw [exprKind]
      exact .append (piece_word rfl) (piece_call (pieces_exprs arguments places))
  | .newType typeName arguments, _ => by simp [exprKind, at_]
  | .unary op operand, places => by
      by_cases isIsset : op = .isset
      · subst isIsset
        rw [exprKind]
        exact piece_isset operand places
      · rw [exprKind]
        · exact piece_unary at_ (piece_expr operand places)
        · exact isIsset
  | .binary op left right, places => by
      rw [partPositions, allAt_append] at places
      rw [exprKind]
      exact .append (.append (piece_operand (piece_expr left places.1)) (piece_op_binary op))
        (piece_operand (piece_expr right places.2))
  | .instanceOf value name, places => by
      rw [partPositions, allAt_append] at places
      rw [exprKind]
      exact .append (.append (piece_operand (piece_expr value places.1)) (piece_op rfl))
        (piece_className (piece_expr name places.2))
  | .range kind low high, _ => by simp [exprKind, at_]
  | .ternary condition yes no, places => by
      simp only [partPositions, allAt_append] at places
      have first := piece_expr condition places.1.1
      have second := piece_expr yes places.1.2
      have third := piece_expr no places.2
      rw [exprKind]
      with_reducible repeat' apply Piece.append
      all_goals simp +decide [first, second, third]
  | .cast typeName operand, places => by
      rw [exprKind]
      exact .append (piece_word_cast typeName) (piece_operand (piece_expr operand places))
  | .typeHint hint operand, _ => by simp [exprKind, at_]
  | .fetch target source, _ => by simp [exprKind, at_]
  | .closure params body locals, places => by
      simp only [partPositions, allAt_append] at places
      rw [exprKind]
      exact .append (.append (piece_word rfl)
        (piece_parenthesized (pieces_parameters params places.1.1)))
        (piece_block (piece_statements body places.1.2))
  | .closureArrow parameter body, _ => by simp [exprKind, at_]

theorem piece_isset : (e : Expr) → AllAt known (exprPositions e) → Piece known (isset e)
  | ⟨kind, pos, _, _⟩, places => by
      rw [exprPositions, allAt_cons] at places
      cases kind with
      | access kind object member =>
          rw [partPositions, allAt_append] at places
          rw [isset]
          exact piece_issetAccess places.1 (piece_expr object places.2.1)
            (piece_expr member places.2.2)
      | var name => simp [isset]
      | _ =>
          rw [isset]
          · exact piece_unhandled places.1
          all_goals simp

theorem pieces_exprs : (es : List Expr) → AllAt known (exprsPositions es) →
    Pieces known (exprs es)
  | [], _ => by simp [exprs]
  | e :: rest, places => by
      rw [exprsPositions, allAt_append] at places
      rw [exprs, pieces_cons]
      exact ⟨piece_expr e places.1, pieces_exprs rest places.2⟩

theorem pieces_classNames : (es : List Expr) → AllAt known (exprsPositions es) →
    Pieces known (classNames es)
  | [], _ => by simp [classNames]
  | e :: rest, places => by
      rw [exprsPositions, allAt_append] at places
      rw [classNames, pieces_cons]
      exact ⟨piece_className (piece_expr e places.1), pieces_classNames rest places.2⟩

theorem pieces_arrayEntries : (entries : List ArrayEntry) →
    AllAt known (entryPositions entries) → Pieces known (arrayEntries entries)
  | [], _ => by simp [arrayEntries]
  | ⟨none, value⟩ :: rest, places => by
      simp only [entryPositions, allAt_append] at places
      rw [arrayEntries, pieces_cons]
      exact ⟨.append piece_empty (piece_expr value places.1.2),
        pieces_arrayEntries rest places.2⟩
  | ⟨some key, value⟩ :: rest, places => by
      simp only [entryPositions, optionPositions, allAt_append] at places
      rw [arrayEntries, pieces_cons]
      exact ⟨.append (.append (piece_expr key places.1.1) (piece_op rfl))
        (piece_expr value places.1.2), pieces_arrayEntries rest places.2⟩

theorem piece_initial : (value : Option Expr) → AllAt known (optionPositions value) →
    Piece known (initial value)
  | none, _ => by simp [initial]
  | some e, places => by
      rw [initial]
      exact .append (piece_op rfl) (piece_expr e places)

theorem pieces_parameters : (params : List Parameter) →
    AllAt known (parameterPositions params) → Pieces known (parameters params)
  | [], _ => by simp [parameters]
  | ⟨name, _, value, _, reference, _⟩ :: rest, places => by
      simp only [parameterPositions, allAt_append, allAt_cons] at places
      rw [parameters, pieces_cons]
      exact ⟨.append (piece_text _) (piece_initial value places.1.2),
        pieces_parameters rest places.2⟩

theorem piece_statements : (body : List Statement) →
    AllAt known (blockPositions body) → Piece known (statements body)
  | [], _ => by simp [statements]
  | ⟨kind, pos, docs⟩ :: rest, places => by
      simp only [blockPositions, statementPositions, allAt_append,
        allAt_cons] at places
      rw [statements, statement]
      exact .append (.append (piece_docblocks docs)
        (piece_statementKind pos places.1.1.1 kind places.1.2)) (piece_statements rest places.2)

theorem piece_statementKind (pos : Position) (at_ : known pos) : (kind : StatementKind) →
    AllAt known (innerPositions kind) → Piece known (statementKind pos kind)
  | .assign .set ⟨target, operator, base, property, index, none⟩, places => by
      simp only [innerPositions, allAt_append] at places
      have place : Piece known (location target base property (exprs index) "assign" pos) :=
        piece_location at_ (pieces_exprs index places.1)
      rw [statementKind, assignment]
      exact .append (.append place (piece_malformed at_)) piece_semicolon
  | .assign .set ⟨target, operator, base, property, index, some value⟩, places => by
      simp only [innerPositions, optionPositions, allAt_append] at places
      have place : Piece known (location target base property (exprs index) "assign" pos) :=
        piece_location at_ (pieces_exprs index places.1)
      rw [statementKind, assignment]
      exact .append (.append place (.append (piece_op_assign _) (piece_expr value places.2)))
        piece_semicolon
  | .assign .increment ⟨target, operator, base, property, index, value⟩, places => by
      simp only [innerPositions, allAt_append] at places
      rw [statementKind]
      exact piece_counted at_ rfl (pieces_exprs index places.1)
  | .assign .decrement ⟨target, operator, base, property, index, value⟩, places => by
      simp only [innerPositions, allAt_append] at places
      rw [statementKind]
      exact piece_counted at_ rfl (pieces_exprs index places.1)
  | .echo expressions, places => by
      rw [statementKind]
      exact .append (.append (piece_word rfl) (piece_commas (pieces_exprs expressions places)))
        piece_semicolon
  | .effect kind e, places => by
      have piece := piece_expr e places
      cases kind with
      | throw | require =>
          rw [statementKind]
          exact .append (.append (piece_word rfl) piece) piece_semicolon
      | unset =>
          rw [statementKind]
          exact .append (piece_call (by simp [piece])) piece_semicolon
      | _ =>
          rw [statementKind]
          · exact .append piece piece_semicolon
          all_goals simp
  | .ret none, _ => by
      rw [statementKind]
      exact .append (piece_word rfl) piece_semicolon
  | .ret (some e), places => by
      rw [statementKind]
      exact .append (.append (piece_word rfl) (piece_expr e places)) piece_semicolon
  | .jump kind, _ => by
      rw [statementKind]
      exact .append (piece_word (by cases kind <;> rfl)) piece_semicolon
  | .empty, _ => by simp [statementKind]
  | .branch test body elseIfs otherwise, places => by
      simp only [innerPositions, allAt_append] at places
      have pieceTest := piece_expr test places.1.1.1
      have pieceBody := piece_statements body places.1.1.2
      have pieceElseIfs := fun hasElse => piece_elseIfBranches hasElse elseIfs places.1.2
      have pieceOtherwise := piece_otherwise otherwise places.2
      have start : ∀ closing hasElse, Piece known (word "if" ++ condition (expr test) ++
          block body.isEmpty (statements body) "control" closing .braces ++
          elseIfBranches hasElse elseIfs) := fun closing hasElse =>
        .append (.append (.append (piece_word rfl) (piece_condition pieceTest))
          (piece_block pieceBody)) (pieceElseIfs hasElse)
      rcases otherwise with _ | _ | ⟨s, rest⟩
      · rw [statementKind]
        · exact .append (start _ _) piece_empty
        all_goals simp
      · rw [statementKind]
        · exact .append (start _ _) piece_empty
        all_goals simp
      · rw [statementKind]
        exact .append (start _ _)
          (.append (piece_word rfl) (piece_block (pieceOtherwise _ rfl)))
  | .whileLoop .testFirst test body, places => by
      simp only [innerPositions, allAt_append] at places
      rw [statementKind]
      exact .append (.append (piece_word rfl) (piece_condition (piece_expr test places.1)))
        (piece_block (piece_statements body places.2))
  | .whileLoop .testLast test body, places => by
      simp only [innerPositions, allAt_append] at places
      have pieceTest := piece_expr test places.1
      have pieceBody := piece_statements body places.2
      rw [statementKind]
      with_reducible repeat' apply Piece.append
      all_goals simp [pieceTest, pieceBody, Op.isPlain]
  | .loop body, places => by
      have pieceBody := piece_statements body places
      rw [statementKind]
      with_reducible repeat' apply Piece.append
      all_goals simp [pieceBody, Op.isPlain]
  | .forLoop head iterated body, places => by
      simp only [innerPositions, allAt_append] at places
      rw [statementKind]
      exact .append (piece_loopHead at_ (piece_expr iterated places.1))
        (piece_block (piece_statements body places.2))
  | .switch subject clauses, places => by
      simp only [innerPositions, allAt_append] at places
      rw [statementKind]
      have clauses := Piece.switch (clauses_switchClauses clauses places.2)
      simp only [append_assoc] at clauses ⊢
      exact .append (piece_word rfl)
        (.append (piece_condition (piece_expr subject places.1)) clauses)
  | .tryCatch body catches, places => by
      simp only [innerPositions, allAt_append] at places
      rw [statementKind]
      exact .append (.append (piece_word rfl) (piece_block (piece_statements body places.1)))
        (piece_catchClauses catches places.2)
  | .lets assignments, _ => by simp [statementKind, at_]
  | .declare dataType declared, _ => by simp [statementKind, at_]
  | .fetch e, _ => by simp [statementKind, at_]
  | .comment text, _ => by simp [statementKind, at_]
  | .cblock text, _ => by simp [statementKind, at_]

theorem piece_otherwise : (otherwise : Option (List Statement)) →
    AllAt known (otherwisePositions otherwise) →
    ∀ body ∈ otherwise, Piece known (statements body)
  | none, _ => by simp
  | some body, places => by
      have piece := piece_statements body places
      simpa using piece

theorem piece_elseIfBranches (hasElse : Bool) : (elseIfs : List ElseIf) →
    AllAt known (elseIfPositions elseIfs) → Piece known (elseIfBranches hasElse elseIfs)
  | [], _ => by simp [elseIfBranches]
  | ⟨test, body, _⟩ :: rest, places => by
      simp only [elseIfPositions, allAt_append, allAt_cons] at places
      rw [elseIfBranches]
      exact .append (.append (.append (piece_word rfl)
        (piece_condition (piece_expr test places.1.1.2)))
        (piece_block (piece_statements body places.1.2)))
        (piece_elseIfBranches hasElse rest places.2)

theorem clauses_switchClauses : (clauses : List SwitchClause) →
    AllAt known (clausePositions clauses) → Clauses known (switchClauses clauses)
  | [], _ => by
      rw [switchClauses]
      exact .nil
  | ⟨none, body⟩ :: rest, places => by
      simp only [clausePositions, allAt_append] at places
      rw [switchClauses]
      exact .default (piece_statements body places.1.2) (clauses_switchClauses rest places.2)
  | ⟨some test, body⟩ :: rest, places => by
      simp only [clausePositions, optionPositions, allAt_append] at places
      rw [switchClauses]
      exact .case (piece_expr test places.1.1) (piece_statements body places.1.2)
        (clauses_switchClauses rest places.2)

theorem piece_catchClauses : (catches : List Catch) →
    AllAt known (catchPositions catches) → Piece known (catchClauses catches)
  | [], _ => by simp [catchClauses]
  | ⟨classes, binding, body, pos⟩ :: rest, places => by
      simp only [catchPositions, allAt_append, allAt_cons] at places
      have pieceClasses := pieces_classNames classes places.1.1.1.2
      have pieceBody := piece_statements body places.1.2
      have pieceRest := piece_catchClauses rest places.2
      have at_ : known pos := places.1.1.1.1
      rw [catchClauses]
      with_reducible repeat' apply Piece.append
      all_goals simp +decide [pieceClasses, pieceBody, pieceRest, at_]

end

end Php

end Zephir
