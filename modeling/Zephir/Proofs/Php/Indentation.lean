import Zephir.Proofs.Emit.Nesting
import Zephir.Proofs.OrderedMap
import Zephir.Proofs.Php.Declared
import Zephir.Render

/-!
Indentation of generated text. Statements and expressions keep the level under every layout, since
they move it between lines only. Bodies of classes move it right after the opening brace, so they
need a layout that ends the line there.
-/

namespace Zephir

theorem Op.nestAfter_of_isPlain {op : Op} (plain : op.isPlain = true) (nest : List Nest) :
    op.nestAfter nest = nest := by
  cases op with
  | keyword word =>
      simp only [Op.isPlain, Bool.and_eq_true, bne_iff_ne] at plain
      simp [Op.nestAfter, plain]
  | operator op context =>
      simp only [Op.isPlain, Bool.and_eq_true, Bool.or_eq_true, bne_iff_ne] at plain
      obtain ⟨known, notCase⟩ := plain
      have notOpening : op ≠ "\x7b" := by
        rintro rfl
        contradiction
      have notClosing : op ≠ "\x7d" := by
        rintro rfl
        contradiction
      have other : ¬(op = ":" ∧ context = some "case") := by
        rintro ⟨colon, inCase⟩
        exact notCase.elim (· colon) (· inCase)
      simp [Op.nestAfter, notOpening, notClosing, other]
  | _ => rfl

theorem Op.movesLevel_of_isPlain {op : Op} (plain : op.isPlain = true) :
    op.movesLevel = false := by
  cases op <;> first | rfl | contradiction

namespace Php

open Script Emitter

variable {layout : Layout} {known : Position → Prop} {n : List Nest} {s : Script}

abbrev At (n : List Nest) : Stage :=
  Stands (· = n) n.length

theorem nests_plain {op : Op} (plain : op.isPlain = true) :
    Nests layout (At n) (of [op]) (At n) := by
  apply nests_op (op.movesLevel_of_isPlain plain)
  · rintro nest rfl
    simp [Op.depth, op.nestAfter_of_isPlain plain]
  · rintro nest rfl
    exact op.nestAfter_of_isPlain plain nest

theorem nests_open (opening : String) :
    Nests layout (At n) (opIn "\x7b" opening) (Stands (· = .body :: n) n.length) := by
  apply nests_op rfl
  · rintro nest rfl
    simp [Op.depth, Op.nestAfter]
  · rintro nest rfl
    rfl

theorem nests_enter (opening : String) :
    Nests layout (At n) (opIn "\x7b" opening ++ of [.flush, .indent])
      (Between (· = .body :: n) (n.length + 1)) :=
  .append (nests_open opening) (Nests.append nests_flush nests_indent)

theorem nests_leave (inner : Nest) :
    Nests layout (At (inner :: n)) (of [.flush, .unindent])
      (Between (· = inner :: n) n.length) :=
  Nests.append nests_flush nests_unindent

theorem length_of_closeClause {nest : List Nest} (isOpen : closeClause nest = .body :: n) :
    n.length + 1 ≤ nest.length := by
  unfold closeClause at isOpen
  split at isOpen <;> simp_all

theorem nests_close (closing : String) :
    Nests layout (Stands (closeClause · = .body :: n) n.length) (opIn "\x7d" closing) (At n) := by
  have after (nest : List Nest) (isOpen : closeClause nest = .body :: n) :
      (Op.operator "\x7d" (some closing)).nestAfter nest = n := by
    simp [Op.nestAfter, isOpen]
  apply nests_op rfl
  · intro nest isOpen
    have longer := length_of_closeClause isOpen
    simp [Op.depth, after nest isOpen]
    omega
  · exact after

/-- Clauses of a `switch` start and end between lines. The last one may count as open. -/
abbrev BetweenClauses (n : List Nest) : Stage :=
  Between (closeClause · = .body :: n) (n.length + 1)

theorem nests_clauseWord {name : String} (named : name = "case" ∨ name = "default") :
    Nests layout (BetweenClauses n) (word name) (At (.body :: n)) := by
  have after (nest : List Nest) (isOpen : closeClause nest = .body :: n) :
      (Op.keyword name).nestAfter nest = .body :: n := by
    simp [Op.nestAfter, named, isOpen]
  have deep (nest : List Nest) (isOpen : closeClause nest = .body :: n) :
      (Op.keyword name).depth nest = n.length + 1 := by
    have longer := length_of_closeClause isOpen
    simp [Op.depth, after nest isOpen, longer]
  have stands : Nests layout (Stands (closeClause · = .body :: n) (n.length + 1)) (word name)
      (Stands (· = .body :: n) (n.length + 1)) := nests_op rfl deep after
  exact stands.from fun _ _ stage => stage.1

theorem nests_colon :
    Nests layout (At n) (opIn ":" "case") (Stands (· = .clause :: n) n.length) := by
  apply nests_op rfl
  · rintro nest rfl
    simp [Op.depth, Op.nestAfter]
  · rintro nest rfl
    rfl

theorem nests_clauseBody {body : Script}
    (inner : Nests layout (At (.clause :: .body :: n)) body (At (.clause :: .body :: n))) :
    Nests layout (Stands (· = .clause :: .body :: n) (n.length + 1))
      (of [.flush, .indent] ++ body ++ of [.flush, .unindent]) (BetweenClauses n) := by
  have enter : Nests layout (Stands (· = .clause :: .body :: n) (n.length + 1))
      (of [.flush, .indent]) (At (.clause :: .body :: n)) :=
    (Nests.append nests_flush nests_indent).mono fun _ _ stage => stage.1
  refine ((enter.append inner).append (nests_leave _)).mono ?_
  rintro e nest ⟨⟨rfl, level⟩, between⟩
  exact ⟨⟨rfl, level⟩, between⟩

theorem nests_braces {inner : Script} (opening : String)
    (nests : Nests layout (At (.body :: n)) inner (At (.body :: n))) :
    Nests layout (At n) (opIn "\x7b" opening ++ of [.flush, .indent] ++ inner ++
      of [.flush, .unindent]) (Stands (closeClause · = .body :: n) n.length) := by
  have enter : Nests layout (At n) (opIn "\x7b" opening ++ of [.flush, .indent])
      (At (.body :: n)) :=
    (nests_enter opening).mono fun _ _ stage => stage.1
  refine ((enter.append nests).append (nests_leave .body)).mono ?_
  rintro e nest ⟨⟨rfl, level⟩, between⟩
  exact ⟨rfl, level⟩

theorem nests_switch {clauses : Script}
    (nests : Nests layout (BetweenClauses n) clauses (BetweenClauses n)) :
    Nests layout (At n) (opIn "\x7b" "control" ++ of [.flush, .indent] ++ clauses ++
      of [.unindent] ++ opIn "\x7d" "block") (At n) := by
  have enter : Nests layout (At n) (opIn "\x7b" "control" ++ of [.flush, .indent])
      (BetweenClauses n) := by
    refine (nests_enter "control").mono ?_
    rintro e nest ⟨⟨rfl, level⟩, between⟩
    exact ⟨⟨rfl, level⟩, between⟩
  have leave : Nests layout (BetweenClauses n) (of [.unindent])
      (Stands (closeClause · = .body :: n) n.length) :=
    nests_unindent.mono fun _ _ stage => stage.1
  exact ((enter.append nests).append leave).append (nests_close "block")

mutual

theorem Piece.nests (layout : Layout) (n : List Nest) {s : Script} :
    Piece known s → Nests layout (At n) s (At n)
  | .ops plain => nests_ops fun op among => nests_plain (plain op among)
  | .failed _ => nests_fail _
  | .append left right => (Piece.nests layout n left).append (Piece.nests layout n right)
  | .braces piece => (nests_braces _ (Piece.nests layout (.body :: n) piece)).append (nests_close _)
  | .switch all => nests_switch (Clauses.nests layout n all)

theorem Clauses.nests (layout : Layout) (n : List Nest) {s : Script} :
    Clauses known s → Nests layout (BetweenClauses n) s (BetweenClauses n)
  | .nil => nests_empty
  | .case tested piece others => by
      have head := (nests_clauseWord (.inl rfl)).append (Piece.nests layout (.body :: n) tested)
      have body := nests_clauseBody (Piece.nests layout (.clause :: .body :: n) piece)
      have all := ((head.append nests_colon).append body).append (Clauses.nests layout n others)
      simpa only [append_assoc] using all
  | .default piece others => by
      have body := nests_clauseBody (Piece.nests layout (.clause :: .body :: n) piece)
      have all := (((nests_clauseWord (.inr rfl)).append nests_colon).append body).append
        (Clauses.nests layout n others)
      simpa only [append_assoc] using all

end

/-- A layout that ends the line after whatever ends a declaration or opens its body. -/
structure Spread (layout : Layout) : Prop where
  opening : ∀ context, context = "class" ∨ context = "interface" →
    (layout.spacing "\x7b" (some context)).newlineAfter = true
  closing : (layout.spacing "\x7d" (some "block")).newlineAfter = true
  ending : (layout.spacing ";" (some (statementContext none))).newlineAfter = true

theorem line_opIn {sign context : String}
    (breaks : (layout.spacing sign (some context)).newlineAfter = true) (e : Emitter) :
    (e.run layout (opIn sign context).ops).emitter.line = "" := by
  simp [opIn, of, Emitter.run, step, operator, breaks]

theorem line_semicolon
    (breaks : (layout.spacing ";" (some (statementContext none))).newlineAfter = true)
    (e : Emitter) : (e.run layout semicolon.ops).emitter.line = "" := by
  simp [semicolon, of, Emitter.run, step, operator, breaks]

theorem line_of_isBreak {op : Op} (breaks : op.isBreak = true) {e : Emitter} (empty : e.line = "") :
    (e.run layout [op]).emitter.line = "" := by
  have blank : (e.blankLine layout).1.line = "" := by
    unfold blankLine
    dsimp only
    split <;> simp
  cases op with
  | line text => simp [Emitter.run, step]
  | flush => simp [Emitter.run, step]
  | blankLine => simp [Emitter.run, step, blank]
  | blankLineIf path =>
      by_cases on : (layout.flag? path).getD false = true
      · simp [Emitter.run, step, on, blank]
      · simp [Emitter.run, step, on, empty]
  | _ => contradiction

theorem Header.nests (layout : Layout) (bare : closeClause n = n) (header : Header known s) :
    Nests layout (At n) s (At n) := by
  induction header with
  | piece piece => exact piece.nests layout n
  | word modifier =>
      have after : (Op.keyword modifier).nestAfter n = n := by simp [Op.nestAfter, bare]
      apply nests_op rfl
      · rintro nest rfl
        simp [Op.depth, after]
      · rintro nest rfl
        exact after
  | append _ _ left right => exact left.append right

theorem nests_lastBrace (spread : Spread layout) :
    Nests layout (Stands (closeClause · = .body :: n) n.length) (opIn "\x7d" "block")
      (Between (· = n) n.length) :=
  Nests.ended (nests_close "block") fun e _ _ => line_opIn spread.closing e

theorem Declared.nests (spread : Spread layout) (bare : closeClause n = n)
    (declared : Declared known s) :
    Nests layout (Between (· = n) n.length) s (Between (· = n) n.length) := by
  induction declared generalizing n with
  | breaks all =>
      apply nests_ops
      intro op among
      have plain : Nests layout (At n) (of [op]) (At n) :=
        nests_plain (op.isPlain_of_isBreak (all op among))
      exact (plain.from fun _ _ stage => stage.1).ended fun e nest stage =>
        line_of_isBreak (all op among) stage.2
  | failed at_ => exact nests_fail _
  | ended header =>
      have ending : Nests layout (At n) semicolon (Between (· = n) n.length) :=
        Nests.ended (nests_plain rfl) fun e _ _ => line_semicolon spread.ending e
      exact ((header.nests layout bare).append ending).from fun _ _ stage => stage.1
  | @block lead inner opening header piece =>
      have block := (nests_braces opening (piece.nests layout (.body :: n))).append
        (nests_lastBrace spread)
      exact ((header.nests layout bare).append block).from fun _ _ stage => stage.1
  | @body lead inner context header named all ih =>
      have opens : Nests layout (At n) (opIn "\x7b" context) (Between (· = .body :: n) n.length) :=
        Nests.ended (nests_open context) fun e _ _ => line_opIn (spread.opening context named) e
      have leaves : Nests layout (Between (· = .body :: n) (n.length + 1)) (of [.unindent])
          (Stands (closeClause · = .body :: n) n.length) := by
        refine nests_unindent.mono ?_
        rintro e nest ⟨⟨rfl, level⟩, between⟩
        exact ⟨rfl, level⟩
      have body := ((((opens.append nests_indent).append (ih rfl)).append leaves).append
        (nests_lastBrace spread))
      exact ((header.nests layout bare).append body).from fun _ _ stage => stage.1
  | append _ _ left right => exact (left bare).append (right bare)

theorem Piece.level (layout : Layout) (e : Emitter) (piece : Piece known s) :
    (e.run layout s.ops).fault = none ∧
      (s.failure = none → (e.run layout s.ops).emitter.level = e.level) := by
  have stands : At (List.replicate e.level .body) e (List.replicate e.level .body) :=
    ⟨rfl, by simp⟩
  obtain ⟨calm, -, ends⟩ := piece.nests layout _ e e _ (mirrors_self e) stands
  refine ⟨calm, fun whole => ?_⟩
  simpa using (ends whole).2.2

/-- Only bodies of classes and interfaces need a line end after a brace: a unit of functions has no
fault, whatever the layout. -/
theorem fault_eq_none_of_functions (layout : Layout) {nodes : List Node}
    (functions : ∀ n ∈ nodes, ∃ f, n.kind = .functionDecl f) :
    (Emitter.run layout {} (unit nodes).ops).fault = none := by
  have piece : Piece (fun _ => True) (unit nodes) := by
    refine .append (.ops (by simp [Op.isPlain])) (piece_join (pieces_map fun n among => ?_))
    obtain ⟨f, isFunction⟩ := functions n among
    rw [node, isFunction, nodeKind, functionDecl]
    have header : Piece (fun _ => True) (word "function" ++ text f.name ++
        parenthesized (parameters f.parameters) "call") :=
      .append (.append (piece_word rfl) (piece_text _))
        (piece_parenthesized (pieces_parameters f.parameters fun _ _ => trivial))
    have body : Piece (fun _ => True) (statements f.body) :=
      piece_statements f.body fun _ _ => trivial
    exact .append (piece_docblocks _)
      (.append (.append header (piece_block body)) (.ops (by simp [Op.isPlain])))
  exact (piece.level layout {}).1

/-- From the first condition on, a script has no fault. Unless it fails, the second condition
holds at its end. -/
def Keeps (layout : Layout) (before : Emitter → Prop) (s : Script) (after : Emitter → Prop) :
    Prop :=
  ∀ e : Emitter, before e → (e.run layout s.ops).fault = none ∧
    (s.failure = none → after (e.run layout s.ops).emitter)

theorem Keeps.append {before between after : Emitter → Prop} {first second : Script}
    (left : Keeps layout before first between) (right : Keeps layout between second after) :
    Keeps layout before (first ++ second) after := by
  intro e holds
  obtain ⟨calm, ends⟩ := left e holds
  cases failed : first.failure with
  | some d =>
      rw [append_of_failure second failed]
      exact ⟨calm, fun whole => absurd (failed.symm.trans whole) (by simp)⟩
  | none =>
      rw [append_of_whole second failed, run_append calm]
      exact right _ (ends failed)

theorem keeps_op {op : Op} (still : op.movesLevel = false) (least : Nat) :
    Keeps layout (least ≤ ·.level) (of [op]) (least ≤ ·.level) := by
  intro e deep
  obtain ⟨calm, level⟩ := run_still layout e still
  exact ⟨calm, fun _ => Nat.le_trans deep (Nat.le_of_eq level.symm)⟩

theorem keeps_opIn (sign context : String) (least : Nat) :
    Keeps layout (least ≤ ·.level) (opIn sign context) (least ≤ ·.level) :=
  keeps_op rfl least

theorem keeps_indent (least : Nat) :
    Keeps layout (fun e => least ≤ e.level ∧ e.line = "") (of [.indent]) (least + 1 ≤ ·.level) := by
  rintro e ⟨deep, between⟩
  have stepped : e.step layout .indent = .ok ({ e with level := e.level + 1 }, []) := by
    simp [step, between]
  rw [of, run_cons_ok stepped]
  exact ⟨rfl, fun _ => Nat.succ_le_succ deep⟩

theorem keeps_unindent (least : Nat) :
    Keeps layout (least + 1 ≤ ·.level) (of [.unindent]) (least ≤ ·.level) := by
  intro e deep
  by_cases between : e.line = ""
  · obtain ⟨level, above⟩ := Nat.exists_eq_add_one_of_ne_zero (Nat.ne_zero_of_lt deep)
    have enough : least ≤ level := Nat.le_of_succ_le_succ (Nat.le_trans deep (Nat.le_of_eq above))
    have stepped : e.step layout .unindent = .ok ({ e with level }, []) := by
      simp [step, between, above]
    rw [of, run_cons_ok stepped]
    exact ⟨rfl, fun _ => enough⟩
  · have stepped : e.step layout .unindent = .ok (e, []) := by
      simp [step, between]
    rw [of, run_cons_ok stepped]
    exact ⟨rfl, fun _ => Nat.le_of_succ_le deep⟩

theorem Piece.keeps (piece : Piece known s) (least : Nat) :
    Keeps layout (least ≤ ·.level) s (least ≤ ·.level) := by
  intro e deep
  obtain ⟨calm, level⟩ := piece.level layout e
  exact ⟨calm, fun whole => Nat.le_trans deep (Nat.le_of_eq (level whole).symm)⟩

theorem Header.keeps (header : Header known s) (least : Nat) :
    Keeps layout (least ≤ ·.level) s (least ≤ ·.level) := by
  induction header with
  | piece piece => exact piece.keeps least
  | word modifier => exact keeps_op rfl least
  | append _ _ left right => exact left.append right

/-- Declarations never go below the level at which they start, if the line ends after the brace
that opens a body. Where it does not end at the other brace, the level may stay higher. -/
theorem Declared.keeps
    (opening : ∀ context, context = "class" ∨ context = "interface" →
      (layout.spacing "\x7b" (some context)).newlineAfter = true)
    (declared : Declared known s) (least : Nat) :
    Keeps layout (least ≤ ·.level) s (least ≤ ·.level) := by
  induction declared generalizing least with
  | breaks all =>
      have piece : Piece known (of _) := .ops fun op among => op.isPlain_of_isBreak (all op among)
      exact piece.keeps least
  | failed at_ => exact (Piece.failed at_).keeps least
  | ended header => exact (header.keeps least).append (keeps_op rfl least)
  | block header piece => exact (header.keeps least).append ((Piece.braces piece).keeps least)
  | @body lead inner context header named all ih =>
      have opens : Keeps layout (least ≤ ·.level) (opIn "\x7b" context)
          fun e => least ≤ e.level ∧ e.line = "" := by
        intro e deep
        obtain ⟨calm, ends⟩ := keeps_opIn "\x7b" context least e deep
        exact ⟨calm, fun whole => ⟨ends whole, line_opIn (opening context named) e⟩⟩
      have body := (((opens.append (keeps_indent least)).append (ih (least + 1))).append
        (keeps_unindent least)).append (keeps_opIn "\x7d" "block" least)
      exact (header.keeps least).append body
  | append _ _ left right => exact (left least).append (right least)

/-- Where the standard layout sets a key twice, its own setting replaces that of the operator. -/
theorem get?_standard (path : String) :
    Layout.standard.get? path = (Layout.keys path).findSome? fun key =>
      (Layout.standardSettings.reverse.lookup key).or
        ((Layout.spacedOperators.map fun op =>
          ("spaces." ++ Layout.operatorKey op, Setting.flag true)).reverse.lookup key) := by
  refine congrArg (Layout.keys path).findSome? (funext fun key => ?_)
  rw [Layout.standard, Layout.override, OrderedMap.get?_insertAll_last, Layout.override,
    OrderedMap.get?_insertAll_last]
  simp [Layout.empty, OrderedMap.empty, OrderedMap.get?]

theorem standard_settings :
    (Layout.standard.spacing "\x7b" (some "class")).newlineAfter = true ∧
      (Layout.standard.spacing "\x7b" (some "interface")).newlineAfter = true ∧
      (Layout.standard.spacing "\x7d" (some "block")).newlineAfter = true ∧
      (Layout.standard.spacing ";" (some (statementContext none))).newlineAfter = true ∧
      Layout.standard.indentUnit = String.ofList (List.replicate 4 ' ') ∧
      Layout.standard.maxLevels? = some 20 := by
  -- The map itself is not built: its keys are looked up in the lists it is made of.
  have ends : (Layout.standard.spacing "\x7b" (some "class")).newlineAfter = true ∧
      (Layout.standard.spacing "\x7b" (some "interface")).newlineAfter = true ∧
      (Layout.standard.spacing "\x7d" (some "block")).newlineAfter = true ∧
      (Layout.standard.spacing ";" (some (statementContext none))).newlineAfter = true := by
    simp only [Layout.spacing, Layout.flag?, get?_standard]
    decide +kernel
  have levels : Layout.standard.flag? "indent.tabs|" = some false ∧
      Layout.standard.number? "indent.spaces|" = some 4 ∧
      Layout.standard.number? "indent.max_levels|" = some 20 := by
    simp only [Layout.flag?, Layout.number?, get?_standard]
    decide +kernel
  obtain ⟨tabs, blanks, limit⟩ := levels
  refine ⟨ends.1, ends.2.1, ends.2.2.1, ends.2.2.2, ?_, ?_⟩
  · rw [Layout.indentUnit, tabs, blanks]
    rfl
  · rw [Layout.maxLevels?, limit]
    rfl

theorem spread_standard : Spread .standard := by
  obtain ⟨openingClass, openingInterface, closing, ending, -⟩ := standard_settings
  refine ⟨?_, closing, ending⟩
  rintro context (rfl | rfl)
  · exact openingClass
  · exact openingInterface

theorem join_append (first second : List Script) :
    join (first ++ second) = join first ++ join second := by
  induction first with
  | nil => rfl
  | cons s rest ih => rw [List.cons_append, join, join, ih, append_assoc]

theorem unit_append (first second : List Node) :
    unit (first ++ second) = unit first ++ join (second.map node) := by
  rw [unit, unit, List.map_append, join_append, append_assoc]

theorem nests_unit (nodes : List Node) :
    Nests .standard (Between (· = []) 0) (unit nodes) (Between (· = []) 0) := by
  have declared : Declared (fun _ => True) (unit nodes) := declared_unit fun _ _ => trivial
  exact declared.nests spread_standard rfl

theorem join_replicate_blanks (count width : Nat) :
    String.join (List.replicate count (String.ofList (List.replicate width ' '))) =
      String.ofList (List.replicate (width * count) ' ') := by
  induction count with
  | zero => rfl
  | succ count ih =>
      rw [List.replicate_succ, String.join_cons, ih, ← String.ofList_append,
        List.replicate_append_replicate, Nat.mul_succ, Nat.add_comm]

theorem indentation_standard (level : Nat) :
    indentation .standard level = String.ofList (List.replicate (4 * min level 20) ' ') := by
  obtain ⟨-, -, -, -, blanks, limit⟩ := standard_settings
  rw [indentation, limit, blanks]
  exact join_replicate_blanks _ _

theorem fault_ne_of_newlineAfter
    (breaksClass : (layout.spacing "\x7b" (some "class")).newlineAfter = true)
    (breaksInterface : (layout.spacing "\x7b" (some "interface")).newlineAfter = true)
    {σ : Type} (sink : Sink σ) (state : σ) (target : String) (nodes : List Node) (fault : Fault) :
    (renderInto layout sink state target nodes).2 ≠ .error (.fault fault) := by
  have declared : Declared (fun _ => True) (unit nodes) := declared_unit fun _ _ => trivial
  have opening : ∀ context, context = "class" ∨ context = "interface" →
      (layout.spacing "\x7b" (some context)).newlineAfter = true := by
    rintro context (rfl | rfl)
    · exact breaksClass
    · exact breaksInterface
  have calm := (declared.keeps opening 0 {} (Nat.zero_le _)).1
  cases failed : (unit nodes).failure with
  | some d => simp [renderInto, Emitter.run, step, calm, failed]
  | none =>
      simp only [renderInto, Emitter.run, step, calm, failed]
      split <;> simp

def nestedSample : List Node :=
  let number := Expr.plain (.literal .int "1") {}
  let closure := Expr.plain (.closure [] [⟨.ret (some number), {}, []⟩] .empty) {}
  let choice := StatementKind.switch (.var "n" {})
    [⟨some number, [⟨.ret (some closure), {}, []⟩]⟩, ⟨none, [⟨.jump .leave, {}, []⟩]⟩]
  let method := { Method.plain "pick" {} with body := [⟨choice, {}, []⟩] }
  [⟨.classDecl ⟨"Chooser", false, true, none, [], none,
    ⟨none, .empty, .empty, .ofList [("pick", method)]⟩⟩, {}, []⟩]

end Php

end Zephir
