import Zephir.Proofs.Php.Pieces

/-!
How the scripts of declarations are put together. A declaration has a header on the line that it
starts, and ends that line: with a semicolon, a block, or a body of more declarations. Its modifiers
are written as they come, so a header may hold any word.
-/

namespace Zephir

def Op.isBreak : Op → Bool
  | .line _ | .flush | .blankLine | .blankLineIf _ => true
  | _ => false

theorem Op.isPlain_of_isBreak {op : Op} (breaks : op.isBreak = true) : op.isPlain = true := by
  cases op <;> first | rfl | contradiction

def Op.isWithin : Op → Bool
  | .start _ => false
  | .operator op _ => op == "\x7b" || op == "\x7d" || operatorTexts.contains op
  | _ => true

theorem Op.isWithin_of_isPlain {op : Op} (plain : op.isPlain = true) : op.isWithin = true := by
  cases op with
  | start target => contradiction
  | operator op context =>
      simp only [isPlain, Bool.and_eq_true] at plain
      simp only [isWithin, plain.1, Bool.or_true]
  | _ => rfl

namespace Php

open Script

inductive Header (known : Position → Prop) : Script → Prop
  | piece {s : Script} (piece : Piece known s) : Header known s
  | word (modifier : String) : Header known (word modifier)
  | append {first second : Script} (left : Header known first) (right : Header known second) :
      Header known (first ++ second)

inductive Declared (known : Position → Prop) : Script → Prop
  | breaks {ops : List Op} (all : ∀ op ∈ ops, op.isBreak = true) : Declared known (of ops)
  | failed {cause : Cause} {pos : Position} (at_ : known pos) :
      Declared known (fail (cause.at pos))
  | ended {lead : Script} (header : Header known lead) : Declared known (lead ++ semicolon)
  | block {lead inner : Script} {opening : String} (header : Header known lead)
      (piece : Piece known inner) :
      Declared known (lead ++ (opIn "\x7b" opening ++ of [.flush, .indent] ++ inner ++
        of [.flush, .unindent] ++ opIn "\x7d" "block"))
  | body {lead inner : Script} {context : String} (header : Header known lead)
      (named : context = "class" ∨ context = "interface") (all : Declared known inner) :
      Declared known (lead ++ body context inner)
  | append {first second : Script} (left : Declared known first)
      (right : Declared known second) : Declared known (first ++ second)

variable {known : Position → Prop}

theorem header_modifiers (words : List String) : Header known (modifiers words) := by
  unfold modifiers
  induction words with
  | nil => exact .piece piece_empty
  | cons first rest ih => exact .append (.word first) ih

theorem declared_docblocks (docs : List Docblock) : Declared known (docblocks docs) := by
  refine .breaks ?_
  intro op among
  obtain ⟨doc, -, among⟩ := List.mem_flatMap.mp among
  rcases List.mem_cons.mp among with rfl | among
  · rfl
  · obtain ⟨line, -, rfl⟩ := List.mem_map.mp among
    rfl

theorem declared_separate (path : String) : Declared known (separate path) :=
  .breaks (by simp [Op.isBreak])

theorem declared_empty : Declared known Script.empty := by
  apply Declared.breaks
  simp

theorem declared_join {scripts : List Script} (all : ∀ s ∈ scripts, Declared known s) :
    Declared known (join scripts) := by
  induction scripts with
  | nil => exact declared_empty
  | cons first rest ih =>
      rw [List.forall_mem_cons] at all
      exact .append all.1 (ih all.2)

theorem declared_join_map {α : Type} {values : List α} {script : α → Script}
    (all : ∀ value ∈ values, Declared known (script value)) :
    Declared known (join (values.map script)) := by
  apply declared_join
  intro s member
  obtain ⟨value, among, rfl⟩ := List.mem_map.mp member
  exact all value among

theorem declared_constant {c : Constant} (places : AllAt known c.positions) :
    Declared known (constant c) := by
  simp only [Constant.positions, allAt_append, allAt_cons] at places
  have value := piece_initial c.value places.2
  exact .ended (.piece (.append (.append (.append (piece_docblocks _) (piece_word rfl))
    (piece_text _)) value))

theorem declared_property {p : Property} (places : AllAt known p.positions) :
    Declared known (property p) := by
  simp only [Property.positions, allAt_append, allAt_cons] at places
  have value := piece_initial p.value places.1.2
  exact .ended (.append (.append (.append (.piece (piece_docblocks _)) (header_modifiers _))
    (.piece (piece_text _))) (.piece value))

theorem declared_method (signatureOnly : Bool) {m : Method}
    (places : AllAt known m.positions) : Declared known (method signatureOnly m) := by
  simp only [Method.positions, allAt_append, allAt_cons] at places
  have header : Header known (docblocks m.docblocks ++ modifiers m.visibility ++
      word "function" ++ text m.name ++ parenthesized (parameters m.parameters) "call") :=
    .append (.append (.append (.append (.piece (piece_docblocks _)) (header_modifiers _))
      (.word _)) (.piece (piece_text _)))
      (.piece (piece_parenthesized (pieces_parameters m.parameters places.1.1.2)))
  unfold method
  split
  · exact .ended header
  · have inner := piece_statements m.body places.1.2
    simpa [block] using Declared.block header inner

theorem declared_membersSection {isFirst : Bool} {scripts : List Script}
    (all : ∀ s ∈ scripts, Declared known s) : Declared known (membersSection isFirst scripts) := by
  unfold membersSection
  split
  · exact declared_join all
  · exact .append (declared_separate _) (declared_join all)

theorem declared_methodList {scripts : List Script} (all : ∀ s ∈ scripts, Declared known s) :
    ∀ s ∈ methodList scripts, Declared known s := by
  cases scripts with
  | nil => simp [methodList]
  | cons first rest =>
      simp only [methodList, List.forall_mem_cons, List.forall_mem_map] at all ⊢
      exact ⟨all.1, fun s member => .append (declared_separate _) (all.2 s member)⟩

theorem forall_valuesByName {α : Type} {map : OrderedMap α} {property : α → Prop}
    (all : ∀ value ∈ map.values, property value) : ∀ value ∈ map.valuesByName, property value := by
  intro value among
  obtain ⟨entry, sorted, rfl⟩ := List.mem_map.mp among
  exact all entry.2 (List.mem_map.mpr ⟨entry, List.mem_mergeSort.mp sorted, rfl⟩)

theorem declared_members (signaturesOnly : Bool) {m : Members}
    (places : AllAt known m.positions) : Declared known (members m signaturesOnly) := by
  simp only [Members.positions, allAt_append, allAt_flatMap] at places
  obtain ⟨⟨⟨-, constants⟩, properties⟩, methods⟩ := places
  refine .append (.append (declared_membersSection ?_) (declared_membersSection ?_))
    (declared_membersSection (declared_methodList ?_))
  · rw [List.forall_mem_map]
    exact fun c among => declared_constant (forall_valuesByName constants c among)
  · rw [List.forall_mem_map]
    exact fun p among => declared_property (forall_valuesByName properties p among)
  · rw [List.forall_mem_map]
    exact fun m among => declared_method _ (forall_valuesByName methods m among)

theorem header_classList (keyword : String) (plain : (Op.operator keyword none).isPlain = true)
    {classes : List Expr} (places : AllAt known (exprsPositions classes)) :
    Header known (classList keyword classes) := by
  unfold classList
  split
  · exact .piece piece_empty
  · exact .piece (.append (piece_op plain) (piece_commas (pieces_classNames classes places)))

theorem declared_classDecl {c : Class} (interfaces : AllAt known (exprsPositions c.interfaces))
    (places : AllAt known c.members.positions) : Declared known (classDecl c) := by
  refine .body (.append (.append (.append (.append (header_modifiers _) (.word _))
    (.piece (piece_text _))) ?_) (header_classList _ rfl interfaces)) (.inl rfl)
    (declared_members false places)
  split
  · exact .piece (.append (piece_op rfl) (piece_text _))
  · exact .piece piece_empty

theorem declared_interfaceDecl {i : Interface}
    (parents : AllAt known (exprsPositions i.parents))
    (places : AllAt known i.members.positions) : Declared known (interfaceDecl i) :=
  .body (.append (.append (.word _) (.piece (piece_text _))) (header_classList _ rfl parents))
    (.inr rfl) (declared_members true places)

theorem piece_useAlias (u : UseAlias) : Piece known (useAlias u) := by
  unfold useAlias
  split
  · exact .append (piece_text _) (.append (piece_word rfl) (piece_text _))
  · exact .append (piece_text _) piece_empty

theorem declared_nodeKind {pos : Position} (at_ : known pos) {kind : NodeKind}
    (places : AllAt known kind.positions) : Declared known (nodeKind pos kind) := by
  cases kind with
  | namespaceDecl name =>
      exact .append (.ended (.piece (.append (piece_word rfl) (piece_text _))))
        (declared_separate _)
  | useDecl aliases =>
      have names : Pieces known (aliases.map useAlias) := pieces_map fun u _ => piece_useAlias u
      exact .append (.ended (.piece (.append (piece_word rfl) (piece_commas names))))
        (declared_separate _)
  | require e => exact .ended (.piece (.append (piece_word rfl) (piece_expr e places)))
  | functionDecl f =>
      simp only [NodeKind.positions, allAt_append] at places
      have header : Header known (word "function" ++ text f.name ++
          parenthesized (parameters f.parameters) "call") :=
        .piece (.append (.append (piece_word rfl) (piece_text _))
          (piece_parenthesized (pieces_parameters f.parameters places.1.1)))
      have inner := piece_statements f.body places.1.2
      refine .append ?_ (declared_separate _)
      simpa [functionDecl, block] using Declared.block header inner
  | classDecl c =>
      simp only [NodeKind.positions, allAt_append] at places
      exact .append (declared_classDecl places.1 places.2) (declared_separate _)
  | interfaceDecl i =>
      simp only [NodeKind.positions, allAt_append] at places
      exact .append (declared_interfaceDecl places.1 places.2) (declared_separate _)
  | comment text => exact .failed at_
  | cblock text => exact .failed at_

theorem declared_node {n : Node} (places : AllAt known n.positions) :
    Declared known (node n) := by
  simp only [Node.positions, allAt_append, allAt_cons] at places
  exact .append (declared_docblocks _) (declared_nodeKind places.1.1 places.2)

/-- A unit consists of declarations, and refers to no place but its own. -/
theorem declared_unit {nodes : List Node} (places : AllAt known (unitPositions nodes)) :
    Declared known (unit nodes) := by
  rw [unitPositions, allAt_flatMap] at places
  refine .append (.breaks (by simp [Op.isBreak])) (declared_join_map ?_)
  exact fun n among => declared_node (places n among)

/-- A script that stays within its unit, and fails at known places only. -/
structure Tame (known : Position → Prop) (s : Script) : Prop where
  within : ∀ op ∈ s.ops, op.isWithin = true
  fails : ∀ d ∈ s.failure, AllAt known d.positions

theorem tame_of {ops : List Op} (within : ∀ op ∈ ops, op.isWithin = true) :
    Tame known (of ops) where
  within := within
  fails := by simp [of]

theorem tame_fail {cause : Cause} {pos : Position} (at_ : known pos) :
    Tame known (fail (cause.at pos)) where
  within := by simp [fail]
  fails := by simpa [fail, Cause.at, Diagnostic.positions] using at_

theorem Tame.append {first second : Script} (left : Tame known first) (right : Tame known second) :
    Tame known (first ++ second) := by
  change Tame known (Script.append first second)
  unfold Script.append
  split
  · exact left
  · constructor
    · intro op among
      obtain inFirst | inSecond := List.mem_append.mp among
      · exact left.within op inFirst
      · exact right.within op inSecond
    · exact right.fails

theorem Tame.opens {s : Script} (tame : Tame known s) (target : String) :
    .start target ∉ s.ops := by
  intro among
  have within := tame.within _ among
  contradiction

theorem tame_op {op : Op} (within : op.isWithin = true) : Tame known (of [op]) :=
  tame_of (by simpa using within)

theorem tame_ops_of_isPlain {ops : List Op} (plain : ∀ op ∈ ops, op.isPlain = true) :
    Tame known (of ops) :=
  tame_of fun op among => op.isWithin_of_isPlain (plain op among)

mutual

theorem Piece.tame {s : Script} : Piece known s → Tame known s
  | .ops plain => tame_ops_of_isPlain plain
  | .failed at_ => tame_fail at_
  | .append left right => .append (Piece.tame left) (Piece.tame right)
  | .braces piece =>
      .append (.append (.append (.append (tame_op rfl) (tame_of (by simp [Op.isWithin])))
        (Piece.tame piece)) (tame_of (by simp [Op.isWithin]))) (tame_op rfl)
  | .switch clauses =>
      .append (.append (.append (.append (tame_op rfl) (tame_of (by simp [Op.isWithin])))
        (Clauses.tame clauses)) (tame_op rfl)) (tame_op rfl)

theorem Clauses.tame {s : Script} : Clauses known s → Tame known s
  | .nil => tame_of (by simp)
  | .case tested piece others =>
      .append (.append (.append (.append (.append (.append (tame_op rfl)
        (Piece.tame tested)) (tame_op rfl)) (tame_of (by simp [Op.isWithin])))
        (Piece.tame piece)) (tame_of (by simp [Op.isWithin]))) (Clauses.tame others)
  | .default piece others =>
      .append (.append (.append (.append (.append (tame_op rfl) (tame_op rfl))
        (tame_of (by simp [Op.isWithin]))) (Piece.tame piece))
        (tame_of (by simp [Op.isWithin]))) (Clauses.tame others)

end

theorem Header.tame {s : Script} (header : Header known s) : Tame known s := by
  induction header with
  | piece piece => exact piece.tame
  | word modifier => exact tame_op rfl
  | append _ _ left right => exact left.append right

theorem Declared.tame {s : Script} (declared : Declared known s) : Tame known s := by
  induction declared with
  | breaks all => exact tame_ops_of_isPlain fun op among => op.isPlain_of_isBreak (all op among)
  | failed at_ => exact tame_fail at_
  | ended header => exact header.tame.append (tame_op rfl)
  | block header piece => exact header.tame.append (Piece.braces piece).tame
  | body header _ _ inner =>
      exact header.tame.append (.append (.append (.append (.append (tame_op rfl)
        (tame_op rfl)) inner) (tame_op rfl)) (tame_op rfl))
  | append _ _ left right => exact left.append right

end Php

end Zephir
