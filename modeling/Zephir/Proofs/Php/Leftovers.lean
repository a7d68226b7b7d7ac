import Zephir.Proofs.Syntax.Every
import Zephir.Render

/-!
Generating PHP from a tree without the forms of sources. Whatever else may be wrong with the tree,
generation never stops at a form that should have been lowered.
-/

namespace Zephir

def sourceTags : List String :=
  (ExprForm.all.filter (·.isSource)).map (·.tag) ++
    (StatementForm.all.filter (·.isSource)).map (·.tag)

example : sourceTags = ["istring", "property-string-access", "new-type", "empty", "likely",
    "unlikely", "irange", "erange", "type-hint", "fetch", "closure-arrow", "let", "declare",
    "fetch", "comment", "cblock"] := by decide

def Diagnostic.IsLeftover (d : Diagnostic) : Prop :=
  ∃ tag ∈ sourceTags, d.cause = some (.unhandledNodeKind tag)

def Check.printable : Check where
  expr form := form.isSource = false
  statement form := form.isSource = false

def Script.IsClean (s : Script) : Prop :=
  ∀ d, s.failure = some d → ¬d.IsLeftover

def Script.AllClean (scripts : List Script) : Prop :=
  ∀ s ∈ scripts, s.IsClean

namespace Php

open Script

theorem isClean_of_failure_eq_none {s : Script} (done : s.failure = none) : s.IsClean := by
  intro d failed
  rw [done] at failed
  contradiction

@[simp] theorem isClean_of (ops : List Op) : (of ops).IsClean :=
  isClean_of_failure_eq_none rfl

@[simp] theorem isClean_empty : Script.empty.IsClean :=
  isClean_of_failure_eq_none rfl

@[simp] theorem isClean_op (sign : String) : (op sign).IsClean :=
  isClean_of_failure_eq_none rfl

@[simp] theorem isClean_opIn (sign context : String) : (opIn sign context).IsClean :=
  isClean_of_failure_eq_none rfl

@[simp] theorem isClean_text (s : String) : (text s).IsClean :=
  isClean_of_failure_eq_none rfl

@[simp] theorem isClean_word (s : String) : (word s).IsClean :=
  isClean_of_failure_eq_none rfl

@[simp] theorem isClean_semicolon : semicolon.IsClean :=
  isClean_of_failure_eq_none rfl

@[simp] theorem isClean_docblocks (docs : List Docblock) : (docblocks docs).IsClean :=
  isClean_of_failure_eq_none rfl

/-- What follows a failure is not looked at. -/
@[simp] theorem isClean_append {first second : Script} :
    (first ++ second).IsClean ↔ first.IsClean ∧ (first.failure = none → second.IsClean) := by
  change (append first second).IsClean ↔ _
  unfold append
  cases failed : first.failure with
  | some d => simp
  | none =>
      constructor
      · intro clean
        exact ⟨isClean_of_failure_eq_none failed, fun _ => clean⟩
      · intro clean
        exact clean.2 rfl

theorem isClean_fail {cause : Cause} (pos : Position)
    (other : ∀ tag ∈ sourceTags, cause ≠ .unhandledNodeKind tag) :
    (Script.fail (cause.at pos)).IsClean := by
  intro d failed
  cases failed
  rintro ⟨tag, source, same⟩
  exact other tag source (Option.some.inj same)

@[simp] theorem isClean_malformed (message : String) (pos : Position) :
    (malformed message pos).IsClean :=
  isClean_fail pos (by simp)

@[simp] theorem isClean_invalidTarget (statement : String) (target : AssignTarget)
    (pos : Position) : (invalidTarget statement target pos).IsClean :=
  isClean_fail pos (by simp)

/-- A failed `isset` names the form inside it, which is no tag of a form. -/
@[simp] theorem isClean_unhandled_isset (form : String) (pos : Position) :
    (unhandled ("isset(" ++ form ++ ")") pos).IsClean := by
  have opens : ∀ tag ∈ sourceTags, tag.toList.take 6 ≠ "isset(".toList := by decide
  refine isClean_fail pos ?_
  rintro tag source same
  apply opens tag source
  rw [← Cause.unhandledNodeKind.inj same]
  simp [String.toList_append]

@[simp] theorem allClean_nil : AllClean [] := by
  simp [AllClean]

@[simp] theorem allClean_cons {s : Script} {rest : List Script} :
    AllClean (s :: rest) ↔ s.IsClean ∧ AllClean rest := by
  simp [AllClean]

theorem allClean_map {α : Type} {values : List α} {script : α → Script}
    (all : ∀ value ∈ values, (script value).IsClean) : AllClean (values.map script) := by
  intro s member
  obtain ⟨value, among, rfl⟩ := List.mem_map.mp member
  exact all value among

@[simp] theorem isClean_join {scripts : List Script} (all : AllClean scripts) :
    (join scripts).IsClean := by
  induction scripts with
  | nil => simp [join]
  | cons s rest ih =>
      rw [allClean_cons] at all
      simp [join, all.1, ih all.2]

theorem isClean_join_behind {lead : Script} {scripts : List Script} (clean : lead.IsClean)
    (all : AllClean scripts) : (join (scripts.map (lead ++ ·))).IsClean := by
  apply isClean_join
  apply allClean_map
  intro s member
  simp [clean, all s member]

@[simp] theorem isClean_commas {scripts : List Script} (all : AllClean scripts) :
    (commas scripts).IsClean := by
  cases scripts with
  | nil => simp [commas]
  | cons s rest =>
      rw [allClean_cons] at all
      simp [commas, all.1, isClean_join_behind (isClean_op ",") all.2]

@[simp] theorem isClean_grouped {inner : Script} (clean : inner.IsClean) :
    (grouped inner).IsClean := by
  simp [grouped, clean]

@[simp] theorem isClean_braced {inner : Script} (clean : inner.IsClean) :
    (braced inner).IsClean := by
  simp [braced, clean]

@[simp] theorem isClean_indexed {inner : Script} (clean : inner.IsClean) :
    (indexed inner).IsClean := by
  simp [indexed, clean]

@[simp] theorem isClean_call {function : String} {arguments : List Script}
    (all : AllClean arguments) : (call function arguments).IsClean := by
  simp [call, Script.arguments, all]

@[simp] theorem isClean_condition {inner : Script} (clean : inner.IsClean) :
    (condition inner).IsClean := by
  simp [condition, clean]

@[simp] theorem isClean_block {isEmpty : Bool} {statements : Script} {opening closing : String}
    {onEmpty : EmptyBlock} (clean : statements.IsClean) :
    (block isEmpty statements opening closing onEmpty).IsClean := by
  unfold block
  split <;> simp [clean]

@[simp] theorem isClean_operand {e : Expr} {inner : Script} {least : Nat}
    (clean : inner.IsClean) : (operand e inner least).IsClean := by
  unfold operand
  split <;> simp [clean]

@[simp] theorem isClean_className {e : Expr} {inner : Script} (clean : inner.IsClean) :
    (className e inner).IsClean := by
  unfold className
  split <;> simp [clean]

@[simp] theorem isClean_memberName {e : Expr} {inner : Script} (clean : inner.IsClean) :
    (memberName e inner).IsClean := by
  unfold memberName
  split <;> simp [clean]

@[simp] theorem isClean_staticMember (kind : AccessKind) (member : Expr) (pos : Position) :
    (staticMember kind member pos).IsClean := by
  unfold staticMember
  split <;> simp

theorem isClean_literal {kind : LiteralKind} {value : String} {pos : Position}
    (printable : (ExprForm.literal kind).isSource = false) : (literal kind value pos).IsClean := by
  cases kind with
  | istring => contradiction
  | _ => simp [literal]

theorem isClean_access {kind : AccessKind} {object member : Expr}
    {objectScript memberScript : Script} {pos : Position}
    (printable : (ExprForm.access kind).isSource = false) (cleanObject : objectScript.IsClean)
    (cleanMember : memberScript.IsClean) :
    (access kind object member objectScript memberScript pos).IsClean := by
  cases kind with
  | stringProperty => contradiction
  | _ => simp [access, cleanObject, cleanMember]

theorem isClean_issetAccess {kind : AccessKind} {object member : Expr}
    {objectScript memberScript : Script} {pos : Position} (cleanObject : objectScript.IsClean)
    (cleanMember : memberScript.IsClean) :
    (issetAccess kind object member objectScript memberScript pos).IsClean := by
  cases kind with
  | property =>
      unfold issetAccess
      cases member.name? with
      | some name => simp [cleanObject]
      | none => simp [cleanObject, cleanMember]
  | _ => simp [issetAccess, cleanObject, cleanMember]

theorem isClean_unary {op : UnaryOp} {inner : Expr} {script : Script} {pos : Position}
    (printable : (ExprForm.unary op).isSource = false) (notIsset : op ≠ .isset)
    (clean : script.IsClean) : (unary op inner script pos).IsClean := by
  have signed : ∀ sign, (of [.token sign none (some false)] ++
      (if leadsWith inner sign then grouped script
      else operand inner script (unaryFormLevel op))).IsClean := by
    intro sign
    split <;> simp [clean]
  cases op with
  | isset => exact absurd rfl notIsset
  | empty => contradiction
  | likely => contradiction
  | unlikely => contradiction
  | typeOf | group | clone | require => simp [unary, clean]
  | _ => exact signed _

@[simp] theorem isClean_withProperty {property : Option String} {pos : Position}
    {script : String → Script} (clean : ∀ name, (script name).IsClean) :
    (withProperty property pos script).IsClean := by
  cases property with
  | none => simp [withProperty]
  | some name => exact clean name

@[simp] theorem isClean_targetBase (target : AssignTarget) (base : String)
    (property : Option String) (statement : String) (pos : Position) :
    (targetBase target base property statement pos).IsClean := by
  cases target <;> simp [targetBase]

@[simp] theorem isClean_location {target : AssignTarget} {base : String}
    {property : Option String} {index : List Script} {statement : String} {pos : Position}
    (all : AllClean index) : (location target base property index statement pos).IsClean := by
  have indices : (join (index.map indexed)).IsClean := by
    apply isClean_join
    apply allClean_map
    exact fun s member => isClean_indexed (all s member)
  unfold location
  split <;> split <;> simp [indices]

@[simp] theorem isClean_loopHead {head : ForHead} {iterated : Script} {pos : Position}
    (clean : iterated.IsClean) : (loopHead head iterated pos).IsClean := by
  unfold loopHead
  split
  · simp
  · split
    · split <;> simp [countedHead]
    · unfold eachHead
      split <;> simp [clean]

@[simp] theorem isClean_catchVariable (binding : Option Expr) (pos : Position) :
    (catchVariable binding pos).IsClean := by
  unfold catchVariable
  split
  · simp
  · split <;> simp

@[simp] theorem isClean_catchClasses {classes : List Script} (all : AllClean classes) :
    (catchClasses classes).IsClean := by
  cases classes with
  | nil => simp [catchClasses]
  | cons first rest =>
      rw [allClean_cons] at all
      simp [catchClasses, all.1, isClean_join_behind (isClean_op "|") all.2]

@[simp] theorem isClean_parenthesized {parameters : List Script} {context : String}
    (all : AllClean parameters) : (parenthesized parameters context).IsClean := by
  simp [parenthesized, all]

mutual

theorem isClean_expr : (e : Expr) → EveryExpr .printable e → (expr e).IsClean
  | ⟨kind, pos, _, _⟩, every => by
      rw [EveryExpr] at every
      rw [expr]
      exact isClean_exprKind pos kind every.1 every.2

theorem isClean_exprKind (pos : Position) : (kind : ExprKind) → kind.form.isSource = false →
    EveryPart .printable kind → (exprKind pos kind).IsClean
  | .null, _, _ => by simp [exprKind]
  | .literal kind value, printable, _ => by
      rw [exprKind]
      exact isClean_literal printable
  | .emptyArray, _, _ => by simp [exprKind]
  | .array entries, _, every => by
      have clean := isClean_arrayEntries entries every
      simp [exprKind, clean]
  | .var name, _, _ => by simp [exprKind]
  | .access kind object member, printable, every => by
      rw [EveryPart] at every
      rw [exprKind]
      exact isClean_access printable (isClean_expr object every.1) (isClean_expr member every.2)
  | .call name callType arguments, _, every => by
      have clean := isClean_exprs arguments every
      simp [exprKind, clean]
  | .methodCall receiver name callType arguments, _, every => by
      rw [EveryPart] at every
      have cleanReceiver := isClean_expr receiver every.1
      have clean := isClean_exprs arguments every.2
      simp [exprKind, cleanReceiver, clean]
  | .staticCall callee arguments, _, every => by
      have clean := isClean_exprs arguments every
      simp [exprKind, clean]
  | .new name dynamic arguments, _, every => by
      have clean := isClean_exprs arguments every
      simp [exprKind, clean]
  | .unary op operand, printable, every => by
      rw [EveryPart] at every
      by_cases isIsset : op = .isset
      · subst isIsset
        rw [exprKind]
        exact isClean_isset operand every
      · rw [exprKind]
        · exact isClean_unary printable isIsset (isClean_expr operand every)
        · exact isIsset
  | .binary op left right, _, every => by
      rw [EveryPart] at every
      have cleanLeft := isClean_expr left every.1
      have cleanRight := isClean_expr right every.2
      simp [exprKind, cleanLeft, cleanRight]
  | .instanceOf value name, _, every => by
      rw [EveryPart] at every
      have cleanValue := isClean_expr value every.1
      have cleanName := isClean_expr name every.2
      simp [exprKind, cleanValue, cleanName]
  | .ternary condition yes no, _, every => by
      rw [EveryPart] at every
      have cleanCondition := isClean_expr condition every.1
      have cleanYes := isClean_expr yes every.2.1
      have cleanNo := isClean_expr no every.2.2
      simp [exprKind, cleanCondition, cleanYes, cleanNo]
  | .cast typeName operand, _, every => by
      have clean := isClean_expr operand every
      simp [exprKind, clean]
  | .closure params body _, _, every => by
      rw [EveryPart] at every
      have cleanParameters := isClean_parameters params every.1
      have cleanBody := isClean_statements body every.2
      simp [exprKind, cleanParameters, cleanBody]

theorem isClean_isset : (e : Expr) → EveryExpr .printable e → (isset e).IsClean
  | ⟨kind, pos, dataType, doCast⟩, every => by
      -- Only accesses and variables are looked into; any other kind is named in the failure.
      cases kind with
      | access kind object member =>
          rw [EveryExpr, EveryPart] at every
          rw [isset]
          exact isClean_issetAccess (isClean_expr object every.2.1) (isClean_expr member every.2.2)
      | var name => simp [isset]
      | _ =>
          rw [isset]
          · exact isClean_unhandled_isset _ _
          all_goals simp

theorem isClean_exprs : (es : List Expr) → EveryExprs .printable es → AllClean (exprs es)
  | [], _ => by simp [exprs]
  | e :: rest, every => by
      rw [EveryExprs] at every
      rw [exprs, allClean_cons]
      exact ⟨isClean_expr e every.1, isClean_exprs rest every.2⟩

theorem isClean_classNames : (es : List Expr) → EveryExprs .printable es →
    AllClean (classNames es)
  | [], _ => by simp [classNames]
  | e :: rest, every => by
      rw [EveryExprs] at every
      rw [classNames, allClean_cons]
      exact ⟨isClean_className (isClean_expr e every.1), isClean_classNames rest every.2⟩

theorem isClean_arrayEntries : (entries : List ArrayEntry) → EveryEntries .printable entries →
    AllClean (arrayEntries entries)
  | [], _ => by simp [arrayEntries]
  | ⟨none, value⟩ :: rest, every => by
      rw [EveryEntries] at every
      have clean := isClean_expr value every.2.1
      have cleanRest := isClean_arrayEntries rest every.2.2
      simp [arrayEntries, clean, cleanRest]
  | ⟨some key, value⟩ :: rest, every => by
      rw [EveryEntries, EveryOption] at every
      have cleanKey := isClean_expr key every.1
      have clean := isClean_expr value every.2.1
      have cleanRest := isClean_arrayEntries rest every.2.2
      simp [arrayEntries, cleanKey, clean, cleanRest]

theorem isClean_initial : (value : Option Expr) → EveryOption .printable value →
    (initial value).IsClean
  | none, _ => by simp [initial]
  | some e, every => by
      have clean := isClean_expr e every
      simp [initial, clean]

theorem isClean_parameters : (params : List Parameter) → EveryParameters .printable params →
    AllClean (parameters params)
  | [], _ => by simp [parameters]
  | ⟨name, _, value, _, reference, _⟩ :: rest, every => by
      rw [EveryParameters] at every
      have clean := isClean_initial value every.1
      have cleanRest := isClean_parameters rest every.2
      simp [parameters, clean, cleanRest]

theorem isClean_statements : (body : List Statement) → EveryBlock .printable body →
    (statements body).IsClean
  | [], _ => by simp [statements]
  | ⟨kind, pos, docs⟩ :: rest, every => by
      rw [EveryBlock, EveryStatement] at every
      have clean := isClean_statementKind pos kind every.1.1 every.1.2
      have cleanRest := isClean_statements rest every.2
      simp [statements, statement, docblocks, clean, cleanRest]

theorem isClean_statementKind (pos : Position) : (kind : StatementKind) →
    kind.form.isSource = false → EveryInner .printable kind → (statementKind pos kind).IsClean
  | .assign .set ⟨target, operator, base, property, index, none⟩, _, every => by
      rw [EveryInner] at every
      have clean := isClean_exprs index every.2.1
      simp [statementKind, assignment, clean]
  | .assign .set ⟨target, operator, base, property, index, some value⟩, _, every => by
      rw [EveryInner, EveryOption] at every
      have clean := isClean_exprs index every.2.1
      have cleanValue := isClean_expr value every.2.2
      simp [statementKind, assignment, clean, cleanValue]
  | .assign .increment ⟨target, operator, base, property, index, value⟩, _, every => by
      rw [EveryInner] at every
      have clean := isClean_exprs index every.2.1
      rw [statementKind, counted]
      split <;> simp [clean]
  | .assign .decrement ⟨target, operator, base, property, index, value⟩, _, every => by
      rw [EveryInner] at every
      have clean := isClean_exprs index every.2.1
      rw [statementKind, counted]
      split <;> simp [clean]
  | .echo expressions, _, every => by
      have clean := isClean_exprs expressions every
      simp [statementKind, clean]
  | .effect kind e, _, every => by
      have clean := isClean_expr e every
      cases kind <;> simp [statementKind, clean]
  | .ret none, _, _ => by simp [statementKind]
  | .ret (some e), _, every => by
      have clean := isClean_expr e every
      simp [statementKind, clean]
  | .jump kind, _, _ => by simp [statementKind]
  | .empty, _, _ => by simp [statementKind]
  | .branch test body elseIfs otherwise, _, every => by
      rw [EveryInner] at every
      obtain ⟨everyTest, everyBody, everyElseIfs, everyOtherwise⟩ := every
      have cleanTest := isClean_expr test everyTest
      have cleanBody := isClean_statements body everyBody
      have cleanElseIfs := fun hasElse => isClean_elseIfBranches hasElse elseIfs everyElseIfs
      have cleanOtherwise := isClean_otherwise otherwise everyOtherwise
      rcases otherwise with _ | _ | ⟨s, rest⟩
      · simp [statementKind, cleanTest, cleanBody, cleanElseIfs]
      · simp [statementKind, cleanTest, cleanBody, cleanElseIfs]
      · have cleanElse := cleanOtherwise (s :: rest) rfl
        simp [statementKind, cleanTest, cleanBody, cleanElseIfs, cleanElse]
  | .whileLoop kind test body, _, every => by
      rw [EveryInner] at every
      have cleanTest := isClean_expr test every.1
      have cleanBody := isClean_statements body every.2
      cases kind
      all_goals
        simp [statementKind, cleanTest, cleanBody]
  | .loop body, _, every => by
      have cleanBody := isClean_statements body every
      simp [statementKind, cleanBody]
  | .forLoop head iterated body, _, every => by
      rw [EveryInner] at every
      have cleanIterated := isClean_expr iterated every.2.1
      have cleanBody := isClean_statements body every.2.2
      simp [statementKind, cleanIterated, cleanBody]
  | .switch subject clauses, _, every => by
      rw [EveryInner] at every
      have cleanSubject := isClean_expr subject every.1
      have cleanClauses := isClean_switchClauses clauses every.2
      simp [statementKind, cleanSubject, cleanClauses]
  | .tryCatch body catches, _, every => by
      rw [EveryInner] at every
      have cleanBody := isClean_statements body every.2.1
      have cleanCatches := isClean_catchClauses catches every.2.2
      simp [statementKind, cleanBody, cleanCatches]

theorem isClean_otherwise : (otherwise : Option (List Statement)) →
    EveryOtherwise .printable otherwise → ∀ body ∈ otherwise, (statements body).IsClean
  | none, _ => by simp
  | some body, every => by
      rw [EveryOtherwise] at every
      have clean := isClean_statements body every
      simpa using clean

theorem isClean_elseIfBranches (hasElse : Bool) : (elseIfs : List ElseIf) →
    EveryElseIfs .printable elseIfs → (elseIfBranches hasElse elseIfs).IsClean
  | [], _ => by simp [elseIfBranches]
  | ⟨test, body, _⟩ :: rest, every => by
      rw [EveryElseIfs] at every
      have cleanTest := isClean_expr test every.1
      have cleanBody := isClean_statements body every.2.1
      have cleanRest := isClean_elseIfBranches hasElse rest every.2.2
      simp [elseIfBranches, cleanTest, cleanBody, cleanRest]

theorem isClean_switchClauses : (clauses : List SwitchClause) → EveryClauses .printable clauses →
    (switchClauses clauses).IsClean
  | [], _ => by simp [switchClauses]
  | ⟨none, body⟩ :: rest, every => by
      rw [EveryClauses] at every
      have cleanBody := isClean_statements body every.2.1
      have cleanRest := isClean_switchClauses rest every.2.2
      simp [switchClauses, cleanBody, cleanRest]
  | ⟨some test, body⟩ :: rest, every => by
      rw [EveryClauses, EveryOption] at every
      have cleanTest := isClean_expr test every.1
      have cleanBody := isClean_statements body every.2.1
      have cleanRest := isClean_switchClauses rest every.2.2
      simp [switchClauses, cleanTest, cleanBody, cleanRest]

theorem isClean_catchClauses : (catches : List Catch) → EveryCatches .printable catches →
    (catchClauses catches).IsClean
  | [], _ => by simp [catchClauses]
  | ⟨classes, binding, body, pos⟩ :: rest, every => by
      rw [EveryCatches] at every
      have cleanClasses := isClean_classNames classes every.1
      have cleanBody := isClean_statements body every.2.2.1
      have cleanRest := isClean_catchClauses rest every.2.2.2
      simp [catchClauses, cleanClasses, cleanBody, cleanRest]

end

@[simp] theorem isClean_separate (path : String) : (separate path).IsClean :=
  isClean_of_failure_eq_none rfl

@[simp] theorem isClean_modifiers (words : List String) : (modifiers words).IsClean := by
  apply isClean_join
  apply allClean_map
  exact fun name _ => isClean_word name

theorem isClean_constant {constant : Constant} (every : EveryOption .printable constant.value) :
    (Php.constant constant).IsClean := by
  have clean := isClean_initial constant.value every
  simp [Php.constant, clean]

theorem isClean_property {property : Property} (every : EveryOption .printable property.value) :
    (Php.property property).IsClean := by
  have clean := isClean_initial property.value every
  simp [Php.property, clean]

theorem isClean_method {signatureOnly : Bool} {method : Method}
    (every : EveryMethod .printable method) : (Php.method signatureOnly method).IsClean := by
  have cleanParameters := isClean_parameters method.parameters every.1
  have cleanBody := isClean_statements method.body every.2
  unfold Php.method
  split <;> simp [cleanParameters, cleanBody]

theorem isClean_membersSection {isFirst : Bool} {scripts : List Script}
    (all : AllClean scripts) : (membersSection isFirst scripts).IsClean := by
  unfold membersSection
  split <;> simp [all]

theorem allClean_methodList {scripts : List Script} (all : AllClean scripts) :
    AllClean (methodList scripts) := by
  cases scripts with
  | nil => simp [methodList]
  | cons first rest =>
      rw [allClean_cons] at all
      rw [methodList, allClean_cons]
      refine ⟨all.1, allClean_map ?_⟩
      intro s member
      simp [all.2 s member]

theorem allClean_map_valuesByName {α : Type} {map : OrderedMap α} {script : α → Script}
    (all : ∀ value ∈ map.values, (script value).IsClean) :
    AllClean (map.valuesByName.map script) := by
  apply allClean_map
  intro value among
  apply all
  simpa [OrderedMap.valuesByName, OrderedMap.values, List.mem_mergeSort] using among

theorem isClean_members {owner : Members} {signaturesOnly : Bool}
    (every : EveryMembers .printable owner) : (members owner signaturesOnly).IsClean := by
  have constants := allClean_map_valuesByName fun constant among =>
    isClean_constant (every.constants constant among)
  have properties := allClean_map_valuesByName fun property among =>
    isClean_property (every.properties property among)
  have methods : AllClean (owner.methods.valuesByName.map (method signaturesOnly)) :=
    allClean_map_valuesByName fun method among => isClean_method (every.methods method among)
  simp [members, isClean_membersSection constants, isClean_membersSection properties,
    isClean_membersSection (allClean_methodList methods)]

@[simp] theorem isClean_body {context : String} {inner : Script} (clean : inner.IsClean) :
    (body context inner).IsClean := by
  simp [body, clean]

theorem isClean_classList {keyword : String} {classes : List Expr}
    (every : EveryExprs .printable classes) : (classList keyword classes).IsClean := by
  have clean := isClean_classNames classes every
  unfold classList
  split <;> simp [clean]

theorem isClean_useAlias (used : UseAlias) : (useAlias used).IsClean := by
  unfold useAlias
  split <;> simp

theorem isClean_nodeKind {pos : Position} {kind : NodeKind} (every : EveryNode .printable kind) :
    (nodeKind pos kind).IsClean := by
  cases kind with
  | namespaceDecl name => simp [nodeKind]
  | useDecl aliases =>
      have clean : AllClean (aliases.map useAlias) :=
        allClean_map fun used _ => isClean_useAlias used
      simp [nodeKind, clean]
  | require e =>
      have clean := isClean_expr e every
      simp [nodeKind, clean]
  | comment text => contradiction
  | cblock text => contradiction
  | functionDecl decl =>
      have cleanParameters := isClean_parameters decl.parameters every.1
      have cleanBody := isClean_statements decl.body every.2
      simp [nodeKind, functionDecl, cleanParameters, cleanBody]
  | classDecl decl =>
      have cleanMembers : (members decl.members false).IsClean := isClean_members every.2
      have cleanInterfaces : (classList "implements" decl.interfaces).IsClean :=
        isClean_classList every.1
      cases extended : decl.parent <;>
        simp [nodeKind, classDecl, extended, cleanInterfaces, cleanMembers]
  | interfaceDecl decl =>
      have cleanMembers : (members decl.members true).IsClean := isClean_members every.2
      simp [nodeKind, interfaceDecl, isClean_classList every.1, cleanMembers]

/-- Generation never stops at a leftover of the source if there is none in the unit. -/
theorem isClean_unit {nodes : List Node} (every : EveryUnit .printable nodes) :
    (unit nodes).IsClean := by
  have clean : AllClean (nodes.map node) := by
    apply allClean_map
    intro node among
    simp [Php.node, isClean_nodeKind (every node among)]
  simp [unit, clean]

end Php

/-- Rendering refuses a unit only with the error that its generation stops at. -/
theorem renderInto_refusal {σ : Type} {layout : Layout} {sink : Sink σ} {state final : σ}
    {target : String} {unit : List Node} {refusal : Refusal}
    (refused : renderInto layout sink state target unit = (final, .error (.refused refusal))) :
    ∃ d ∈ (Php.unit unit).failure, refusal = .single d := by
  unfold renderInto at refused
  dsimp only at refused
  split at refused
  · cases refused
  · rename_i d _ stopped
    cases refused
    exact ⟨d, stopped, rfl⟩
  · split at refused <;> cases refused

theorem renderInto_refused {σ : Type} {layout : Layout} {sink : Sink σ} {state final : σ}
    {target : String} {unit : List Node} {d : Diagnostic}
    (refused : renderInto layout sink state target unit = (final, .error (.refused (.single d)))) :
    (Php.unit unit).failure = some d := by
  obtain ⟨e, stopped, same⟩ := renderInto_refusal refused
  cases same
  exact stopped

theorem renderPhp_refused {layout : Layout} {unit : List Node} {d : Diagnostic}
    (refused : renderPhp layout unit = .error (.refused (.single d))) :
    (Php.unit unit).failure = some d := by
  unfold renderPhp at refused
  split at refused
  · contradiction
  · rename_i rendered
    cases refused
    exact renderInto_refused rendered

end Zephir
