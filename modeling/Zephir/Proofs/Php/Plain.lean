import Zephir.Php.Tree
import Zephir.Proofs.Php.Reading

/-!
Plain expressions, the expressions of PHP that they stand for, and how the names and literals in
them are scanned.
-/

namespace Zephir.Php

open Script

def reserved : List String := ["clone", "instanceof", "new"]

def isIdentifier (text : String) : Bool :=
  match text.toList with
  | [] => false
  | c :: rest =>
    startsName c && rest.all (fun c => startsName c || c.isDigit) && !reserved.contains text

def isNumeral (text : String) : Bool :=
  match text.toList with
  | '.' :: c :: _ => c.isDigit
  | c :: _ => c.isDigit
  | [] => false

def isStatic : AccessKind → Bool
  | .staticProperty | .classConstant => true
  | _ => false

/-- Expressions made of plain parts: names are identifiers, numerals have no sign, and classes are
given by name. An `isset` tests one of the places that the printer has a helper for. -/
inductive Plain : ExprKind → Prop
  | null : Plain .null
  | bool {text} : isIdentifier (Text.upper text) → Plain (.literal .bool text)
  | int {text} : isNumeral text → Plain (.literal .int text)
  | double {text} : isNumeral text → Plain (.literal .double text)
  | string {text} : Plain (.literal .string text)
  | char {text} : Plain (.literal .char text)
  | constant {text} : isIdentifier text → Plain (.literal .constant text)
  | emptyArray : Plain .emptyArray
  | array {entries} : (∀ entry ∈ entries, ∀ key ∈ entry.key, Plain key.kind) →
      (∀ entry ∈ entries, Plain entry.value.kind) → Plain (.array entries)
  | var {name} : Plain (.var name)
  | element {object member} : Plain object.kind → Plain member.kind →
      Plain (.access .element object member)
  | property {object member name} : Plain object.kind → member.name? = some name →
      isIdentifier name → Plain (.access .property object member)
  | computedProperty {object member} : Plain object.kind → member.name? = none →
      Plain member.kind → Plain (.access .property object member)
  | dynamicProperty {object member} : Plain object.kind → Plain member.kind →
      Plain (.access .dynamicProperty object member)
  | staticMember {kind object member className name} : isStatic kind →
      object.name? = some className → isIdentifier className →
      member.name? = some name → isIdentifier name → Plain (.access kind object member)
  | call {name callType arguments} : (callType = 1 → isIdentifier name) →
      (∀ argument ∈ arguments, Plain argument.kind) → Plain (.call name callType arguments)
  | methodCall {receiver name callType arguments} : Plain receiver.kind →
      (callType = 1 → isIdentifier name) → (∀ argument ∈ arguments, Plain argument.kind) →
      Plain (.methodCall receiver name callType arguments)
  | staticCall {callee arguments} : (callee.dynamicClass = false → isIdentifier callee.className) →
      (callee.dynamic = false → isIdentifier callee.name) →
      (∀ argument ∈ arguments, Plain argument.kind) → Plain (.staticCall callee arguments)
  | new {name dynamic arguments} : (dynamic = false → isIdentifier name) →
      (∀ argument ∈ arguments, Plain argument.kind) → Plain (.new name dynamic arguments)
  | group {inner} : Plain inner.kind → Plain (.unary .group inner)
  | sign {op inner} : op.sign?.isSome → Plain inner.kind → Plain (.unary op inner)
  | clone {inner} : Plain inner.kind → Plain (.unary .clone inner)
  | typeOf {inner} : Plain inner.kind → Plain (.unary .typeOf inner)
  | issetVar {target name} : target.kind = .var name → Plain (.unary .isset target)
  | issetElement {target object member} : target.kind = .access .element object member →
      Plain object.kind → Plain member.kind → Plain (.unary .isset target)
  | issetProperty {target object member} : target.kind = .access .property object member →
      Plain object.kind → (member.name? = none → Plain member.kind) → Plain (.unary .isset target)
  | issetDynamicProperty {target object member} :
      target.kind = .access .dynamicProperty object member →
      Plain object.kind → Plain member.kind → Plain (.unary .isset target)
  | issetStaticProperty {target object member className name} :
      target.kind = .access .staticProperty object member →
      object.name? = some className → isIdentifier className → member.name? = some name →
      Plain (.unary .isset target)
  | binary {op left right} : Plain left.kind → Plain right.kind → Plain (.binary op left right)
  | instanceOf {value className name} : Plain value.kind → className.name? = some name →
      isIdentifier name → Plain (.instanceOf value className)
  | ternary {condition yes no} : Plain condition.kind → Plain yes.kind → Plain no.kind →
      Plain (.ternary condition yes no)
  | cast {typeName inner} : Plain inner.kind → Plain (.cast typeName inner)

def nameTerm (dynamic : Bool) (name : String) : Term :=
  if dynamic then .variable name else .name name

def nameMember (dynamic : Bool) (name : String) : Member :=
  if dynamic then .variable name else .named name

def stringTerm (text : String) : Term :=
  .string (String.ofList (singleBackslashes text.toList))

def memberTerm (member : Expr) (inner : Term) : Member :=
  match member.name? with
  | some name => .named name
  | none => .computed inner

def methodMember (callType : UInt8) (name : String) : Member :=
  if callType = 1 then .named name
  else if callType = 2 then .variable name
  else .computed (.string name)

def staticTerm (kind : AccessKind) (object member : Expr) : Term :=
  .staticMember (.name (object.name?.getD ""))
    (nameMember (kind == .staticProperty) (member.name?.getD ""))

mutual

/-- The expression of PHP that a tree stands for. Groups leave no trace in it, and `isset` and
`typeof` are calls of their helpers. Kinds that PHP does not have become an empty name. -/
def term : Expr → Term
  | ⟨kind, _, _, _⟩ => kindTerm kind

def kindTerm : ExprKind → Term
  | .null => .name "NULL"
  | .literal .bool text => .name (Text.upper text)
  | .literal .int text => .number text
  | .literal .double text => .number text
  | .literal .string text => stringTerm text
  | .literal .char text => .string text
  | .literal .constant text => .name text
  | .emptyArray => .array []
  | .array entries => .array (entryTerms entries)
  | .var name => .variable name
  | .access .element object member => .index (term object) (term member)
  | .access .property object member =>
    .property (term object) (memberTerm member (term member))
  | .access .dynamicProperty object member => .property (term object) (.computed (term member))
  | .access kind object member => staticTerm kind object member
  | .call name callType arguments => .call (nameTerm (callType != 1) name) (terms arguments)
  | .methodCall receiver name callType arguments =>
    .methodCall (term receiver) (methodMember callType name) (terms arguments)
  | .staticCall callee arguments =>
    .staticCall (nameTerm callee.dynamicClass callee.className)
      (nameMember callee.dynamic callee.name) (terms arguments)
  | .new name dynamic arguments => .new (nameTerm dynamic name) (terms arguments)
  | .unary .group inner => term inner
  | .unary .typeOf inner => .call (.name "zephir_typeof") [term inner]
  | .unary .isset target => issetTerm target
  | .unary op inner => .unary op (term inner)
  | .binary op left right => .binary op (term left) (term right)
  | .instanceOf value className => .instanceOf (term value) (.name (className.name?.getD ""))
  | .ternary condition yes no => .ternary (term condition) (term yes) (term no)
  | .cast typeName inner => .cast typeName (term inner)
  | _ => .name ""

def issetTerm : Expr → Term
  | ⟨.access .element object member, _, _, _⟩ =>
    .call (.name "zephir_isset_array") [term object, term member]
  | ⟨.access .property object member, _, _, _⟩ =>
    .call (.name "zephir_isset_property") [term object,
      match member.name? with
      | some name => stringTerm name
      | none => term member]
  | ⟨.access .dynamicProperty object member, _, _, _⟩ =>
    .call (.name "zephir_isset_property") [term object, term member]
  | ⟨.access kind object member, _, _, _⟩ =>
    .call (.name "isset") [staticTerm kind object member]
  | ⟨.var name, _, _, _⟩ => .call (.name "isset") [.variable name]
  | _ => .name ""

def terms : List Expr → List Term
  | [] => []
  | e :: rest => term e :: terms rest

def entryTerms : List ArrayEntry → List Entry
  | [] => []
  | ⟨none, value⟩ :: rest => .value (term value) :: entryTerms rest
  | ⟨some key, value⟩ :: rest => .pair (term key) (term value) :: entryTerms rest

end

@[simp] theorem failure_append (first second : Script) :
    (first ++ second).failure = none ↔ first.failure = none ∧ second.failure = none := by
  change (append first second).failure = none ↔ _
  unfold append
  cases accepted : first.failure with
  | none => simp
  | some d => simp [accepted]

theorem tokens_append {first : Script} (accepted : first.failure = none) (second : Script) :
    (first ++ second).tokens = first.tokens ++ second.tokens := by
  change (append first second).tokens = _
  simp [append, accepted, tokens]

@[simp] theorem failure_of (ops : List Op) : (of ops).failure = none := rfl

@[simp] theorem failure_op (text : String) : (op text).failure = none := rfl

@[simp] theorem failure_opIn (text context : String) : (opIn text context).failure = none := rfl

@[simp] theorem failure_text (text : String) : (Script.text text).failure = none := rfl

@[simp] theorem failure_word (text : String) : (word text).failure = none := rfl

@[simp] theorem tokens_of (ops : List Op) : (of ops).tokens = ops.flatMap Op.tokens := rfl

@[simp] theorem tokens_op (text : String) : (op text).tokens = scan text := by
  simp [op, Op.tokens]

@[simp] theorem tokens_opIn (text context : String) : (opIn text context).tokens = scan text := by
  simp [opIn, Op.tokens]

@[simp] theorem tokens_text (text : String) : (Script.text text).tokens = scan text := by
  simp [Script.text, Op.tokens]

@[simp] theorem tokens_word (text : String) : (word text).tokens = scan text := by
  simp [word, Op.tokens]

theorem unquote_quoteChar (c : Char) (quoted : List Char) :
    unquote (quoteChar c ++ quoted) =
      (unquote quoted).map fun (text, rest) => (c :: text, rest) := by
  unfold quoteChar
  by_cases backslash : c = '\\'
  · simp [backslash, unquote]
  · by_cases mark : c = '\''
    · simp [mark, unquote]
    · simp only [backslash, mark, if_false, List.cons_append, List.nil_append]
      rw [unquote]
      · exact mark
      · intro rest same
        exact absurd same backslash
      · intro rest same
        exact absurd same backslash

theorem unquote_flatMap (text rest : List Char) :
    unquote (text.flatMap quoteChar ++ '\'' :: rest) = some (text, rest) := by
  induction text with
  | nil => simp [unquote]
  | cons c text ih =>
      rw [List.flatMap_cons, List.append_assoc, unquote_quoteChar, ih]
      rfl

theorem scan_dollar (name : String) : scan (dollar name) = [.variable name] := by
  simp [scan, dollar]

theorem scan_quote (text : String) : scan (quote text) = [.string text] := by
  have inner := unquote_flatMap text.toList []
  simp only [scan, quote, String.toList_ofList]
  rw [List.cons_append]
  simp only [inner, String.ofList_toList]

theorem scan_braced_quote (text : String) :
    scan ("\x7b" ++ quote text ++ "\x7d") = [.symbol "\x7b", .string text, .symbol "\x7d"] := by
  have inner := unquote_flatMap text.toList ['\x7d']
  have shape : ("\x7b" ++ quote text ++ "\x7d").toList =
      '\x7b' :: '\'' :: (text.toList.flatMap quoteChar ++ ['\'', '\x7d']) := by
    simp [quote]
  simp only [scan, shape, inner, String.ofList_toList]

theorem scan_cast (typeName : String) : scan ("(" ++ typeName ++ ")") = [.cast typeName] := by
  have shape : ("(" ++ typeName ++ ")").toList = '(' :: (typeName.toList ++ [')']) := by simp
  cases letters : typeName.toList ++ [')'] with
  | nil => simp at letters
  | cons c rest =>
      simp only [scan, shape, letters]
      rw [← letters, List.dropLast_concat, String.ofList_toList]

theorem isDigit_of_startsName {c : Char} (start : startsName c) : c.isDigit = false := by
  rw [Bool.eq_false_iff]
  intro digit
  have upTo : c.toNat ≤ 57 := by
    simp only [Char.isDigit, Bool.and_eq_true, decide_eq_true_eq] at digit
    exact digit.2
  have letter : c.isAlpha = (decide (65 ≤ c.val ∧ c.val ≤ 90) ||
      decide (97 ≤ c.val) && decide (c.val ≤ 122)) := rfl
  simp only [startsName, letter, Bool.or_eq_true, Bool.and_eq_true, decide_eq_true_eq,
    beq_iff_eq] at start
  rcases start with (((upper | lower) | same) | same) | wide
  · have above : 65 ≤ c.toNat := upper.1
    omega
  · have above : 97 ≤ c.toNat := lower.1
    omega
  · subst same
    exact absurd digit (by decide)
  · subst same
    exact absurd digit (by decide)
  · omega

theorem scan_identifier {text : String} (identifier : isIdentifier text) :
    scan text = [.name text] := by
  unfold isIdentifier at identifier
  unfold scan
  split at identifier
  · contradiction
  · rename_i c rest letters
    simp only [Bool.and_eq_true] at identifier
    have start := identifier.1.1
    have noDigit := isDigit_of_startsName start
    rw [letters]
    split
    case h_6 => simp_all
    case h_7 => simp_all
    all_goals
      rename_i opening
      obtain ⟨rfl, -⟩ := List.cons.inj opening
      exact absurd start (by decide)

theorem scan_numeral {text : String} (numeral : isNumeral text) :
    scan text = [.number text] := by
  unfold isNumeral at numeral
  unfold scan
  split at numeral
  · rename_i letters
    simp [letters, numeral]
  · rename_i c rest noPoint letters
    rw [letters]
    split
    all_goals simp_all
  · contradiction

theorem scan_php (op : BinaryOp) : scan op.php = [.symbol op.php] := by
  cases op <;> rfl

end Zephir.Php
