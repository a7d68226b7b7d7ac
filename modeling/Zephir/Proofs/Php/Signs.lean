import Zephir.Proofs.Emit.Beginning
import Zephir.Proofs.Php.Indentation
import Zephir.Proofs.Php.Plain

/-!
Signs in front of operands. Two of the same in a row would read as another operator, so an operand
that leads with the sign is put in parentheses. What an operand starts with is decided by the end
of its leftmost spine, and the generator only looks at its top node. A sign further down, as that
of a number with an index, runs into the one in front of it.
-/

namespace Zephir

open Text

namespace Php

open Script Emitter

inductive Sign
  | minus
  | plus
  deriving DecidableEq

namespace Sign

def op : Sign → UnaryOp
  | .minus => .minus
  | .plus => .plus

def char : Sign → Char
  | .minus => '-'
  | .plus => '+'

def text (sign : Sign) : String :=
  String.singleton sign.char

def before (sign : Sign) (e : Expr) (pos : Position) : Expr :=
  .plain (.unary sign.op e) pos

def operand (sign : Sign) (e : Expr) : Script :=
  if leadsWith e sign.text then grouped (expr e) else expr e

end Sign

def exprText (layout : Layout) (e : Expr) : Except RenderError String :=
  match (Emitter.run layout {} (expr e).ops).fault, (expr e).failure with
  | some fault, _ => .error (.fault fault)
  | none, some d => .error (.refused (.single d))
  | none, none => .ok (opsText layout (expr e).ops)

/-- Whether an expression is a sign with its operand, or a number that may have a sign. -/
def isSigned : ExprKind → Bool
  | .unary .minus _ | .unary .plus _ | .literal .int _ | .literal .double _ => true
  | _ => false

def Leads (s : Script) (first : Option Char) : Prop :=
  s.failure = none → Opens first s.ops

def operandOpening (e : Expr) (inner : Option Char) (least : Nat) : Option Char :=
  if level e.kind < least then some '(' else inner

def classOpening (e : Expr) (inner : Option Char) : Option Char :=
  match e.name? with
  | some name => name.toList.head?
  | none => inner

def literalOpening (kind : LiteralKind) (value : String) : Option Char :=
  match kind with
  | .bool => (Text.upper value).toList.head?
  | .int | .double | .constant => value.toList.head?
  | .string | .char => some '\''
  | .istring => none

def accessOpening (kind : AccessKind) (object : Expr) (inner : Option Char) : Option Char :=
  match kind with
  | .element => (operandOpening object inner primaryLevel).or (some '[')
  | .property | .dynamicProperty => (operandOpening object inner primaryLevel).or (some '-')
  | .stringProperty => none
  | .staticProperty | .classConstant => (classOpening object inner).or (some ':')

def issetOpening : ExprKind → Option Char
  | .access .staticProperty _ _ | .var _ => some 'i'
  | .access .stringProperty _ _ | .access .classConstant _ _ => none
  | .access _ _ _ => some 'z'
  | _ => none

def unaryOpening : UnaryOp → Expr → Option Char
  | .isset, target => issetOpening target.kind
  | .typeOf, _ => some 'z'
  | .group, _ => some '('
  | .clone, _ => some 'c'
  | .require, _ => some 'r'
  | op, _ => op.sign?.bind (·.toList.head?)

mutual

/-- The first character of the text of an expression, if there is any. It is written at the end of
the leftmost spine, or right behind that if a name or literal without text stands there. -/
def opening : Expr → Option Char
  | ⟨kind, _, _, _⟩ => openingKind kind

def openingKind : ExprKind → Option Char
  | .null => some 'N'
  | .literal kind value => literalOpening kind value
  | .emptyArray | .array _ => some '['
  | .var _ => some '$'
  | .access kind object _ => accessOpening kind object (opening object)
  | .call name callType _ => (nameText (callType != 1) name).toList.head?.or (some '(')
  | .methodCall receiver _ _ _ =>
    (operandOpening receiver (opening receiver) primaryLevel).or (some '-')
  | .staticCall callee _ =>
    (nameText callee.dynamicClass callee.className).toList.head?.or (some ':')
  | .new _ _ _ => some 'n'
  | .unary op operand => unaryOpening op operand
  | .binary op left _ =>
    (operandOpening left (opening left) (leftLevel op)).or op.php.toList.head?
  | .instanceOf value _ => (operandOpening value (opening value) unaryLevel).or (some 'i')
  | .ternary condition _ _ =>
    (operandOpening condition (opening condition) (ternaryLevel + 1)).or (some '?')
  | .cast _ _ => some '('
  | .closure _ _ _ => some 'f'
  | _ => none

end

variable {s : Script} {first : Option Char}

theorem leads_fail (d : Diagnostic) : Leads (fail d) first :=
  fun whole => by simp [fail] at whole

theorem leads_of {op : Op} {text : String} {c : Char} (clings : Clings op text)
    (starts : text.toList.head? = some c) : Leads (of [op]) (some c) :=
  fun _ => .soon clings starts

theorem leads_text (t : String) : Leads (text t) t.toList.head? := by
  intro _
  cases starts : t.toList.head? with
  | none =>
      have empty : t = "" := by simpa using starts
      rw [empty]
      exact .silent
  | some c => exact .soon .emit starts

theorem leads_word {w : String} {c : Char} (starts : w.toList.head? = some c) :
    Leads (word w) (some c) :=
  leads_of .keyword starts

theorem leads_bracket : Leads (op "[") (some '[') :=
  fun _ => .array

theorem Leads.more (leads : Leads s first) (filled : first ≠ none) (more : Script) :
    Leads (s ++ more) first := by
  intro whole
  obtain ⟨whole, -⟩ := (failure_append _ _).mp whole
  rw [append_of_whole more whole]
  have opens := leads whole
  generalize s.ops = ops at opens
  cases opens with
  | silent => contradiction
  | late starts => exact .late starts
  | array => exact .array
  | soon clings starts => exact .soon clings starts

theorem Leads.or (leads : Leads s first) {sign : String} {context : Option String} {c : Char}
    (starts : sign.toList.head? = some c) :
    Leads (s ++ of [.operator sign context]) (first.or (some c)) := by
  cases first with
  | some d => exact leads.more (by simp) _
  | none =>
      intro whole
      obtain ⟨whole, -⟩ := (failure_append _ _).mp whole
      rw [append_of_whole _ whole]
      have opens := leads whole
      generalize s.ops = ops at opens
      cases opens
      exact .late starts

theorem leads_grouped (inner : Script) : Leads (grouped inner) (some '(') :=
  ((leads_of .token rfl).more (by simp) _).more (by simp) _

theorem leads_operand {e : Expr} (leads : Leads s first) (least : Nat) :
    Leads (operand e s least) (operandOpening e first least) := by
  unfold operand operandOpening
  split
  · exact leads_grouped s
  · exact leads

theorem leads_className {e : Expr} (leads : Leads s first) :
    Leads (className e s) (classOpening e first) := by
  unfold className classOpening
  cases e.name? with
  | some name => exact leads_text name
  | none => exact leads

theorem leads_literal (kind : LiteralKind) (value : String) (pos : Position) :
    Leads (literal kind value pos) (literalOpening kind value) := by
  have quoted (t : String) : Leads (text (quote t)) (some '\'') :=
    leads_of .emit (by simp [quote])
  cases kind with
  | bool | int | double | constant => exact leads_text _
  | string | char => exact quoted _
  | istring => exact leads_fail _

theorem leads_call (function : String) (args : List Script) :
    Leads (call function args) (function.toList.head?.or (some '(')) := by
  have opened : Leads (text function ++ opIn "(" "call")
      (function.toList.head?.or (some '(')) := (leads_text function).or rfl
  have parts : call function args =
      text function ++ opIn "(" "call" ++ (commas args ++ op ")") := by
    simp only [call, arguments, append_assoc]
  rw [parts]
  exact opened.more (by simp) _

theorem leads_access {kind : AccessKind} {object member : Expr} {memberScript : Script}
    {pos : Position} (leads : Leads s first) :
    Leads (access kind object member s memberScript pos) (accessOpening kind object first) := by
  cases kind with
  | element =>
      have opened : Leads (operand object s primaryLevel ++ opIn "[" "index")
          ((operandOpening object first primaryLevel).or (some '[')) :=
        (leads_operand leads primaryLevel).or rfl
      have parts : access .element object member s memberScript pos =
          operand object s primaryLevel ++ opIn "[" "index" ++ (memberScript ++ op "]") := by
        simp only [access, indexed, append_assoc]
      rw [parts]
      exact opened.more (by simp) _
  | property | dynamicProperty =>
      exact ((leads_operand leads primaryLevel).or rfl).more (by simp) _
  | stringProperty => exact leads_fail _
  | staticProperty | classConstant =>
      exact ((leads_className leads).or rfl).more (by simp) _

theorem leads_issetAccess {kind : AccessKind} {object member : Expr} (memberScript : Script)
    {pos : Position} : Leads (issetAccess kind object member s memberScript pos)
      (issetOpening (.access kind object member)) := by
  cases kind with
  | element | property | dynamicProperty | staticProperty => exact leads_call _ _
  | stringProperty | classConstant => exact leads_fail _

theorem leads_isset (e : Expr) : Leads (isset e) (issetOpening e.kind) := by
  obtain ⟨kind, pos, _, _⟩ := e
  cases kind with
  | access kind object member =>
      rw [isset]
      exact leads_issetAccess _
  | var name =>
      rw [isset]
      exact leads_call _ _
  | _ =>
      rw [isset] <;> first | exact leads_fail _ | simp

theorem leads_unary {op : UnaryOp} {inner : Expr} {pos : Position} (notIsset : op ≠ .isset) :
    Leads (unary op inner s pos) (unaryOpening op inner) := by
  cases op with
  | isset => contradiction
  | typeOf => exact leads_call _ _
  | group => exact leads_grouped s
  | clone | require => exact (leads_word rfl).more (by simp) _
  | not | bitNot | minus | plus => exact (leads_of .token rfl).more (by simp) _
  | empty | likely | unlikely => exact leads_fail _

mutual

theorem leads_expr : (e : Expr) → Leads (expr e) (opening e)
  | ⟨kind, pos, _, _⟩ => by
      rw [expr, opening]
      exact leads_exprKind pos kind

theorem leads_exprKind (pos : Position) : (kind : ExprKind) →
    Leads (exprKind pos kind) (openingKind kind)
  | .null => by
      rw [exprKind, openingKind]
      exact leads_text _
  | .literal kind value => by
      rw [exprKind, openingKind]
      exact leads_literal kind value pos
  | .emptyArray => by
      rw [exprKind, openingKind]
      exact leads_bracket.more (by simp) _
  | .array entries => by
      rw [exprKind, openingKind]
      exact (leads_bracket.more (by simp) _).more (by simp) _
  | .var name => by
      rw [exprKind, openingKind]
      exact leads_of .emit (by simp [dollar])
  | .access kind object member => by
      rw [exprKind, openingKind]
      exact leads_access (leads_expr object)
  | .call name callType arguments => by
      rw [exprKind, openingKind]
      exact leads_call _ _
  | .methodCall receiver name callType arguments => by
      rw [exprKind, openingKind]
      exact ((leads_operand (leads_expr receiver) primaryLevel).or rfl).more
        (by simp) _
  | .staticCall callee arguments => by
      rw [exprKind, openingKind]
      exact ((leads_text _).or rfl).more (by simp) _
  | .new name dynamic arguments => by
      rw [exprKind, openingKind]
      exact (leads_word rfl).more (by simp) _
  | .newType typeName arguments => by
      rw [exprKind]
      exact leads_fail _
  | .unary op operand => by
      rw [openingKind]
      by_cases isIsset : op = .isset
      · subst isIsset
        rw [exprKind]
        exact leads_isset operand
      · rw [exprKind]
        · exact leads_unary isIsset
        · exact isIsset
  | .binary op left right => by
      obtain ⟨c, starts⟩ : ∃ c, op.php.toList.head? = some c := by cases op <;> exact ⟨_, rfl⟩
      rw [exprKind, openingKind, starts]
      exact ((leads_operand (leads_expr left) (leftLevel op)).or starts).more
        (by simp) _
  | .instanceOf value name => by
      rw [exprKind, openingKind]
      exact ((leads_operand (leads_expr value) unaryLevel).or rfl).more
        (by simp) _
  | .range kind low high => by
      rw [exprKind]
      exact leads_fail _
  | .ternary condition yes no => by
      rw [exprKind, openingKind]
      have first : Leads (operand condition (expr condition) (ternaryLevel + 1)) _ :=
        leads_operand (leads_expr condition) _
      exact (((first.or rfl).more (by simp) _).more (by simp) _).more (by simp) _
  | .cast typeName operand => by
      rw [exprKind, openingKind]
      exact (leads_word (by simp)).more (by simp) _
  | .typeHint hint operand => by
      rw [exprKind]
      exact leads_fail _
  | .fetch target source => by
      rw [exprKind]
      exact leads_fail _
  | .closure params body locals => by
      rw [exprKind, openingKind]
      exact ((leads_word rfl).more (by simp) _).more (by simp) _
  | .closureArrow parameter body => by
      rw [exprKind]
      exact leads_fail _

end

theorem prefix_text_iff (sign : Sign) (t : String) :
    sign.text.toList <+: t.toList ↔ t.toList.head? = some sign.char := by
  have single : sign.text.toList = [sign.char] := by simp [Sign.text]
  rw [single]
  cases t.toList with
  | nil => simp
  | cons c rest =>
      rw [List.cons_prefix_cons, List.head?_cons, Option.some_inj]
      exact ⟨fun starts => starts.1.symm, fun same => ⟨same.symm, List.nil_prefix⟩⟩

/-- The sign that the generator sees is one that the operand brings itself. -/
theorem leadsWith_iff (e : Expr) (sign : Sign) :
    leadsWith e sign.text = true ↔ opening e = some sign.char ∧ isSigned e.kind = true := by
  obtain ⟨kind, pos, _, _⟩ := e
  cases kind with
  | literal kind value =>
      cases kind <;> simp [leadsWith, opening, openingKind, literalOpening, isSigned,
        prefix_text_iff]
  | unary op inner =>
      cases op <;> cases sign <;> simp [leadsWith, opening, openingKind, unaryOpening,
        UnaryOp.sign?, isSigned, Sign.text, Sign.char]
  | _ => simp [leadsWith, isSigned]

theorem expr_before {e : Expr} (sign : Sign) (pos : Position)
    (tight : unaryLevel ≤ level e.kind) :
    expr (sign.before e pos) = of [.token sign.text none (some false)] ++ sign.operand e := by
  have bare : operand e (expr e) unaryLevel = expr e := if_neg (by omega)
  cases sign <;>
    simp only [Sign.before, Expr.plain, Sign.op, expr, exprKind, unary, UnaryOp.sign?,
      unaryFormLevel, bare] <;> rfl

variable {layout : Layout} {e : Expr} {sign : Sign}

theorem fault_expr (layout : Layout) (e : Expr) :
    (Emitter.run layout {} (expr e).ops).fault = none :=
  have piece : Piece (fun _ => True) (expr e) := piece_expr e fun _ _ => trivial
  (piece.level layout {}).1

theorem exprText_of_whole (whole : (expr e).failure = none) :
    exprText layout e = .ok (opsText layout (expr e).ops) := by
  rw [exprText, fault_expr, whole]

theorem starts_exprText (layout : Layout) {c : Char} (ink : isBlank c = false)
    (whole : (expr e).failure = none) :
    [c] <+: (opsText layout (expr e).ops).toList ↔ opening e = some c := by
  have opens := leads_expr e whole
  have calm := fault_expr layout e
  cases first : opening e with
  | none =>
      rw [first] at opens
      generalize (expr e).ops = ops at opens
      cases opens
      have empty : opsText layout [.emit ""] = "" := rfl
      simp [empty]
  | some d =>
      rw [first] at opens
      obtain ⟨_, rfl | ⟨-, filled, -⟩, begun⟩ := opens.firstLine ⟨rfl, by simp, .inl rfl⟩ calm
      · rw [opsText, prefix_joinLines_iff begun (by simpa using ink) (by simp)]
        simp [eq_comm]
      · contradiction

theorem close_sign (sign : Sign) :
    Close (({} : Emitter).push sign.text none (some false) false) :=
  ⟨rfl, by simp [push], .inr rfl⟩

theorem isBlank_sign (sign : Sign) : isBlank sign.char = false := by
  cases sign <;> decide

/-- Behind a sign the first character of the operand is the second one of the text, unless it is
that of an operator and a blank comes between. -/
theorem firstLine_behind {ops : List Op} {c : Char} (opens : Opens (some c) ops)
    (calm : (Emitter.run layout {} (.token sign.text none (some false) :: ops)).fault = none) :
    ∃ d, (d = c ∨ isBlank d = true ∧ (ops.head? = some (.emit "") ∨ c = '[')) ∧
      ([sign.char, sign.char] <+:
        (opsText layout (.token sign.text none (some false) :: ops)).toList ↔
          d = sign.char) := by
  have line : (({} : Emitter).push sign.text none (some false) false).line.toList =
      [sign.char] := by
    simp [push, Sign.text]
  have filled : ∀ c ∈ [sign.char, sign.char], isBlank c = false := by simp [isBlank_sign]
  obtain ⟨d, next, begun⟩ := opens.firstLine (close_sign sign) calm
  refine ⟨d, next.imp_right fun blank => ⟨blank.1, blank.2.2⟩, ?_⟩
  rw [line] at begun
  refine (prefix_joinLines_iff begun filled rfl).trans ?_
  simp [eq_comm]

theorem opening_eq (e : Expr) : opening e = openingKind e.kind := by
  obtain ⟨kind, pos, _, _⟩ := e
  rw [opening]

def Firm (first : Option Char) : Prop :=
  ∃ c, first = some c ∧ ∀ sign : Sign, c ≠ sign.char

theorem firm_some {c : Char} (other : ∀ sign : Sign, c ≠ sign.char) : Firm (some c) :=
  ⟨c, rfl, other⟩

theorem Firm.or (firm : Firm first) (second : Option Char) : Firm (first.or second) := by
  obtain ⟨c, rfl, other⟩ := firm
  exact ⟨c, rfl, other⟩

theorem firm_identifier {name : String} (identifier : isIdentifier name) :
    Firm name.toList.head? := by
  unfold isIdentifier at identifier
  split at identifier
  · contradiction
  · rename_i c rest letters
    simp only [Bool.and_eq_true] at identifier
    refine ⟨c, by simp [letters], ?_⟩
    rintro sign rfl
    exact absurd identifier.1.1 (by cases sign <;> decide)

theorem firm_numeral {numeral : String} (plain : isNumeral numeral) :
    Firm numeral.toList.head? := by
  unfold isNumeral at plain
  split at plain
  · rename_i letters
    exact ⟨'.', by simp [letters], by rintro (_ | _) <;> decide⟩
  · rename_i c rest _ letters
    refine ⟨c, by simp [letters], ?_⟩
    rintro sign rfl
    exact absurd plain (by cases sign <;> decide)
  · contradiction

theorem firm_name {dynamic : Bool} {name : String} (plain : dynamic = false → isIdentifier name) :
    Firm (nameText dynamic name).toList.head? := by
  cases dynamic with
  | false => exact firm_identifier (plain rfl)
  | true => exact ⟨'$', by simp [nameText, dollar], by rintro (_ | _) <;> decide⟩

/-- An expression starts with something, and if it needs no parentheses behind a sign, then with no
sign unless it is a sign with its operand. -/
structure Settled (kind : ExprKind) : Prop where
  filled : openingKind kind ≠ none
  firm : unaryLevel ≤ level kind → (∃ sign inner, kind = .unary (Sign.op sign) inner) ∨
    Firm (openingKind kind)

theorem Settled.of_firm {kind : ExprKind} (firm : Firm (openingKind kind)) : Settled kind := by
  refine ⟨?_, fun _ => .inr firm⟩
  obtain ⟨c, starts, -⟩ := firm
  simp [starts]

theorem Settled.receiver {e : Expr} (settled : Settled e.kind) :
    Firm (operandOpening e (opening e) primaryLevel) := by
  unfold operandOpening
  split
  · exact firm_some (by rintro (_ | _) <;> decide)
  · rename_i tight
    have asTight : unaryLevel ≤ level e.kind := by
      simp only [unaryLevel, primaryLevel] at *
      omega
    rw [opening_eq]
    rcases settled.firm asTight with ⟨sign, inner, same⟩ | firm
    · rw [same] at tight
      cases sign <;> simp [level, Sign.op, unaryFormLevel, unaryLevel, primaryLevel] at tight
    · exact firm

theorem Settled.of_loose {kind : ExprKind} (filled : openingKind kind ≠ none)
    (loose : level kind < unaryLevel) : Settled kind :=
  ⟨filled, fun tight => by omega⟩

theorem Settled.operand {e : Expr} (settled : Settled e.kind) (least : Nat)
    (second : Option Char) : (operandOpening e (opening e) least).or second ≠ none := by
  have filled := settled.filled
  unfold operandOpening
  rw [opening_eq]
  split <;> simp [filled]

/-- Plain names and numerals start with no sign. So the leftmost spine ends in one only if it is a
sign with its operand, and any form above that would have put it in parentheses. -/
theorem settled_of_plain {kind : ExprKind} (plain : Plain kind) : Settled kind := by
  have noSign : ∀ c ∈ ['N', '\'', '[', '$', 'n', '(', 'c', 'z', 'i', '!', '~'],
      ∀ sign : Sign, c ≠ sign.char := by
    rintro c among (_ | _) rfl <;> exact absurd among (by decide)
  have known {c : Char} (among : c ∈ ['N', '\'', '[', '$', 'n', '(', 'c', 'z', 'i', '!', '~']) :
      Firm (some c) := firm_some (noSign c among)
  induction plain with
  | null => exact .of_firm (known (by decide))
  | bool identifier => exact .of_firm (firm_identifier identifier)
  | int numeral => exact .of_firm (firm_numeral numeral)
  | double numeral => exact .of_firm (firm_numeral numeral)
  | string | char => exact .of_firm (known (by decide))
  | constant identifier => exact .of_firm (firm_identifier identifier)
  | emptyArray => exact .of_firm (known (by decide))
  | array => exact .of_firm (known (by decide))
  | var => exact .of_firm (known (by decide))
  | element _ _ object => exact .of_firm (object.receiver.or _)
  | property _ _ _ object => exact .of_firm (object.receiver.or _)
  | computedProperty _ _ _ object => exact .of_firm (object.receiver.or _)
  | dynamicProperty _ _ object => exact .of_firm (object.receiver.or _)
  | @staticMember kind object member className name static named identifier =>
      have firm : Firm (classOpening object (opening object)) := by
        rw [classOpening, named]
        exact firm_identifier identifier
      cases kind with
      | staticProperty | classConstant => exact .of_firm (firm.or _)
      | _ => contradiction
  | call identifier =>
      exact .of_firm ((firm_name fun static => identifier (by simpa using static)).or _)
  | methodCall _ _ _ receiver => exact .of_firm (receiver.receiver.or _)
  | staticCall identifier => exact .of_firm ((firm_name identifier).or _)
  | new => exact .of_firm (known (by decide))
  | group => exact .of_firm (known (by decide))
  | @sign op inner isSign =>
      cases op with
      | not | bitNot => exact .of_firm (known (by decide))
      | minus => exact ⟨by simp [openingKind, unaryOpening, UnaryOp.sign?],
          fun _ => .inl ⟨.minus, inner, rfl⟩⟩
      | plus => exact ⟨by simp [openingKind, unaryOpening, UnaryOp.sign?],
          fun _ => .inl ⟨.plus, inner, rfl⟩⟩
      | _ => contradiction
  | clone => exact .of_firm (known (by decide))
  | typeOf => exact .of_firm (known (by decide))
  | issetVar same | issetElement same | issetProperty same | issetDynamicProperty same
  | issetStaticProperty same =>
      refine .of_firm ?_
      rw [openingKind, unaryOpening, same]
      exact known (by decide)
  | @binary op left right _ _ settled =>
      have loose : binaryLevel op < unaryLevel := by cases op <;> decide
      exact .of_loose (settled.operand _ _) loose
  | instanceOf _ _ _ value =>
      exact .of_loose (value.operand _ _) (by simp [level, unaryLevel])
  | ternary _ _ _ condition =>
      exact .of_loose (condition.operand _ _) (by simp [level, ternaryLevel, unaryLevel])
  | cast => exact .of_firm (known (by decide))

theorem failure_operand (sign : Sign) (whole : (expr e).failure = none) :
    (sign.operand e).failure = none := by
  unfold Sign.operand
  split
  · simp [grouped, whole, of]
  · exact whole

theorem ops_before (sign : Sign) (pos : Position)
    (tight : unaryLevel ≤ level e.kind) :
    (expr (sign.before e pos)).ops =
      .token sign.text none (some false) :: (sign.operand e).ops := by
  rw [expr_before sign pos tight, append_of_whole _ rfl]
  rfl

theorem exprText_before (sign : Sign) (pos : Position)
    (tight : unaryLevel ≤ level e.kind) (whole : (expr e).failure = none) :
    exprText layout (sign.before e pos) = .ok (opsText layout
      (.token sign.text none (some false) :: (sign.operand e).ops)) := by
  rw [← ops_before sign pos tight, exprText_of_whole]
  rw [expr_before sign pos tight, failure_append]
  exact ⟨rfl, failure_operand sign whole⟩

theorem opsText_sign (sign : Sign) :
    opsText layout [.token sign.text none (some false), .emit ""] = sign.text ++ "\n" := by
  have inked : trimEnd sign.text = sign.text := by cases sign <;> rfl
  have filled : sign.text ≠ "" := by simp [Sign.text]
  simp [opsText, Emitter.run, step, push, Outcome.lines, flush, indentation_zero, Event.line?,
    joinLines, String.join, inked, filled]

/-- Two signs in a row come of an operand that starts with the sign and is not grouped. -/
theorem opening_of_fused (pos : Position)
    (tight : unaryLevel ≤ level e.kind) (whole : (expr e).failure = none)
    (fused : [sign.char, sign.char] <+: (opsText layout
      (.token sign.text none (some false) :: (sign.operand e).ops)).toList) :
    opening e = some sign.char ∧ leadsWith e sign.text = false := by
  have calm := fault_expr layout (sign.before e pos)
  rw [ops_before sign pos tight] at calm
  have only {first : Option Char} (leads : Leads (sign.operand e) first) :
      first = some sign.char := by
    have opens := leads (failure_operand sign whole)
    cases first with
    | none =>
        generalize (sign.operand e).ops = ops at opens fused
        cases opens
        rw [opsText_sign] at fused
        exact absurd fused (by cases sign <;> decide)
    | some c =>
        obtain ⟨d, rfl | ⟨blank, -⟩, same⟩ := firstLine_behind opens calm
        · rw [same.mp fused]
        · rw [same.mp fused, isBlank_sign] at blank
          contradiction
  by_cases seen : leadsWith e sign.text = true
  · have grouped : Leads (sign.operand e) (some '(') := by
      rw [Sign.operand, if_pos seen]
      exact leads_grouped _
    exact absurd (only grouped) (by cases sign <;> decide)
  · refine ⟨only ?_, by simpa using seen⟩
    rw [Sign.operand, if_neg seen]
    exact leads_expr e

theorem fused_of_opening (pos : Position)
    (tight : unaryLevel ≤ level e.kind) (whole : (expr e).failure = none)
    (starts : opening e = some sign.char) (unseen : leadsWith e sign.text = false)
    (spoken : (expr e).ops.head? ≠ some (.emit "")) :
    [sign.char, sign.char] <+: (opsText layout
      (.token sign.text none (some false) :: (sign.operand e).ops)).toList := by
  have calm := fault_expr layout (sign.before e pos)
  rw [ops_before sign pos tight] at calm
  have bare : sign.operand e = expr e := by simp [Sign.operand, unseen]
  have opens := leads_expr e whole
  rw [starts] at opens
  rw [bare] at calm ⊢
  obtain ⟨d, rfl | ⟨-, silent | bracket⟩, same⟩ := firstLine_behind opens calm
  · exact same.mpr rfl
  · exact absurd silent spoken
  · exact absurd bracket (by cases sign <;> decide)

theorem isSigned_of_plain (plain : Plain e.kind)
    (tight : unaryLevel ≤ level e.kind) (starts : opening e = some sign.char) :
    isSigned e.kind = true := by
  rw [opening_eq] at starts
  rcases (settled_of_plain plain).firm tight with ⟨other, inner, same⟩ | ⟨c, firm, noSign⟩
  · rw [same]
    cases other <;> rfl
  · rw [starts, Option.some_inj] at firm
    exact absurd firm.symm (noSign sign)

/-- Under any layout, the generator sees that an operand starts with the sign exactly if it is a
sign or a number itself. The sign of any other operand, as that of a number with an index, and the
one in front of it run into each other, unless an empty name or literal stands between them. Among
plain expressions, whose numerals have no sign, there is no such operand, and signs are kept
apart. -/
theorem own_signs_stay_apart (layout : Layout) (e : Expr) (sign : Sign) (pos : Position)
    (tight : unaryLevel ≤ level e.kind) (whole : (expr e).failure = none) :
    ∃ text signed, exprText layout e = .ok text ∧
      exprText layout (sign.before e pos) = .ok signed ∧
      ([sign.char] <+: text.toList ↔ opening e = some sign.char) ∧
      (leadsWith e sign.text = true ↔ [sign.char] <+: text.toList ∧ isSigned e.kind = true) ∧
      ([sign.char, sign.char] <+: signed.toList →
        [sign.char] <+: text.toList ∧ isSigned e.kind = false) ∧
      ([sign.char] <+: text.toList → isSigned e.kind = false →
        (expr e).ops.head? ≠ some (.emit "") → [sign.char, sign.char] <+: signed.toList) ∧
      (Plain e.kind → (leadsWith e sign.text = true ↔ [sign.char] <+: text.toList) ∧
        ¬[sign.char, sign.char] <+: signed.toList) := by
  have starts := starts_exprText layout (isBlank_sign sign) whole
  have seen := leadsWith_iff e sign
  rw [← starts] at seen
  have fused : [sign.char, sign.char] <+: (opsText layout
      (.token sign.text none (some false) :: (sign.operand e).ops)).toList →
      [sign.char] <+: (opsText layout (expr e).ops).toList ∧ isSigned e.kind = false := by
    intro fused
    obtain ⟨opened, unseen⟩ := opening_of_fused pos tight whole fused
    have leads := starts.mpr opened
    refine ⟨leads, ?_⟩
    rw [← Bool.not_eq_true] at unseen ⊢
    exact fun own => unseen (seen.mpr ⟨leads, own⟩)
  refine ⟨_, _, exprText_of_whole whole, exprText_before sign pos tight whole, starts, seen, fused,
    ?_, ?_⟩
  · intro leads foreign spoken
    refine fused_of_opening pos tight whole (starts.mp leads) ?_ spoken
    rw [← Bool.not_eq_true, seen]
    simp [foreign]
  · intro plain
    have own := fun leads => isSigned_of_plain plain tight (starts.mp leads)
    refine ⟨seen.trans ⟨And.left, fun leads => ⟨leads, own leads⟩⟩, fun twice => ?_⟩
    obtain ⟨leads, foreign⟩ := fused twice
    simp [own leads] at foreign

def negativeSample : Expr :=
  .plain (.literal .int "-5") {}

def indexSample : Expr :=
  .plain (.access .element negativeSample (.plain (.literal .int "0") {})) {}

/-- A minus is kept apart from the sign of a number, and runs into it where the number has an
index. -/
theorem samples_signed :
    (unaryLevel ≤ level negativeSample.kind ∧ (expr negativeSample).failure = none) ∧
    (unaryLevel ≤ level indexSample.kind ∧ (expr indexSample).failure = none) ∧
    leadsWith negativeSample "-" = true ∧ leadsWith indexSample "-" = false ∧
    (∃ text signed, exprText .standard negativeSample = .ok text ∧
      exprText .standard (Sign.minus.before negativeSample {}) = .ok signed ∧
      ['-'] <+: text.toList ∧ ¬['-', '-'] <+: signed.toList) ∧
    ∃ text signed, exprText .standard indexSample = .ok text ∧
      exprText .standard (Sign.minus.before indexSample {}) = .ok signed ∧
      ['-'] <+: text.toList ∧ ['-', '-'] <+: signed.toList := by
  have tight : (unaryLevel ≤ level negativeSample.kind ∧ (expr negativeSample).failure = none) ∧
      (unaryLevel ≤ level indexSample.kind ∧ (expr indexSample).failure = none) := by
    decide +kernel
  have openings : opening negativeSample = some '-' ∧ opening indexSample = some '-' := by
    decide +kernel
  obtain ⟨text, signed, shown, shownSigned, starts, seen, apart, -⟩ :=
    own_signs_stay_apart .standard negativeSample .minus {} tight.1.1 tight.1.2
  obtain ⟨textIndexed, signedIndexed, shownIndexed, shownSignedIndexed, startsIndexed,
      seenIndexed, -, fuses, -⟩ :=
    own_signs_stay_apart .standard indexSample .minus {} tight.2.1 tight.2.2
  have leads := starts.mpr openings.1
  have leadsIndexed := startsIndexed.mpr openings.2
  refine ⟨tight.1, tight.2, seen.mpr ⟨leads, rfl⟩, ?_,
    ⟨text, signed, shown, shownSigned, leads, ?_⟩,
    textIndexed, signedIndexed, shownIndexed, shownSignedIndexed, leadsIndexed, ?_⟩
  · rw [← Bool.not_eq_true]
    intro found
    exact absurd (seenIndexed.mp found).2 (by decide)
  · intro fused
    exact absurd (apart fused).2 (by decide)
  · exact fuses leadsIndexed rfl (by decide +kernel)

end Php

end Zephir
