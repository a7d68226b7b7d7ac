import Mathlib.Data.List.Forall2
import Zephir.Proofs.Php.Plain

/-!
Parentheses preserve meaning: the tokens printed for a plain expression, read back over the
operator table of PHP, give the expression that the tree stands for.

What is printed for an expression is read back up to the operators that may follow it
(`ReadsBack`). The printer's levels and the reader's rows meet in the lemmas on operands.
-/

namespace Zephir.Php

open Script

/-- The tokens after an expression whose operators are all in row `least` or tighter: nothing
trails its last operand, and an operator that follows is in a looser row. -/
def Ends (least : Nat) : List Token → Prop
  | [] => True
  | token :: _ =>
    token.trailer? = none ∧ ∀ operator, token.operator? = some operator → operator.row < least

theorem Ends.mono {least other : Nat} {rest : List Token} (ends : Ends least rest)
    (looser : least ≤ other) : Ends other rest := by
  cases rest with
  | nil => trivial
  | cons token rest =>
      refine ⟨ends.1, ?_⟩
      intro operator found
      have below := ends.2 operator found
      omega

theorem ends_symbol (text : String) (least : Nat) (rest : List Token)
    (noTrailer : Token.trailer? (.symbol text) = none)
    (noOperator : Token.operator? (.symbol text) = none) :
    Ends least (.symbol text :: rest) := by
  refine ⟨noTrailer, ?_⟩
  intro operator found
  rw [noOperator] at found
  contradiction

theorem Ends.of_lead {op : UnaryOp} {rest : List Token} (ends : Ends (leadRow op + 1) rest) :
    Ends (leadRow op) rest := by
  cases rest with
  | nil => trivial
  | cons token rest =>
      refine ⟨ends.1, ?_⟩
      intro operator found
      have below := ends.2 operator found
      have apart : operator.row ≠ leadRow op := by
        cases operator with
        | binary kind => cases kind <;> cases op <;> decide
        | instanceOf => cases op <;> decide
        | ternary => cases op <;> decide
      omega

theorem Ends.noArguments {least : Nat} {rest : List Token} (ends : Ends least rest) :
    expect "(" rest = none := by
  cases rest with
  | nil => rfl
  | cons token rest =>
      cases token with
      | symbol text =>
          by_cases opens : text = "("
          · subst opens
            have trails := ends.1
            contradiction
          · simp [expect, opens]
      | _ => rfl

theorem readTrailers_ends {least : Nat} {rest : List Token} (term : Term)
    (ends : Ends least rest) : readTrailers term rest = some (term, rest) := by
  cases rest with
  | nil => rw [readTrailers]
  | cons token rest => rw [readTrailers, ends.1]

theorem readOperators_ends {least : Nat} {rest : List Token} (most : Nat) (term : Term)
    (ends : Ends least rest) : readOperators least most term rest = some (term, rest) := by
  cases rest with
  | nil => rw [readOperators]
  | cons token rest =>
      rw [readOperators]
      cases found : token.operator? with
      | none => rfl
      | some operator =>
          have below := ends.2 operator found
          have outside : ¬(least ≤ operator.row ∧ operator.row ≤ most) := by omega
          simp only [outside, if_false]

theorem readOperators_operator {least most : Nat} {token : Token} {operator : Operator}
    {left term : Term} {tokens rest : List Token}
    (found : token.operator? = some operator) (fits : least ≤ operator.row)
    (allowed : operator.row ≤ most) (right : readRight operator left tokens = some (term, rest))
    (fewer : rest.length ≤ tokens.length) :
    readOperators least most left (token :: tokens) =
      readOperators least operator.limit term rest := by
  rw [readOperators, found]
  simp only [fits, allowed, and_self, if_true, right, andThen_some fewer]

/-- The tightest row that may follow what was printed at a level. -/
def ceiling (level : Nat) : Nat :=
  match level with
  | 1 => 0
  | 7 => 6
  | 8 => 7
  | 13 => tightest
  | 14 => 13
  | 15 => tightest
  | level => level

/-- A script at a level is read back as a term, whatever follows it. At the level of primaries this
leaves trailers to be read, but no arguments, since these would turn a property into a method; at
any level it leaves the operators that may follow. -/
structure ReadsBack (s : Script) (level : Nat) (term : Term) : Prop where
  accepted : s.failure = none
  primary : level = primaryLevel → ∀ rest, expect "(" rest = none →
    readOperand (s.tokens ++ rest) = readTrailers term rest
  expr : ∀ least rest, least ≤ level → Ends (level + 1) rest →
    readExpr least (s.tokens ++ rest) = readOperators least (ceiling level) term rest

namespace ReadsBack

variable {s : Script} {printed : Nat} {term : Term}

theorem whole (reads : ReadsBack s printed term) {least : Nat} {rest : List Token}
    (fits : least ≤ printed) (ends : Ends least rest) :
    readExpr least (s.tokens ++ rest) = some (term, rest) := by
  rw [reads.expr least rest fits (ends.mono (by omega))]
  exact readOperators_ends _ _ ends

theorem ofPrimary (accepted : s.failure = none)
    (operand : ∀ rest, expect "(" rest = none →
      readOperand (s.tokens ++ rest) = readTrailers term rest) :
    ReadsBack s primaryLevel term := by
  refine ⟨accepted, fun _ => operand, ?_⟩
  intro least rest _ ends
  rw [readExpr, operand rest ends.noArguments, readTrailers_ends term ends, andThen_some (by simp)]
  rfl

theorem ofLead {lead : Nat} (isLead : lead = 13 ∨ lead = 15) (accepted : s.failure = none)
    (operand : ∀ rest, Ends (lead + 1) rest →
      readOperand (s.tokens ++ rest) = some (term, rest)) :
    ReadsBack s lead term := by
  refine ⟨accepted, ?_, ?_⟩
  · intro same
    have differs : primaryLevel = 16 := rfl
    omega
  · intro least rest _ ends
    rw [readExpr, operand rest ends, andThen_some (by simp)]
    rcases isLead with rfl | rfl <;> rfl

end ReadsBack

theorem tokens_grouped {inner : Script} (accepted : inner.failure = none) :
    (grouped inner).tokens = .symbol "(" :: (inner.tokens ++ [.symbol ")"]) := by
  unfold grouped
  rw [tokens_append (by simp [of, accepted]), tokens_append (by simp [of])]
  rfl

theorem ReadsBack.grouped {s : Script} {printed : Nat} {term : Term}
    (reads : ReadsBack s printed term) : ReadsBack (grouped s) primaryLevel term := by
  apply ofPrimary
  · simp [Script.grouped, of, reads.accepted]
  · intro rest _
    have inner := reads.whole (Nat.zero_le printed) (ends_symbol ")" 0 rest rfl rfl)
    rw [tokens_grouped reads.accepted, List.cons_append, List.append_assoc, readOperand]
    simp only [Token.opening?, List.singleton_append, inner, closed_some]
    exact andThen_some (by simp; omega)

theorem binaryLevel_le (op : BinaryOp) : binaryLevel op ≤ 12 := by
  cases op <;> decide

theorem leftLevel_le (op : BinaryOp) : leftLevel op ≤ 12 := by
  cases op <;> decide

theorem unaryFormLevel_le (op : UnaryOp) : unaryFormLevel op ≤ primaryLevel := by
  cases op <;> decide

theorem level_le (kind : ExprKind) : level kind ≤ primaryLevel := by
  cases kind with
  | binary op left right =>
      have bound := binaryLevel_le op
      simp only [level, primaryLevel]
      omega
  | unary op inner => exact unaryFormLevel_le op
  | _ => simp [level, ternaryLevel, unaryLevel, primaryLevel]

def operandLevel (e : Expr) (least : Nat) : Nat :=
  if level e.kind < least then primaryLevel else level e.kind

theorem le_operandLevel (e : Expr) {least : Nat} (bound : least ≤ primaryLevel) :
    least ≤ operandLevel e least := by
  unfold operandLevel
  split
  · exact bound
  · omega

theorem operandLevel_le (e : Expr) (least : Nat) : operandLevel e least ≤ primaryLevel := by
  unfold operandLevel
  split
  · exact Nat.le_refl _
  · exact level_le e.kind

theorem ReadsBack.operand {e : Expr} {s : Script} {term : Term}
    (reads : ReadsBack s (level e.kind) term) (least : Nat) :
    ReadsBack (operand e s least) (operandLevel e least) term := by
  unfold Php.operand operandLevel
  split
  · exact reads.grouped
  · exact reads

theorem ReadsBack.receiver {e : Expr} {s : Script} {term : Term}
    (reads : ReadsBack s (level e.kind) term) :
    ReadsBack (Php.operand e s primaryLevel) primaryLevel term := by
  have lower := le_operandLevel e (Nat.le_refl primaryLevel)
  have upper := operandLevel_le e primaryLevel
  have printed : operandLevel e primaryLevel = primaryLevel := by omega
  have reads := reads.operand primaryLevel
  rwa [printed] at reads

theorem binaryLevel_le_ceiling (op : BinaryOp) {printed : Nat} (bound : printed ≤ primaryLevel)
    (fits : leftLevel op ≤ printed) : binaryLevel op ≤ ceiling printed := by
  have all : ∀ n : Fin 17, leftLevel op ≤ n → binaryLevel op ≤ ceiling n := by
    cases op <;> decide
  have small : printed < 17 := by
    simp only [primaryLevel] at bound
    omega
  exact all ⟨printed, small⟩ fits

theorem operator_php (op : BinaryOp) :
    Token.operator? (.symbol op.php) = some (.binary op) := by
  cases op <;> rfl

theorem trailer_php (op : BinaryOp) : Token.trailer? (.symbol op.php) = none := by
  cases op <;> rfl

theorem row_binary (op : BinaryOp) : Operator.row (.binary op) = binaryLevel op := by
  cases op <;> rfl

theorem limit_binary (op : BinaryOp) : Operator.limit (.binary op) = ceiling (binaryLevel op) := by
  cases op <;> rfl

theorem binaryLevel_le_leftLevel (op : BinaryOp) : binaryLevel op ≤ leftLevel op := by
  cases op <;> decide

theorem readsBack_binary (op : BinaryOp) {left right : Script} {leftPrinted rightPrinted : Nat}
    {leftTerm rightTerm : Term} (readsLeft : ReadsBack left leftPrinted leftTerm)
    (readsRight : ReadsBack right rightPrinted rightTerm)
    (leftFits : leftLevel op ≤ leftPrinted) (leftBound : leftPrinted ≤ primaryLevel)
    (rightFits : binaryLevel op + 1 ≤ rightPrinted) :
    ReadsBack (left ++ Script.op op.php ++ right) (binaryLevel op)
      (.binary op leftTerm rightTerm) := by
  have accepted : (left ++ Script.op op.php).failure = none := by
    simp [readsLeft.accepted, Script.op, of]
  have printed : (left ++ Script.op op.php ++ right).tokens =
      left.tokens ++ .symbol op.php :: right.tokens := by
    rw [tokens_append accepted, tokens_append readsLeft.accepted, List.append_assoc]
    simp [Script.op, of, Script.tokens, Op.tokens, scan_php]
  refine ⟨by simp [readsLeft.accepted, readsRight.accepted, Script.op, of], ?_, ?_⟩
  · intro same
    have bound := binaryLevel_le op
    simp only [primaryLevel] at same
    omega
  · intro least rest fits ends
    have chains := binaryLevel_le_leftLevel op
    have row := row_binary op
    have follows : Ends (leftPrinted + 1) (.symbol op.php :: (right.tokens ++ rest)) := by
      refine ⟨trailer_php op, ?_⟩
      intro operator found
      rw [operator_php op] at found
      cases found
      omega
    have readsRest : readRight (.binary op) leftTerm (right.tokens ++ rest) =
        some (.binary op leftTerm rightTerm, rest) := by
      rw [readRight, row, readsRight.whole rightFits ends]
      rfl
    rw [printed, List.append_assoc, List.cons_append,
      readsLeft.expr least _ (by omega) follows,
      readOperators_operator (operator_php op) (by omega)
        (row ▸ binaryLevel_le_ceiling op leftBound leftFits) readsRest (by simp), limit_binary]

/-- A script that is read back as an entry where neither an operator nor a double arrow follows. -/
structure ReadsEntry (s : Script) (entry : Entry) : Prop where
  accepted : s.failure = none
  whole : ∀ rest, Ends 0 rest → expect "=>" rest = none →
    readEntry (s.tokens ++ rest) = some (entry, rest)

theorem ReadsBack.value {s : Script} {printed : Nat} {term : Term}
    (reads : ReadsBack s printed term) : ReadsEntry s (.value term) := by
  refine ⟨reads.accepted, ?_⟩
  intro rest ends single
  rw [readEntry, reads.whole (Nat.zero_le printed) ends, andThen_some (by simp)]
  exact behind_eq_missing single

theorem ReadsBack.pair {key value : Script} {keyPrinted valuePrinted : Nat}
    {keyTerm valueTerm : Term} (readsKey : ReadsBack key keyPrinted keyTerm)
    (readsValue : ReadsBack value valuePrinted valueTerm) :
    ReadsEntry (key ++ op "=>" ++ value) (.pair keyTerm valueTerm) := by
  have accepted : (key ++ op "=>").failure = none := by simp [readsKey.accepted]
  refine ⟨by simp [accepted, readsValue.accepted], ?_⟩
  intro rest ends _
  have first := readsKey.whole (Nat.zero_le keyPrinted)
    (ends_symbol "=>" 0 (value.tokens ++ rest) rfl rfl)
  have second := readsValue.whole (Nat.zero_le valuePrinted) ends
  rw [tokens_append accepted, tokens_append readsKey.accepted, tokens_op, List.append_assoc,
    List.append_assoc]
  change readEntry (key.tokens ++ .symbol "=>" :: (value.tokens ++ rest)) = _
  rw [readEntry, first]
  simp [second]

theorem expect_eq_none {close : String} {tokens rest : List Token} {entry : Entry}
    (closes : Token.opening? (.symbol close) = none)
    (read : readEntry tokens = some (entry, rest)) : expect close tokens = none := by
  cases tokens with
  | nil => rfl
  | cons token tokens =>
      cases token with
      | symbol other =>
          by_cases same : other = close
          · subst same
            rw [readEntry, readExpr, readOperand, closes] at read
            contradiction
          · simp [expect, same]
      | _ => rfl

def isClosing (text : String) : Prop :=
  text = ")" ∨ text = "]"

theorem ends_entries {scripts : List Script} {entries : List Entry} {close : String}
    (closing : isClosing close) (reads : List.Forall₂ ReadsEntry scripts entries)
    (rest : List Token) :
    let tokens := (join (scripts.map (op "," ++ ·))).tokens ++ .symbol close :: rest
    Ends 0 tokens ∧ expect "=>" tokens = none := by
  cases reads with
  | nil => rcases closing with rfl | rfl <;> exact ⟨ends_symbol _ 0 rest rfl rfl, rfl⟩
  | cons next others =>
      simp only [List.map_cons, join]
      rw [tokens_append (by simp [next.accepted]), tokens_append rfl, tokens_op]
      exact ⟨ends_symbol "," 0 _ rfl rfl, rfl⟩

theorem readMoreEntries_join {scripts : List Script} {entries : List Entry} {close : String}
    (closing : isClosing close) (reads : List.Forall₂ ReadsEntry scripts entries)
    (rest : List Token) :
    (join (scripts.map (op "," ++ ·))).failure = none ∧
      readMoreEntries close ((join (scripts.map (op "," ++ ·))).tokens ++ .symbol close :: rest) =
        some (entries, rest) := by
  induction reads with
  | nil =>
      refine ⟨rfl, ?_⟩
      rw [readMoreEntries]
      exact behind_eq_present
  | @cons s entry scripts entries head tail ih =>
      obtain ⟨accepted, more⟩ := ih
      obtain ⟨ends, single⟩ := ends_entries closing tail rest
      have printed : (join ((s :: scripts).map (op "," ++ ·))).tokens =
          .symbol "," :: (s.tokens ++ (join (scripts.map (op "," ++ ·))).tokens) := by
        rw [List.map_cons, join, tokens_append (by simp [head.accepted]), tokens_append rfl]
        rfl
      have open_ : expect close (.symbol "," :: (s.tokens ++
          ((join (scripts.map (op "," ++ ·))).tokens ++ .symbol close :: rest))) = none := by
        rcases closing with rfl | rfl <;> rfl
      refine ⟨by simp [join, head.accepted, accepted], ?_⟩
      rw [printed, List.cons_append, List.append_assoc, readMoreEntries, behind_eq_missing open_,
        behind_eq_present, head.whole _ ends single, andThen_some (by simp), more]
      rfl

theorem readEntries_commas {scripts : List Script} {entries : List Entry} {close : String}
    (closing : isClosing close) (reads : List.Forall₂ ReadsEntry scripts entries)
    (rest : List Token) :
    (commas scripts).failure = none ∧
      readEntries close ((commas scripts).tokens ++ .symbol close :: rest) =
        some (entries, rest) := by
  cases reads with
  | nil =>
      refine ⟨rfl, ?_⟩
      rw [readEntries]
      exact behind_eq_present
  | @cons s entry scripts entries head tail =>
      obtain ⟨accepted, more⟩ := readMoreEntries_join closing tail rest
      obtain ⟨ends, single⟩ := ends_entries closing tail rest
      have first := head.whole _ ends single
      have starts : expect close (s.tokens ++ ((join (scripts.map (op "," ++ ·))).tokens ++
          .symbol close :: rest)) = none := by
        rcases closing with rfl | rfl <;> exact expect_eq_none rfl first
      refine ⟨by simp [commas, head.accepted, accepted], ?_⟩
      rw [commas, tokens_append head.accepted, List.append_assoc, readEntries,
        behind_eq_missing starts, first, andThen_some (by simp), more]
      rfl

theorem values?_map_value (terms : List Term) : values? (terms.map .value) = some terms := by
  induction terms with
  | nil => rfl
  | cons term terms ih => simp [values?, ih]

theorem readArguments_arguments {scripts : List Script} {terms : List Term}
    (reads : List.Forall₂ (fun s term => ReadsEntry s (.value term)) scripts terms) :
    (Script.arguments scripts).failure = none ∧ ∃ inner,
      (Script.arguments scripts).tokens = .symbol "(" :: inner ∧
        ∀ rest, readArguments (inner ++ rest) = some (terms, rest) := by
  have entries : List.Forall₂ ReadsEntry scripts (terms.map .value) :=
    List.forall₂_map_right_iff.mpr reads
  have accepted := (readEntries_commas (.inl rfl) entries []).1
  refine ⟨by simp [Script.arguments, accepted], (commas scripts).tokens ++ [.symbol ")"], ?_, ?_⟩
  · rw [Script.arguments, tokens_append (by simp [accepted]), tokens_append rfl]
    rfl
  · intro rest
    have read := (readEntries_commas (.inl rfl) entries rest).2
    rw [List.append_assoc, readArguments, List.singleton_append, read]
    simp [values?_map_value]

theorem readsBack_atom {text : String} {token : Token} {term : Term} (scanned : scan text = [token])
    (opens : token.opening? = some (.atom term)) :
    ReadsBack (Script.text text) primaryLevel term := by
  apply ReadsBack.ofPrimary (failure_text text)
  intro rest _
  rw [tokens_text, scanned, List.singleton_append, readOperand, opens]

theorem opening_identifier {text : String} (identifier : isIdentifier text) :
    Token.opening? (.name text) = some (.atom (.name text)) := by
  have free : text ∉ reserved := by
    unfold isIdentifier at identifier
    split at identifier
    · contradiction
    · simp_all
  simp only [reserved, List.mem_cons, List.not_mem_nil, or_false, not_or] at free
  simp [Token.opening?, free]

theorem readsBack_identifier {text : String} (identifier : isIdentifier text) :
    ReadsBack (Script.text text) primaryLevel (.name text) :=
  readsBack_atom (scan_identifier identifier) (opening_identifier identifier)

theorem readsBack_element {object member : Script} {printed : Nat} {objectTerm memberTerm : Term}
    (readsObject : ReadsBack object primaryLevel objectTerm)
    (readsMember : ReadsBack member printed memberTerm) :
    ReadsBack (object ++ indexed member) primaryLevel (.index objectTerm memberTerm) := by
  have inner : (indexed member).tokens = .symbol "[" :: (member.tokens ++ [.symbol "]"]) := by
    rw [indexed, tokens_append (by simp [readsMember.accepted]), tokens_append rfl]
    rfl
  apply ReadsBack.ofPrimary
  · simp [indexed, readsObject.accepted, readsMember.accepted]
  · intro rest _
    have position := readsMember.whole (Nat.zero_le printed) (ends_symbol "]" 0 rest rfl rfl)
    rw [tokens_append readsObject.accepted, inner, List.append_assoc, List.cons_append,
      List.append_assoc, readsObject.primary rfl _ rfl, readTrailers]
    simp only [Token.trailer?, List.singleton_append, position, closed_some]
    exact andThen_some (by simp; omega)

structure ReadsMember (s : Script) (member : Member) : Prop where
  accepted : s.failure = none
  whole : ∀ rest, readMember (s.tokens ++ rest) = some (member, rest)

theorem readsMember_named {name : String} (identifier : isIdentifier name) :
    ReadsMember (Script.text name) (.named name) := by
  refine ⟨failure_text name, ?_⟩
  intro rest
  rw [tokens_text, scan_identifier identifier, List.singleton_append, readMember]

theorem readsMember_variable (name : String) :
    ReadsMember (Script.text (dollar name)) (.variable name) := by
  refine ⟨failure_text _, ?_⟩
  intro rest
  rw [tokens_text, scan_dollar, List.singleton_append, readMember]

theorem readMember_braces {tokens rest : List Token} {term : Term}
    (inner : readExpr 0 (tokens ++ .symbol "\x7d" :: rest) = some (term, .symbol "\x7d" :: rest)) :
    readMember (.symbol "\x7b" :: (tokens ++ .symbol "\x7d" :: rest)) =
      some (.computed term, rest) := by
  rw [readMember]
  · simp [inner]
  all_goals simp

theorem ReadsBack.braced {s : Script} {printed : Nat} {term : Term}
    (reads : ReadsBack s printed term) : ReadsMember (braced s) (.computed term) := by
  refine ⟨by simp [Script.braced, reads.accepted], ?_⟩
  intro rest
  have inner := reads.whole (Nat.zero_le printed) (ends_symbol "\x7d" 0 rest rfl rfl)
  have printed : (Script.braced s).tokens =
      .symbol "\x7b" :: (s.tokens ++ [.symbol "\x7d"]) := by
    rw [Script.braced, tokens_append (by simp [reads.accepted]), tokens_append rfl]
    rfl
  rw [printed, List.cons_append, List.append_assoc]
  exact readMember_braces inner

theorem readsMember_quoted (name : String) :
    ReadsMember (Script.text ("\x7b" ++ quote name ++ "\x7d")) (.computed (.string name)) := by
  refine ⟨failure_text _, ?_⟩
  intro rest
  have atom : ReadsBack (Script.text (quote name)) primaryLevel (.string name) :=
    readsBack_atom (scan_quote name) rfl
  have inner := atom.whole (Nat.zero_le _) (ends_symbol "\x7d" 0 rest rfl rfl)
  rw [tokens_text, scan_quote] at inner
  rw [tokens_text, scan_braced_quote]
  exact readMember_braces inner

theorem readsBack_property {object memberScript : Script} {objectTerm : Term} {member : Member}
    (readsObject : ReadsBack object primaryLevel objectTerm)
    (readsMember : ReadsMember memberScript member) :
    ReadsBack (object ++ op "->" ++ memberScript) primaryLevel (.property objectTerm member) := by
  have accepted : (object ++ op "->").failure = none := by simp [readsObject.accepted]
  apply ReadsBack.ofPrimary
  · simp [accepted, readsMember.accepted]
  · intro rest noArguments
    rw [tokens_append accepted, tokens_append readsObject.accepted, List.append_assoc,
      List.append_assoc]
    change readOperand (object.tokens ++ .symbol "->" :: (memberScript.tokens ++ rest)) = _
    rw [readsObject.primary rfl _ rfl, readTrailers]
    simp [Token.trailer?, readsMember.whole, behind_eq_missing noArguments]

theorem readsBack_methodCall {object memberScript : Script} {scripts : List Script}
    {objectTerm : Term} {member : Member} {terms : List Term}
    (readsObject : ReadsBack object primaryLevel objectTerm)
    (readsMember : ReadsMember memberScript member)
    (readsArguments : List.Forall₂ (fun s term => ReadsEntry s (.value term)) scripts terms) :
    ReadsBack (object ++ op "->" ++ (memberScript ++ Script.arguments scripts)) primaryLevel
      (.methodCall objectTerm member terms) := by
  obtain ⟨acceptedArguments, inner, printed, read⟩ := readArguments_arguments readsArguments
  have accepted : (object ++ op "->").failure = none := by simp [readsObject.accepted]
  apply ReadsBack.ofPrimary
  · simp [accepted, readsMember.accepted, acceptedArguments]
  · intro rest _
    rw [tokens_append accepted, tokens_append readsObject.accepted,
      tokens_append readsMember.accepted, printed, List.append_assoc, List.append_assoc,
      List.append_assoc]
    change readOperand (object.tokens ++ .symbol "->" ::
      (memberScript.tokens ++ .symbol "(" :: (inner ++ rest))) = _
    rw [readsObject.primary rfl _ rfl, readTrailers]
    simp [Token.trailer?, readsMember.whole, read]

theorem readsBack_static {object memberScript : Script} {objectTerm : Term} {member : Member}
    (readsObject : ReadsBack object primaryLevel objectTerm)
    (readsMember : ReadsMember memberScript member) :
    ReadsBack (object ++ op "::" ++ memberScript) primaryLevel
      (.staticMember objectTerm member) := by
  have accepted : (object ++ op "::").failure = none := by simp [readsObject.accepted]
  apply ReadsBack.ofPrimary
  · simp [accepted, readsMember.accepted]
  · intro rest noArguments
    rw [tokens_append accepted, tokens_append readsObject.accepted, List.append_assoc,
      List.append_assoc]
    change readOperand (object.tokens ++ .symbol "::" :: (memberScript.tokens ++ rest)) = _
    rw [readsObject.primary rfl _ rfl, readTrailers]
    simp [Token.trailer?, readsMember.whole, behind_eq_missing noArguments]

theorem readsBack_staticCall {object memberScript : Script} {scripts : List Script}
    {objectTerm : Term} {member : Member} {terms : List Term}
    (readsObject : ReadsBack object primaryLevel objectTerm)
    (readsMember : ReadsMember memberScript member)
    (readsArguments : List.Forall₂ (fun s term => ReadsEntry s (.value term)) scripts terms) :
    ReadsBack (object ++ op "::" ++ (memberScript ++ Script.arguments scripts)) primaryLevel
      (.staticCall objectTerm member terms) := by
  obtain ⟨acceptedArguments, inner, printed, read⟩ := readArguments_arguments readsArguments
  have accepted : (object ++ op "::").failure = none := by simp [readsObject.accepted]
  apply ReadsBack.ofPrimary
  · simp [accepted, readsMember.accepted, acceptedArguments]
  · intro rest _
    rw [tokens_append accepted, tokens_append readsObject.accepted,
      tokens_append readsMember.accepted, printed, List.append_assoc, List.append_assoc,
      List.append_assoc]
    change readOperand (object.tokens ++ .symbol "::" ::
      (memberScript.tokens ++ .symbol "(" :: (inner ++ rest))) = _
    rw [readsObject.primary rfl _ rfl, readTrailers]
    simp [Token.trailer?, readsMember.whole, read]

theorem readsBack_call {function : String} {token : Token} {callee : Term}
    {scripts : List Script} {terms : List Term} (scanned : scan function = [token])
    (opens : token.opening? = some (.atom callee))
    (readsArguments : List.Forall₂ (fun s term => ReadsEntry s (.value term)) scripts terms) :
    ReadsBack (Script.call function scripts) primaryLevel (.call callee terms) := by
  obtain ⟨acceptedArguments, inner, printed, read⟩ := readArguments_arguments readsArguments
  apply ReadsBack.ofPrimary
  · simp [Script.call, acceptedArguments]
  · intro rest _
    rw [Script.call, tokens_append (failure_text function), tokens_text, scanned, printed,
      List.append_assoc, List.singleton_append, readOperand, opens]
    simp only [List.cons_append]
    rw [readTrailers]
    simp [Token.trailer?, read]

theorem readsBack_new {name : String} {token : Token} {className : Term}
    {scripts : List Script} {terms : List Term} (scanned : scan name = [token])
    (isClass : ∀ rest, readClass (token :: rest) = some (className, rest))
    (readsArguments : List.Forall₂ (fun s term => ReadsEntry s (.value term)) scripts terms) :
    ReadsBack (word "new" ++ Script.call name scripts) unaryLevel (.new className terms) := by
  obtain ⟨acceptedArguments, inner, printed, read⟩ := readArguments_arguments readsArguments
  apply ReadsBack.ofLead (.inr rfl)
  · simp [Script.call, acceptedArguments]
  · intro rest _
    rw [tokens_append (failure_word "new"), Script.call, tokens_append (failure_text name),
      tokens_text, scanned, printed]
    change readOperand (.name "new" :: token :: .symbol "(" :: (inner ++ rest)) = _
    rw [readOperand]
    simp only [Token.opening?, isClass, closed_some]
    rw [andThen_some (by simp; omega), read]
    rfl

theorem readsBack_sign {lead inner : Script} {op : UnaryOp} {token : Token} {printed : Nat}
    {term : Term} (scanned : lead.tokens = [token]) (acceptedLead : lead.failure = none)
    (opens : token.opening? = some (.sign op))
    (reads : ReadsBack inner printed term) (fits : leadRow op ≤ printed) :
    ReadsBack (lead ++ inner) (leadRow op) (.unary op term) := by
  have isLead : leadRow op = 13 ∨ leadRow op = 15 := by cases op <;> simp [leadRow]
  apply ReadsBack.ofLead isLead
  · simp [acceptedLead, reads.accepted]
  · intro rest ends
    rw [tokens_append acceptedLead, scanned, List.append_assoc, List.singleton_append,
      readOperand, opens]
    simp [reads.whole fits ends.of_lead]

theorem readsBack_cast {typeName : String} {inner : Script} {printed : Nat} {term : Term}
    (reads : ReadsBack inner printed term) (fits : unaryLevel ≤ printed) :
    ReadsBack (word ("(" ++ typeName ++ ")") ++ inner) unaryLevel (.cast typeName term) := by
  apply ReadsBack.ofLead (.inr rfl)
  · simp [reads.accepted]
  · intro rest ends
    have operand : readExpr (leadRow .clone) (inner.tokens ++ rest) = some (term, rest) :=
      reads.whole fits (@Ends.of_lead .clone rest ends)
    rw [tokens_append (failure_word _), tokens_word, scan_cast, List.append_assoc,
      List.singleton_append, readOperand]
    simp [Token.opening?, operand]

theorem readsBack_instanceOf {value : Script} {printed : Nat} {name : String} {term : Term}
    (identifier : isIdentifier name) (reads : ReadsBack value printed term)
    (fits : unaryLevel ≤ printed) (bound : printed ≤ primaryLevel) :
    ReadsBack (value ++ op "instanceof" ++ Script.text name) 14
      (.instanceOf term (.name name)) := by
  have accepted : (value ++ op "instanceof").failure = none := by simp [reads.accepted]
  have scanned : (value ++ op "instanceof" ++ Script.text name).tokens =
      value.tokens ++ .name "instanceof" :: [.name name] := by
    rw [tokens_append accepted, tokens_append reads.accepted, tokens_text,
      scan_identifier identifier, List.append_assoc]
    rfl
  simp only [unaryLevel, primaryLevel] at fits bound
  refine ⟨by simp [accepted], by simp [primaryLevel], ?_⟩
  intro least rest atMost _
  have follows : Ends (printed + 1) (.name "instanceof" :: .name name :: rest) := by
    refine ⟨rfl, ?_⟩
    intro operator found
    cases found
    simp only [Operator.row]
    omega
  have allowed : Operator.row .instanceOf ≤ ceiling printed := by
    have both : printed = 15 ∨ printed = 16 := by omega
    rcases both with rfl | rfl <;> decide
  rw [scanned, List.append_assoc, List.cons_append, List.singleton_append,
    reads.expr least _ (by omega) follows,
    readOperators_operator rfl atMost allowed (by rw [readRight]; rfl) (by simp)]
  rfl

theorem readsBack_ternary {condition yes no : Script} {conditionPrinted yesPrinted noPrinted : Nat}
    {conditionTerm yesTerm noTerm : Term}
    (readsCondition : ReadsBack condition conditionPrinted conditionTerm)
    (readsYes : ReadsBack yes yesPrinted yesTerm) (readsNo : ReadsBack no noPrinted noTerm)
    (conditionFits : ternaryLevel + 1 ≤ conditionPrinted)
    (conditionBound : conditionPrinted ≤ primaryLevel) (noFits : ternaryLevel + 1 ≤ noPrinted) :
    ReadsBack (condition ++ op "?" ++ yes ++ op ":" ++ no) ternaryLevel
      (.ternary conditionTerm yesTerm noTerm) := by
  have printed : (condition ++ op "?" ++ yes ++ op ":" ++ no).tokens =
      condition.tokens ++ .symbol "?" :: (yes.tokens ++ .symbol ":" :: no.tokens) := by
    rw [tokens_append (by simp [readsCondition.accepted, readsYes.accepted]),
      tokens_append (by simp [readsCondition.accepted, readsYes.accepted]),
      tokens_append (by simp [readsCondition.accepted]), tokens_append readsCondition.accepted]
    simp only [List.append_assoc]
    rfl
  refine ⟨by simp [readsCondition.accepted, readsYes.accepted, readsNo.accepted],
    by simp [ternaryLevel, primaryLevel], ?_⟩
  intro least rest fits ends
  simp only [ternaryLevel, primaryLevel] at fits ends conditionFits conditionBound noFits
  have follows : Ends (conditionPrinted + 1)
      (.symbol "?" :: (yes.tokens ++ .symbol ":" :: (no.tokens ++ rest))) := by
    refine ⟨rfl, ?_⟩
    intro operator found
    cases found
    simp only [Operator.row]
    omega
  have allowed : Operator.row .ternary ≤ ceiling conditionPrinted := by
    have all : ∀ n : Fin 17, 2 ≤ n.val → 1 ≤ ceiling n := by decide
    exact all ⟨conditionPrinted, by omega⟩ conditionFits
  have right : readRight .ternary conditionTerm
      (yes.tokens ++ .symbol ":" :: (no.tokens ++ rest)) =
      some (.ternary conditionTerm yesTerm noTerm, rest) := by
    have first := readsYes.whole (Nat.zero_le yesPrinted)
      (ends_symbol ":" 0 (no.tokens ++ rest) rfl rfl)
    have second := readsNo.whole noFits ends
    rw [readRight, first, closed_some, andThen_some (by simp; omega)]
    simp [Operator.row, second]
  rw [printed, List.append_assoc, List.cons_append, List.append_assoc, List.cons_append,
    readsCondition.expr least _ (by omega) follows,
    readOperators_operator rfl (by simpa [Operator.row] using fits) allowed right
      (by simp; omega)]
  rfl

theorem readsBack_array {scripts : List Script} {entries : List Entry}
    (reads : List.Forall₂ ReadsEntry scripts entries) :
    ReadsBack (op "[" ++ commas scripts ++ op "]") primaryLevel (.array entries) := by
  have accepted := (readEntries_commas (.inr rfl) reads []).1
  apply ReadsBack.ofPrimary
  · simp [accepted]
  · intro rest _
    have read := (readEntries_commas (.inr rfl) reads rest).2
    rw [tokens_append (by simp [accepted]), tokens_append rfl, List.append_assoc,
      List.append_assoc]
    change readOperand (.symbol "[" :: ((commas scripts).tokens ++ .symbol "]" :: rest)) = _
    rw [readOperand]
    simp only [Token.opening?, read]
    exact andThen_some (by simp; omega)

theorem empty_append (s : Script) : empty ++ s = s := rfl

theorem expr_eq (e : Expr) : expr e = exprKind e.pos e.kind := by
  cases e
  rw [expr]

theorem term_eq (e : Expr) : term e = kindTerm e.kind := by
  cases e
  rw [term]

theorem exprs_eq (arguments : List Expr) : exprs arguments = arguments.map expr := by
  induction arguments with
  | nil => rw [exprs]; rfl
  | cons e rest ih => rw [exprs, ih]; rfl

theorem terms_eq (arguments : List Expr) : terms arguments = arguments.map term := by
  induction arguments with
  | nil => rw [terms]; rfl
  | cons e rest ih => rw [terms, ih]; rfl

/-- What is printed for an expression is read back as the term it stands for. -/
def PrintsBack (e : Expr) : Prop :=
  ReadsBack (expr e) (level e.kind) (term e)

theorem readsArguments_exprs {arguments : List Expr}
    (prints : ∀ argument ∈ arguments, PrintsBack argument) :
    List.Forall₂ (fun s term => ReadsEntry s (.value term)) (exprs arguments)
      (terms arguments) := by
  rw [exprs_eq, terms_eq, List.forall₂_map_left_iff, List.forall₂_map_right_iff,
    List.forall₂_same]
  intro argument member
  exact (prints argument member).value

theorem readsEntries_arrayEntries {entries : List ArrayEntry}
    (keys : ∀ entry ∈ entries, ∀ key ∈ entry.key, PrintsBack key)
    (values : ∀ entry ∈ entries, PrintsBack entry.value) :
    List.Forall₂ ReadsEntry (arrayEntries entries) (entryTerms entries) := by
  induction entries with
  | nil =>
      rw [arrayEntries, entryTerms]
      exact .nil
  | cons entry rest ih =>
      obtain ⟨key, value⟩ := entry
      have readsValue := values ⟨key, value⟩ (by simp)
      have readsRest := ih (fun entry member => keys entry (by simp [member]))
        (fun entry member => values entry (by simp [member]))
      cases key with
      | none =>
          rw [arrayEntries, entryTerms]
          refine .cons ?_ readsRest
          rw [empty_append]
          exact readsValue.value
      | some key =>
          have readsKey := keys ⟨some key, value⟩ (by simp) key (by simp)
          rw [arrayEntries, entryTerms]
          exact .cons (readsKey.pair readsValue) readsRest

theorem printsBack_of_kind {e : Expr}
    (reads : ∀ pos, ReadsBack (exprKind pos e.kind) (level e.kind) (kindTerm e.kind)) :
    PrintsBack e := by
  unfold PrintsBack
  rw [expr_eq, term_eq]
  exact reads e.pos

theorem scan_nameText {dynamic : Bool} {name : String}
    (identifier : dynamic = false → isIdentifier name) :
    ∃ token, scan (nameText dynamic name) = [token] ∧
      token.opening? = some (.atom (nameTerm dynamic name)) ∧
      ∀ rest, readClass (token :: rest) = some (nameTerm dynamic name, rest) := by
  cases dynamic with
  | true => exact ⟨_, scan_dollar name, rfl, fun _ => rfl⟩
  | false =>
      have plain := identifier rfl
      exact ⟨_, scan_identifier plain, opening_identifier plain, fun _ => rfl⟩

theorem readsMember_nameText {dynamic : Bool} {name : String}
    (identifier : dynamic = false → isIdentifier name) :
    ReadsMember (Script.text (nameText dynamic name)) (nameMember dynamic name) := by
  cases dynamic with
  | true => exact readsMember_variable name
  | false => exact readsMember_named (identifier rfl)

theorem readsMember_methodText {callType : UInt8} {name : String}
    (identifier : callType = 1 → isIdentifier name) :
    ReadsMember (Script.text (methodText callType name)) (methodMember callType name) := by
  unfold methodText methodMember
  by_cases named : callType = 1
  · simp only [named, if_true]
    exact readsMember_named (identifier named)
  · by_cases variable_ : callType = 2
    · simp only [variable_, if_true]
      exact readsMember_variable name
    · simp only [variable_, named, if_false]
      exact readsMember_quoted name

/-- An operator in front of an operand, or of a group where the two signs would run together. -/
theorem readsBack_unarySign {op : UnaryOp} {inner : Expr} (isSign : op.sign?.isSome)
    (prints : PrintsBack inner) (pos : Position) :
    ReadsBack (unary op inner (expr inner) pos) (unaryFormLevel op) (.unary op (term inner)) := by
  obtain ⟨sign, spelled⟩ := Option.isSome_iff_exists.mp isSign
  have printed : unary op inner (expr inner) pos = of [.token sign none (some false)] ++
      (if leadsWith inner sign then grouped (expr inner)
      else operand inner (expr inner) (unaryFormLevel op)) := by
    cases op <;> simp_all [UnaryOp.sign?, unary]
  have row : unaryFormLevel op = leadRow op := by
    cases op <;> simp_all [UnaryOp.sign?, unaryFormLevel, leadRow, unaryLevel]
  have opens : ∃ token, scan sign = [token] ∧ token.opening? = some (.sign op) := by
    cases op <;> cases spelled <;> exact ⟨_, rfl, rfl⟩
  obtain ⟨token, scanned, opened⟩ := opens
  have bound := unaryFormLevel_le op
  rw [printed, row]
  split
  · exact readsBack_sign (by simp [Op.tokens, scanned]) rfl opened prints.grouped (by omega)
  · exact readsBack_sign (by simp [Op.tokens, scanned]) rfl opened
      (prints.operand _) (le_operandLevel inner (by omega))

theorem readsBack_staticMember {kind : AccessKind} {object member : Expr} {className name : String}
    (classNamed : object.name? = some className) (isClass : isIdentifier className)
    (memberNamed : member.name? = some name)
    (identifier : (kind == .staticProperty) = false → isIdentifier name) (pos : Position) :
    ReadsBack (Php.className object (expr object) ++ op "::" ++ staticMember kind member pos)
      primaryLevel (staticTerm kind object member) := by
  unfold Php.className staticMember staticTerm
  simp only [classNamed, memberNamed, Option.getD_some]
  exact readsBack_static (readsBack_identifier isClass) (readsMember_nameText identifier)

theorem readsBack_of_plain {kind : ExprKind} (plain : Plain kind) (pos : Position) :
    ReadsBack (exprKind pos kind) (level kind) (kindTerm kind) := by
  induction plain generalizing pos with
  | null =>
      rw [exprKind, kindTerm]
      exact readsBack_atom rfl rfl
  | bool identifier =>
      rw [exprKind, kindTerm]
      exact readsBack_identifier identifier
  | int numeral =>
      rw [exprKind, kindTerm]
      exact readsBack_atom (scan_numeral numeral) rfl
  | double numeral =>
      rw [exprKind, kindTerm]
      exact readsBack_atom (scan_numeral numeral) rfl
  | string =>
      rw [exprKind, kindTerm]
      exact readsBack_atom (scan_quote _) rfl
  | char =>
      rw [exprKind, kindTerm]
      exact readsBack_atom (scan_quote _) rfl
  | constant identifier =>
      rw [exprKind, kindTerm]
      exact readsBack_identifier identifier
  | emptyArray =>
      rw [exprKind, kindTerm]
      exact readsBack_array .nil
  | array _ _ keys values =>
      rw [exprKind, kindTerm]
      exact readsBack_array (readsEntries_arrayEntries
        (fun entry member key keyed => printsBack_of_kind (keys entry member key keyed))
        (fun entry member => printsBack_of_kind (values entry member)))
  | var =>
      rw [exprKind, kindTerm]
      exact readsBack_atom (scan_dollar _) rfl
  | element _ _ object member =>
      rw [exprKind, kindTerm]
      exact readsBack_element (printsBack_of_kind object).receiver (printsBack_of_kind member)
  | @property object member name _ named identifier readsObject =>
      rw [exprKind, kindTerm]
      refine readsBack_property (printsBack_of_kind readsObject).receiver ?_
      simp only [memberName, memberTerm, named]
      exact readsMember_named identifier
  | @computedProperty object member _ unnamed _ readsObject readsMember =>
      rw [exprKind, kindTerm]
      refine readsBack_property (printsBack_of_kind readsObject).receiver ?_
      simp only [memberName, memberTerm, unnamed]
      exact (printsBack_of_kind readsMember).braced
  | dynamicProperty _ _ object member =>
      rw [exprKind, kindTerm]
      exact readsBack_property (printsBack_of_kind object).receiver
        (printsBack_of_kind member).braced
  | @staticMember kind object member className name static classNamed isClass named identifier =>
      rw [exprKind]
      cases kind with
      | staticProperty =>
        exact readsBack_staticMember classNamed isClass named (fun _ => identifier) pos
      | classConstant =>
        exact readsBack_staticMember classNamed isClass named (fun _ => identifier) pos
      | _ => contradiction
  | @call name callType arguments identifier _ reads =>
      rw [exprKind, kindTerm]
      have named : (callType != 1) = false → isIdentifier name := by simpa using identifier
      obtain ⟨token, scanned, opens, -⟩ := scan_nameText named
      exact readsBack_call scanned opens
        (readsArguments_exprs fun argument member => printsBack_of_kind (reads argument member))
  | methodCall _ identifier _ receiver reads =>
      rw [exprKind, kindTerm]
      exact readsBack_methodCall (printsBack_of_kind receiver).receiver
        (readsMember_methodText identifier)
        (readsArguments_exprs fun argument member => printsBack_of_kind (reads argument member))
  | @staticCall callee arguments classIdentifier identifier _ reads =>
      rw [exprKind, kindTerm]
      obtain ⟨token, scanned, opens, -⟩ := scan_nameText classIdentifier
      exact readsBack_staticCall (readsBack_atom scanned opens) (readsMember_nameText identifier)
        (readsArguments_exprs fun argument member => printsBack_of_kind (reads argument member))
  | new identifier _ reads =>
      rw [exprKind, kindTerm]
      obtain ⟨token, scanned, -, isClass⟩ := scan_nameText identifier
      exact readsBack_new scanned isClass
        (readsArguments_exprs fun argument member => printsBack_of_kind (reads argument member))
  | group _ inner =>
      rw [exprKind, kindTerm]
      · exact (printsBack_of_kind inner).grouped
      all_goals simp
  | @sign op inner isSign _ reads =>
      have back := readsBack_unarySign isSign (printsBack_of_kind reads) pos
      cases op with
      | not | bitNot | minus | plus =>
          rw [exprKind, kindTerm]
          · exact back
          all_goals simp
      | _ => contradiction
  | @clone inner _ reads =>
      have opens : Token.opening? (.name "clone") = some (.sign .clone) := rfl
      rw [exprKind, kindTerm]
      · exact readsBack_sign rfl rfl opens ((printsBack_of_kind reads).operand _)
          (le_operandLevel inner (by decide))
      all_goals simp
  | typeOf _ reads =>
      rw [exprKind, kindTerm]
      · exact readsBack_call rfl rfl (.cons (printsBack_of_kind reads).value .nil)
      all_goals simp
  | @issetVar target name shape =>
      obtain ⟨kind, targetPos, dataType, doCast⟩ := target
      subst shape
      rw [exprKind, kindTerm, isset, issetTerm]
      exact readsBack_call rfl rfl
        (.cons (readsBack_atom (scan_dollar name) rfl).value .nil)
  | @issetElement target object member shape _ _ readsObject readsMember =>
      obtain ⟨kind, targetPos, dataType, doCast⟩ := target
      subst shape
      rw [exprKind, kindTerm, isset, issetTerm]
      exact readsBack_call rfl rfl (.cons (printsBack_of_kind readsObject).value
        (.cons (printsBack_of_kind readsMember).value .nil))
  | @issetProperty target object member shape _ _ readsObject readsMember =>
      obtain ⟨kind, targetPos, dataType, doCast⟩ := target
      subst shape
      rw [exprKind, kindTerm, isset, issetTerm]
      refine readsBack_call rfl rfl (.cons (printsBack_of_kind readsObject).value
        (.cons ?_ .nil))
      cases named : member.name? with
      | some name => exact (readsBack_atom (scan_quote _) rfl).value
      | none => exact (printsBack_of_kind (readsMember named)).value
  | @issetDynamicProperty target object member shape _ _ readsObject readsMember =>
      obtain ⟨kind, targetPos, dataType, doCast⟩ := target
      subst shape
      rw [exprKind, kindTerm, isset, issetTerm]
      exact readsBack_call rfl rfl (.cons (printsBack_of_kind readsObject).value
        (.cons (printsBack_of_kind readsMember).value .nil))
  | @issetStaticProperty target object member className name shape classNamed isClass named =>
      obtain ⟨kind, targetPos, dataType, doCast⟩ := target
      subst shape
      rw [exprKind, kindTerm, isset, issetTerm]
      · exact readsBack_call rfl rfl (.cons
          (readsBack_staticMember classNamed isClass named (by simp) targetPos).value .nil)
      all_goals simp
  | @binary op left right _ _ readsLeft readsRight =>
      have leftBound := leftLevel_le op
      have rightBound := binaryLevel_le op
      rw [exprKind, kindTerm]
      exact readsBack_binary op ((printsBack_of_kind readsLeft).operand _)
        ((printsBack_of_kind readsRight).operand _)
        (le_operandLevel left (by simp only [primaryLevel]; omega)) (operandLevel_le left _)
        (le_operandLevel right (by simp only [primaryLevel]; omega))
  | @instanceOf value className name _ named identifier reads =>
      rw [exprKind, kindTerm]
      simp only [Php.className, named, Option.getD_some]
      exact readsBack_instanceOf identifier ((printsBack_of_kind reads).operand _)
        (le_operandLevel value (by decide)) (operandLevel_le value _)
  | @ternary condition yes no _ _ _ readsCondition readsYes readsNo =>
      rw [exprKind, kindTerm]
      exact readsBack_ternary ((printsBack_of_kind readsCondition).operand _)
        ((printsBack_of_kind readsYes).operand _) ((printsBack_of_kind readsNo).operand _)
        (le_operandLevel condition (by decide)) (operandLevel_le condition _)
        (le_operandLevel no (by decide))
  | @cast typeName inner _ reads =>
      rw [exprKind, kindTerm]
      exact readsBack_cast ((printsBack_of_kind reads).operand _)
        (le_operandLevel inner (by decide))

/-- The tokens printed for a plain expression are read back as the expression it stands for. -/
theorem read_expr_tokens (e : Expr) (plain : Plain e.kind) :
    (expr e).failure = none ∧ read (expr e).tokens = some (term e) := by
  have prints : PrintsBack e := printsBack_of_kind (readsBack_of_plain plain)
  refine ⟨prints.accepted, ?_⟩
  have whole : readExpr 0 ((expr e).tokens ++ []) = some (term e, []) :=
    prints.whole (Nat.zero_le _) trivial
  rw [List.append_nil] at whole
  rw [read, whole]

def leaf (name : String) : Expr :=
  .var name {}

/-- `!($a == $b) ? -(-$x) : ($a - ($b - $c)) * (clone $o)->items[0]`, with the inner difference in
a group of its own. -/
def groupingSample : Expr :=
  .plain (.ternary
    (.plain (.unary .not (.plain (.binary .equals (leaf "a") (leaf "b")) {})) {})
    (.plain (.unary .minus (.plain (.unary .minus (leaf "x")) {})) {})
    (.plain (.binary .mul
      (.plain (.binary .sub (leaf "a")
        (.plain (.unary .group (.plain (.binary .sub (leaf "b") (leaf "c")) {})) {})) {})
      (.plain (.access .element
        (.plain (.access .property (.plain (.unary .clone (leaf "o")) {}) (leaf "items")) {})
        (.plain (.literal .int "0") {})) {})) {})) {}

theorem read_groupingSample :
    Plain groupingSample.kind ∧ read (expr groupingSample).tokens = some (term groupingSample) := by
  have plain : Plain groupingSample.kind :=
    .ternary (.sign rfl (.binary .var .var)) (.sign rfl (.sign rfl .var))
      (.binary (.binary .var (.group (.binary .var .var)))
        (.element (.property (.clone .var) rfl rfl) (.int rfl)))
  exact ⟨plain, (read_expr_tokens groupingSample plain).2⟩

end Zephir.Php
