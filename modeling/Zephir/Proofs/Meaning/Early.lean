import Zephir.Proofs.Lowering.Hoisting
import Zephir.Proofs.Meaning.Machine

/-!
What lowering moves to an earlier place. Something is hoisted out of an expression exactly if
lowering comes across a fetch or a property named by a string. Where it comes across no such
property, the hoisted statements do all fetches of the expression in order, whether or not
evaluation would reach them, and what is left of the expression means what the expression means if
each fetch in it only tests its variable. An expression without fetches keeps its meaning on every
machine, side effects and all.
-/

namespace Zephir

mutual

/-- The nodes that lowering comes across in an expression, each after those inside of it. The body
of a closure is not a part of the expression. -/
@[simp] def Expr.parts : Expr → List ExprKind
  | ⟨kind, _, _, _⟩ => kind.inner ++ [kind]

@[simp] def ExprKind.inner : ExprKind → List ExprKind
  | .array entries => entryParts entries
  | .access .property object _ => object.parts
  | .access .staticProperty _ _ => []
  | .access .classConstant _ _ => []
  | .access _ object member => object.parts ++ member.parts
  | .call _ _ arguments => exprParts arguments
  | .methodCall receiver _ _ arguments => receiver.parts ++ exprParts arguments
  | .staticCall _ arguments => exprParts arguments
  | .new _ _ arguments => exprParts arguments
  | .unary _ operand => operand.parts
  | .binary _ left right => left.parts ++ right.parts
  | .instanceOf value _ => value.parts
  | .range _ low high => low.parts ++ high.parts
  | .ternary condition yes no => condition.parts ++ yes.parts ++ no.parts
  | .cast _ operand => operand.parts
  | .typeHint _ operand => operand.parts
  | .fetch _ source => source.parts
  | _ => []

@[simp] def exprParts : List Expr → List ExprKind
  | [] => []
  | e :: rest => e.parts ++ exprParts rest

@[simp] def optionParts : Option Expr → List ExprKind
  | none => []
  | some e => e.parts

@[simp] def entryParts : List ArrayEntry → List ExprKind
  | [] => []
  | ⟨key, value⟩ :: rest => optionParts key ++ value.parts ++ entryParts rest

end

@[simp] def ExprKind.isStringProperty : ExprKind → Bool
  | .access .stringProperty _ _ => true
  | _ => false

@[simp] def ExprKind.fetch? : ExprKind → Option (String × Expr)
  | .fetch target source => some (target.asVar?.getD "", source)
  | _ => none

def Expr.fetches (e : Expr) : List (String × Expr) :=
  e.parts.filterMap ExprKind.fetch?

theorem Expr.fetches_mk (kind : ExprKind) (pos : Position) (dataType : Option String)
    (doCast : Bool) : Expr.fetches ⟨kind, pos, dataType, doCast⟩ =
      kind.inner.filterMap ExprKind.fetch? ++ kind.fetch?.toList := by
  rw [Expr.fetches, Expr.parts, List.filterMap_append]
  cases kind <;> rfl

@[simp] def ExprKind.hoists (kind : ExprKind) : Bool :=
  kind.isStringProperty || kind.fetch?.isSome

/-! ### What is hoisted -/

def HoistFree (parts : List ExprKind) : Prop :=
  ∀ kind ∈ parts, kind.hoists = false

@[simp] theorem hoistFree_nil : HoistFree [] := by
  simp [HoistFree]

@[simp] theorem hoistFree_append {left right : List ExprKind} :
    HoistFree (left ++ right) ↔ HoistFree left ∧ HoistFree right :=
  List.forall_mem_append

@[simp] theorem hoistFree_cons {kind : ExprKind} {rest : List ExprKind} :
    HoistFree (kind :: rest) ↔ kind.hoists = false ∧ HoistFree rest :=
  List.forall_mem_cons

mutual

/-- Something is hoisted out of an expression exactly if one of its nodes asks for it. -/
theorem LowersExpr.before_eq_nil_iff {e e' : Expr} {scope next : Scope}
    {before : List Statement} : LowersExpr e scope before e' next →
    (before = [] ↔ HoistFree e.parts)
  | .null => by simp
  | .literal _ => by simp
  | .istring => by simp
  | .emptyArray => by simp
  | .array lowered => by simp [lowered.before_eq_nil_iff]
  | .var => by simp
  | .staticAccess static => by rcases static with rfl | rfl <;> simp
  | .property lowered => by simp [lowered.before_eq_nil_iff]
  | .access computed object member => by
      rcases computed with rfl | rfl <;>
        simp [object.before_eq_nil_iff, member.before_eq_nil_iff]
  | .stringProperty object member _ => by simp
  | .call lowered => by simp [lowered.before_eq_nil_iff]
  | .methodCall receiver arguments _ => by
      simp [receiver.before_eq_nil_iff, arguments.before_eq_nil_iff]
  | .pseudoCall receiver arguments _ _ => by
      simp [receiver.before_eq_nil_iff, arguments.before_eq_nil_iff]
  | .staticCall lowered => by simp [lowered.before_eq_nil_iff]
  | .new lowered => by simp [lowered.before_eq_nil_iff]
  | .newArray => by simp
  | .newString => by simp
  | .likely _ lowered => by simp [lowered.before_eq_nil_iff]
  | .empty lowered => by simp [lowered.before_eq_nil_iff]
  | .ungroup lowered _ => by simp [lowered.before_eq_nil_iff]
  | .group lowered _ => by simp [lowered.before_eq_nil_iff]
  | .unary _ _ lowered => by simp [lowered.before_eq_nil_iff]
  | .binary left right => by simp [left.before_eq_nil_iff, right.before_eq_nil_iff]
  | .instanceOf lowered => by simp [lowered.before_eq_nil_iff]
  | .range low high => by simp [low.before_eq_nil_iff, high.before_eq_nil_iff]
  | .ternary condition yes no => by
      simp [condition.before_eq_nil_iff, yes.before_eq_nil_iff, no.before_eq_nil_iff]
  | .cast lowered _ => by simp [lowered.before_eq_nil_iff]
  | .castHint lowered _ => by simp [lowered.before_eq_nil_iff]
  | .typeHint lowered _ => by simp [lowered.before_eq_nil_iff]
  | .strayHint lowered _ => by simp [lowered.before_eq_nil_iff]
  | .fetch _ lowered => by simp
  | .notFetch _ lowered => by simp
  | .closure _ => by simp
  | .closureArrow _ _ => by simp

theorem LowersExprs.before_eq_nil_iff {es es' : List Expr} {scope next : Scope}
    {before : List Statement} : LowersExprs es scope before es' next →
    (before = [] ↔ HoistFree (exprParts es))
  | .nil => by simp
  | .cons first rest => by simp [first.before_eq_nil_iff, rest.before_eq_nil_iff]

theorem LowersOption.before_eq_nil_iff {e e' : Option Expr} {scope next : Scope}
    {before : List Statement} : LowersOption e scope before e' next →
    (before = [] ↔ HoistFree (optionParts e))
  | .none => by simp
  | .some lowered => by simp [lowered.before_eq_nil_iff]

theorem LowersEntries.before_eq_nil_iff {entries entries' : List ArrayEntry} {scope next : Scope}
    {before : List Statement} : LowersEntries entries scope before entries' next →
    (before = [] ↔ HoistFree (entryParts entries))
  | .nil => by simp
  | .cons key value rest => by
      simp [key.before_eq_nil_iff, value.before_eq_nil_iff, rest.before_eq_nil_iff]

end

/-! ### Primitive receivers -/

/-- The primitive type of an expression in a scope. A type that is given further outside counts
before that of the variable. -/
@[simp] def Scope.ownerAs (scope : Scope) (given : Option String) : Expr → Option PrimitiveType
  | ⟨.literal .string _, _, _, _⟩ => some .string
  | ⟨.literal .istring _, _, _, _⟩ => some .string
  | ⟨.literal .char _, _, _, _⟩ => some .char
  | ⟨.literal .int _, _, _, _⟩ => some .int
  | ⟨.literal .double _, _, _, _⟩ => some .double
  | ⟨.array _, _, _, _⟩ => some .array
  | ⟨.emptyArray, _, _, _⟩ => some .array
  | ⟨.newType "array" _, _, _, _⟩ => some .array
  | ⟨.newType "string" _, _, _, _⟩ => some .string
  | ⟨.var name, _, dataType, _⟩ =>
    (given <|> (scope.typeOf? name <|> dataType)).bind PrimitiveType.ofName?
  | ⟨.unary .likely operand, _, _, _⟩ => ownerAs scope given operand
  | ⟨.unary .unlikely operand, _, _, _⟩ => ownerAs scope given operand
  | ⟨.unary .group operand, _, _, _⟩ => ownerAs scope given operand
  | ⟨.cast typeName operand, _, _, _⟩ =>
    if castTypes.contains typeName then none else ownerAs scope (given <|> some typeName) operand
  | ⟨.typeHint hint operand, _, _, _⟩ => ownerAs scope (given <|> hint.name?) operand
  | _ => none

def Scope.owner (scope : Scope) (receiver : Expr) : Option PrimitiveType :=
  scope.ownerAs none receiver

@[simp] def Expr.given (e : Expr) (dataType : Option String) : Expr :=
  { e with dataType := dataType <|> e.dataType }

theorem withType_given (e : Expr) (dataType : String) (given : Option String) :
    (e.withType dataType).given given = e.given (given <|> some dataType) := by
  cases given <;> rfl

theorem primitiveOwner_of_not_isPrimary {e : Expr} (compound : e.kind.isPrimary = false)
    (lowered : ∀ text, e.kind ≠ .literal .istring text) : primitiveOwner? e = none := by
  obtain ⟨kind, pos, dataType, doCast⟩ := e
  cases kind with
  | literal kind text => cases kind <;> simp_all [ExprKind.isPrimary]
  | _ => simp_all [ExprKind.isPrimary, primitiveOwner?]

theorem pseudoCall_ok {owner : PrimitiveType} {name : String} {receiver called : Expr}
    {arguments : List Expr} {pos : Position}
    (translated : pseudoCall owner name receiver arguments pos = .ok called) :
    ∃ entry, owner.method? name = some entry ∧
      called = .callOf entry.function (entry.placement.arguments receiver arguments pos) pos := by
  unfold pseudoCall at translated
  cases found : owner.method? name with
  | none => simp [found] at translated
  | some entry =>
      simp only [found] at translated
      split at translated
      · exact ⟨entry, rfl, (Except.ok.inj translated).symm⟩
      · contradiction

theorem LowersExpr.primitiveOwner_given {e e' : Expr} {scope next : Scope}
    {before : List Statement} : LowersExpr e scope before e' next → ∀ given,
    primitiveOwner? (e'.given given) = scope.ownerAs given e ∧
      ∀ text, (e'.given given).kind ≠ .literal .istring text
  | .null | .istring | .emptyArray | .array _ | .var | .staticAccess _ | .property _
  | .access _ _ _ | .stringProperty _ _ _ | .call _ | .methodCall _ _ _ | .staticCall _ | .new _
  | .binary _ _ | .instanceOf _ | .ternary _ _ _ | .fetch _ _ | .notFetch _ _ | .closure _
  | .closureArrow _ _ => by simp [primitiveOwner?]
  | @LowersExpr.literal kind _ _ _ _ _ plain => by
      cases kind <;> simp_all [primitiveOwner?]
  | .pseudoCall _ _ _ translated => by
      obtain ⟨entry, -, rfl⟩ := pseudoCall_ok translated
      simp [primitiveOwner?, Expr.callOf, Expr.plain]
  | .newArray => by simp [primitiveOwner?, Expr.plain, Expr.withType]
  | .newString => by simp [primitiveOwner?, Expr.plain, Expr.withType, Expr.str]
  | .empty _ => by simp [primitiveOwner?, Expr.withType, Expr.callOf, Expr.plain]
  | .range _ _ => by simp [primitiveOwner?, Expr.withType, Expr.callOf, Expr.plain]
  | .likely hint lowered => by
      rcases hint with rfl | rfl <;> simpa using lowered.primitiveOwner_given
  | .ungroup lowered _ => by simpa using lowered.primitiveOwner_given
  | .group lowered compound => by
      intro given
      obtain ⟨same, final⟩ := lowered.primitiveOwner_given given
      have untyped := same.symm.trans (primitiveOwner_of_not_isPrimary compound final)
      simp [primitiveOwner?, untyped]
  | @LowersExpr.unary op _ _ _ _ _ _ _ _ plain _ _ => by
      obtain ⟨likely, unlikely, -, group⟩ := plain
      cases op <;> simp_all [primitiveOwner?]
  | .cast _ castable => by simp_all [primitiveOwner?]
  | .castHint lowered other => by
      intro given
      rw [withType_given, Scope.ownerAs, if_neg (by simp_all)]
      exact lowered.primitiveOwner_given _
  | .typeHint lowered named => by
      intro given
      rw [withType_given, Scope.ownerAs, named]
      exact lowered.primitiveOwner_given _
  | .strayHint lowered unnamed => by
      intro given
      simpa [unnamed] using lowered.primitiveOwner_given given
termination_by sizeOf e

theorem LowersExpr.primitiveOwner_eq {e e' : Expr} {scope next : Scope} {before : List Statement}
    (lowered : LowersExpr e scope before e' next) : primitiveOwner? e' = scope.owner e :=
  (lowered.primitiveOwner_given none).1

/-! ### What is left -/

def StatementKind.setsVar? : StatementKind → Option (String × Expr)
  | .assign .set ⟨.variable, some .assign, name, none, [], some value⟩ => some (name, value)
  | _ => none

def ExprKind.isClosure : ExprKind → Bool
  | .closure .. => true
  | .closureArrow .. => true
  | _ => false

namespace Machine

variable {V W : Type} (m : Machine V W)

def zephir (scope : Scope) : Reading V W where
  owner := scope.owner
  fetch := m.fetchNow

/-- The source in a scope after all fetches were done: each only tests its variable. -/
def fetchedBefore (scope : Scope) : Reading V W where
  owner := scope.owner
  fetch := fun name _ => m.found name

@[simp] theorem php_owner (receiver : Expr) : m.php.owner receiver = none :=
  rfl

@[simp] theorem zephir_fetch (scope : Scope) (name : String) (source : Meaning V W) :
    (m.zephir scope).fetch name source = m.fetchNow name source :=
  rfl

@[simp] theorem fetchedBefore_owner (scope : Scope) (receiver : Expr) :
    (m.fetchedBefore scope).owner receiver = scope.owner receiver :=
  rfl

@[simp] theorem fetchedBefore_fetch (scope : Scope) (name : String) (source : Meaning V W) :
    (m.fetchedBefore scope).fetch name source = m.found name :=
  rfl

def fetchAll (reading : Reading V W) : List (String × Expr) → State V W → State V W
  | [], s => s
  | (name, source) :: rest, s =>
    fetchAll reading rest (store name (m.fetched (m.meaning reading source)) s)

theorem fetchAll_append (reading : Reading V W) (left right : List (String × Expr))
    (s : State V W) : m.fetchAll reading (left ++ right) s =
      m.fetchAll reading right (m.fetchAll reading left s) := by
  induction left generalizing s with
  | nil => rfl
  | cons first rest ih => exact ih _

/-- Runs the assignments to plain variables that open a block: the statement that comes after them
and the state in which it is reached. -/
def opening : List Statement → State V W → Option StatementKind × State V W
  | [], s => (none, s)
  | statement :: rest, s =>
    match statement.kind.setsVar? with
    | some (name, value) => opening rest (store name (m.meaning m.php value).value s)
    | none => (some statement.kind, s)

theorem opening_assignTo (name : String) (value : Expr) (pos : Position) (rest : List Statement)
    (s : State V W) : m.opening (.assignTo name value pos :: rest) s =
      m.opening rest (store name (m.meaning m.php value).value s) :=
  rfl

theorem opening_headDocs (docblocks : List Docblock) (block : List Statement) (s : State V W) :
    m.opening (headDocs docblocks block) s = m.opening block s := by
  cases block <;> rfl

def KeepsClosure (kind : ExprKind) : Prop :=
  kind.isClosure = true →
    ∀ pos dataType doCast scope before e' next,
      LowersExpr ⟨kind, pos, dataType, doCast⟩ scope before e' next →
        m.perform (.closure e'.kind) = m.perform (.closure kind)

/-- The node is not a property named by a string, which goes through a temporary, and a closure is
kept. -/
def Follows (kind : ExprKind) : Prop :=
  kind.isStringProperty = false ∧ m.KeepsClosure kind

/-- The statements in front of a node do the fetches, and the scope stays as it is. -/
structure DoesFetches (scope : Scope) (before : List Statement) (next : Scope)
    (parts : List ExprKind) : Prop where
  scope_eq : next = scope
  opening_eq : ∀ rest s, m.opening (before ++ rest) s =
    m.opening rest (m.fetchAll (m.fetchedBefore scope) (parts.filterMap ExprKind.fetch?) s)

theorem DoesFetches.nil (scope : Scope) : m.DoesFetches scope [] scope [] :=
  ⟨rfl, fun _ _ => rfl⟩

variable {m}

theorem DoesFetches.append {scope mid next : Scope} {first second : List Statement}
    {left right : List ExprKind} (does : m.DoesFetches scope first mid left)
    (also : m.DoesFetches mid second next right) :
    m.DoesFetches scope (first ++ second) next (left ++ right) := by
  obtain ⟨rfl, opensFirst⟩ := does
  obtain ⟨rfl, opensSecond⟩ := also
  refine ⟨rfl, ?_⟩
  intro rest s
  rw [List.append_assoc, opensFirst, opensSecond, List.filterMap_append, fetchAll_append]

theorem DoesFetches.node {scope next : Scope} {before : List Statement} {parts : List ExprKind}
    {kind : ExprKind} (does : m.DoesFetches scope before next parts)
    (plain : kind.fetch? = none) :
    m.DoesFetches scope before next (parts ++ [kind]) := by
  refine ⟨does.scope_eq, ?_⟩
  intro rest s
  rw [does.opening_eq, List.filterMap_append, List.filterMap_cons_none plain, List.filterMap_nil,
    List.append_nil]

theorem meaning_fetchedValue (reading : Reading V W) (source : Expr) (pos : Position) :
    (m.meaning reading (fetchedValue source pos)).value = m.fetched (m.meaning reading source) :=
  rfl

theorem DoesFetches.fetch {scope next : Scope} {before : List Statement} {source source' : Expr}
    {target : Expr} {name : String} {pos : Position}
    (does : m.DoesFetches scope before next source.parts)
    (named : target.asVar? = some name)
    (same : m.meaning m.php source' = m.meaning (m.fetchedBefore scope) source) :
    m.DoesFetches scope
      (before ++ [.assignTo name (fetchedValue source' pos) target.pos]) next
      (source.parts ++ [.fetch target source]) := by
  refine ⟨does.scope_eq, ?_⟩
  intro rest s
  rw [List.append_assoc, does.opening_eq, List.singleton_append, opening_assignTo,
    meaning_fetchedValue, same, List.filterMap_append, fetchAll_append]
  simp [named, fetchAll]

variable (m)

theorem apply_eq_of_perform_eq {op other : Operation} (same : m.perform op = m.perform other) :
    m.apply op = m.apply other := by
  funext operands s
  simp only [apply, same]

@[simp] theorem meaning_withType (reading : Reading V W) (e : Expr) (dataType : String) :
    m.meaning reading (e.withType dataType) = m.meaning reading e := by
  cases e
  rfl

theorem negate_found (name : String) :
    m.negate (m.found name) = m.compare true (read name) (constant m.null) := by
  funext s
  simp [negate, found, compare, read, constant, m.truthy_ofBool]

theorem values_append (reading : Reading V W) (left right : List Expr) :
    m.values reading (left ++ right) = m.values reading left ++ m.values reading right := by
  induction left with
  | nil => rfl
  | cons e rest ih => simp only [List.cons_append, values, ih]

theorem values_arguments (placement : Placement) (receiver : Expr) (arguments : List Expr)
    (pos : Position) : m.values m.php (placement.arguments receiver arguments pos) =
      placement.place (m.meaning m.php receiver).value (m.values m.php arguments)
        (m.literal .string) := by
  cases placement with
  | first => rfl
  | last => exact m.values_append _ _ _
  | second => cases arguments <;> rfl
  | afterLiteral text => rfl

end Machine

/-! ### Expressions without fetches -/

section Congruence

variable {V W : Type} {m : Machine V W} {first second : Reading V W}

namespace Machine

mutual

theorem meaning_congr (owns : first.owner = second.owner) : (e : Expr) →
    (∀ kind ∈ e.parts, kind.fetch? = none) → m.meaning first e = m.meaning second e
  | ⟨kind, _, _, _⟩, free => by
      simp only [Expr.parts, List.forall_mem_append, List.forall_mem_singleton] at free
      simp only [meaning]
      exact kindMeaning_congr owns kind free.1 free.2

theorem kindMeaning_congr (owns : first.owner = second.owner) : (kind : ExprKind) →
    (∀ inner ∈ kind.inner, inner.fetch? = none) → kind.fetch? = none →
    m.kindMeaning first kind = m.kindMeaning second kind
  | .null, _, _ => rfl
  | .literal _ _, _, _ => rfl
  | .emptyArray, _, _ => rfl
  | .array entries, free, _ => by
      simp only [kindMeaning, entryValues_congr owns entries free]
  | .var _, _, _ => rfl
  | .access kind object member, free, _ => by
      cases kind with
      | staticProperty => rfl
      | classConstant => rfl
      | property => simp only [kindMeaning, access, meaning_congr owns object free]
      | _ =>
          simp only [ExprKind.inner, List.forall_mem_append] at free
          simp only [kindMeaning, meaning_congr owns object free.1,
            meaning_congr owns member free.2]
  | .call _ _ arguments, free, _ => by
      simp only [kindMeaning, values_congr owns arguments free]
  | .methodCall receiver _ _ arguments, free, _ => by
      simp only [ExprKind.inner, List.forall_mem_append] at free
      simp only [kindMeaning, owns, meaning_congr owns receiver free.1,
        values_congr owns arguments free.2]
  | .staticCall _ arguments, free, _ => by
      simp only [kindMeaning, values_congr owns arguments free]
  | .new _ _ arguments, free, _ => by
      simp only [kindMeaning, values_congr owns arguments free]
  | .newType _ _, _, _ => rfl
  | .unary _ operand, free, _ => by
      simp only [kindMeaning, meaning_congr owns operand free]
  | .binary _ left right, free, _ => by
      simp only [ExprKind.inner, List.forall_mem_append] at free
      simp only [kindMeaning, meaning_congr owns left free.1, meaning_congr owns right free.2]
  | .instanceOf value _, free, _ => by
      simp only [kindMeaning, meaning_congr owns value free]
  | .range _ low high, free, _ => by
      simp only [ExprKind.inner, List.forall_mem_append] at free
      simp only [kindMeaning, meaning_congr owns low free.1, meaning_congr owns high free.2]
  | .ternary condition yes no, free, _ => by
      simp only [ExprKind.inner, List.forall_mem_append] at free
      simp only [kindMeaning, meaning_congr owns condition free.1.1,
        meaning_congr owns yes free.1.2, meaning_congr owns no free.2]
  | .cast _ operand, free, _ => by
      simp only [kindMeaning, meaning_congr owns operand free]
  | .typeHint _ operand, free, _ => by
      simp only [kindMeaning, meaning_congr owns operand free]
  | .fetch _ _, _, free => by simp at free
  | .closure _ _ _, _, _ => rfl
  | .closureArrow _ _, _, _ => rfl

theorem values_congr (owns : first.owner = second.owner) : (es : List Expr) →
    (∀ kind ∈ exprParts es, kind.fetch? = none) → m.values first es = m.values second es
  | [], _ => rfl
  | e :: rest, free => by
      simp only [exprParts, List.forall_mem_append] at free
      simp only [values, meaning_congr owns e free.1, values_congr owns rest free.2]

theorem optionValues_congr (owns : first.owner = second.owner) : (e : Option Expr) →
    (∀ kind ∈ optionParts e, kind.fetch? = none) →
    m.optionValues first e = m.optionValues second e
  | none, _ => rfl
  | some e, free => by simp only [optionValues, meaning_congr owns e free]

theorem entryValues_congr (owns : first.owner = second.owner) : (entries : List ArrayEntry) →
    (∀ kind ∈ entryParts entries, kind.fetch? = none) →
    m.entryValues first entries = m.entryValues second entries
  | [], _ => rfl
  | ⟨key, value⟩ :: rest, free => by
      simp only [entryParts, List.forall_mem_append] at free
      simp only [entryValues, optionValues_congr owns key free.1.1,
        meaning_congr owns value free.1.2, entryValues_congr owns rest free.2]

end

end Machine

end Congruence

section Meaning

variable {V W : Type} {m : Machine V W}

open Machine

mutual

/-- What is hoisted does the fetches of the expression, and what is left of it means what it means
after they were done. -/
theorem LowersExpr.meaning_eq {e e' : Expr} {scope next : Scope} {before : List Statement} :
    LowersExpr e scope before e' next →
    (∀ kind ∈ e.parts, m.Follows kind) →
    m.DoesFetches scope before next e.parts ∧
      m.meaning m.php e' = m.meaning (m.fetchedBefore scope) e
  | .null, _ => ⟨(DoesFetches.nil m _).node rfl, rfl⟩
  | .literal _, _ => ⟨(DoesFetches.nil m _).node rfl, rfl⟩
  | .istring, _ => ⟨(DoesFetches.nil m _).node rfl, rfl⟩
  | .emptyArray, _ => ⟨(DoesFetches.nil m _).node rfl, rfl⟩
  | .var, _ => ⟨(DoesFetches.nil m _).node rfl, rfl⟩
  | .array lowered, follows => by
      simp only [Expr.parts, ExprKind.inner, List.forall_mem_append] at follows ⊢
      obtain ⟨does, keyed, same⟩ := lowered.meaning_eq follows.1
      refine ⟨does.node rfl, ?_⟩
      simp only [meaning, kindMeaning, keyed, same]
  | .staticAccess static, _ => by
      rcases static with rfl | rfl <;> exact ⟨(DoesFetches.nil m _).node rfl, rfl⟩
  | .property lowered, follows => by
      obtain ⟨does, same⟩ := lowered.meaning_eq (List.forall_mem_append.mp follows).1
      refine ⟨does.node rfl, ?_⟩
      simp only [meaning, kindMeaning, access, same]
  | .access computed object member, follows => by
      rcases computed with rfl | rfl
      all_goals
        simp only [Expr.parts, ExprKind.inner, List.forall_mem_append] at follows ⊢
        obtain ⟨does, same⟩ := object.meaning_eq follows.1.1
        obtain rfl := does.scope_eq
        obtain ⟨also, alike⟩ := member.meaning_eq follows.1.2
        refine ⟨(does.append also).node rfl, ?_⟩
        simp only [meaning, kindMeaning, access, same, alike]
  | .stringProperty _ _ _, follows => by
      have plain := (follows _ (List.mem_append_right _ (List.mem_singleton_self _))).1
      contradiction
  | .call lowered, follows => by
      obtain ⟨does, same⟩ := lowered.meaning_eq (List.forall_mem_append.mp follows).1
      refine ⟨does.node rfl, ?_⟩
      simp only [meaning, kindMeaning, same]
  | .methodCall receiver arguments object, follows => by
      simp only [Expr.parts, ExprKind.inner, List.forall_mem_append] at follows ⊢
      obtain ⟨does, same⟩ := receiver.meaning_eq follows.1.1
      obtain rfl := does.scope_eq
      obtain ⟨also, alike⟩ := arguments.meaning_eq follows.1.2
      refine ⟨(does.append also).node rfl, ?_⟩
      rw [receiver.primitiveOwner_eq] at object
      simp only [meaning, kindMeaning, same, alike, php_owner, fetchedBefore_owner, object]
  | .pseudoCall receiver arguments primitive translated, follows => by
      simp only [Expr.parts, ExprKind.inner, List.forall_mem_append] at follows ⊢
      obtain ⟨does, same⟩ := receiver.meaning_eq follows.1.1
      obtain rfl := does.scope_eq
      obtain ⟨also, alike⟩ := arguments.meaning_eq follows.1.2
      refine ⟨(does.append also).node rfl, ?_⟩
      obtain ⟨entry, known, rfl⟩ := pseudoCall_ok translated
      rw [receiver.primitiveOwner_eq] at primitive
      simp only [Expr.callOf, Expr.plain, meaning, kindMeaning, values_arguments, same, alike,
        fetchedBefore_owner, primitive, invoke, Option.bind_some, known]
  | .staticCall lowered, follows => by
      obtain ⟨does, same⟩ := lowered.meaning_eq (List.forall_mem_append.mp follows).1
      refine ⟨does.node rfl, ?_⟩
      simp only [meaning, kindMeaning, same]
  | .new lowered, follows => by
      obtain ⟨does, same⟩ := lowered.meaning_eq (List.forall_mem_append.mp follows).1
      refine ⟨does.node rfl, ?_⟩
      simp only [meaning, kindMeaning, same]
  | .newArray, _ => ⟨(DoesFetches.nil m _).node rfl, rfl⟩
  | .newString, _ => ⟨(DoesFetches.nil m _).node rfl, rfl⟩
  | .likely hint lowered, follows => by
      obtain ⟨does, same⟩ := lowered.meaning_eq (List.forall_mem_append.mp follows).1
      refine ⟨does.node rfl, ?_⟩
      rcases hint with rfl | rfl <;> exact same
  | .empty lowered, follows => by
      obtain ⟨does, same⟩ := lowered.meaning_eq (List.forall_mem_append.mp follows).1
      refine ⟨does.node rfl, ?_⟩
      simp only [Expr.callOf, Expr.plain, Expr.withType, meaning, kindMeaning, values, unary, same]
  | .ungroup lowered _, follows => by
      obtain ⟨does, same⟩ := lowered.meaning_eq (List.forall_mem_append.mp follows).1
      exact ⟨does.node rfl, same⟩
  | .group lowered _, follows => by
      obtain ⟨does, same⟩ := lowered.meaning_eq (List.forall_mem_append.mp follows).1
      exact ⟨does.node rfl, same⟩
  | .unary _ _ lowered, follows => by
      obtain ⟨does, same⟩ := lowered.meaning_eq (List.forall_mem_append.mp follows).1
      refine ⟨does.node rfl, ?_⟩
      simp only [meaning, kindMeaning, same]
  | .binary left right, follows => by
      simp only [Expr.parts, ExprKind.inner, List.forall_mem_append] at follows ⊢
      obtain ⟨does, same⟩ := left.meaning_eq follows.1.1
      obtain rfl := does.scope_eq
      obtain ⟨also, alike⟩ := right.meaning_eq follows.1.2
      refine ⟨(does.append also).node rfl, ?_⟩
      simp only [meaning, kindMeaning, same, alike]
  | .instanceOf lowered, follows => by
      obtain ⟨does, same⟩ := lowered.meaning_eq (List.forall_mem_append.mp follows).1
      refine ⟨does.node rfl, ?_⟩
      simp only [meaning, kindMeaning, same]
  | .range low high, follows => by
      simp only [Expr.parts, ExprKind.inner, List.forall_mem_append] at follows ⊢
      obtain ⟨does, same⟩ := low.meaning_eq follows.1.1
      obtain rfl := does.scope_eq
      obtain ⟨also, alike⟩ := high.meaning_eq follows.1.2
      refine ⟨(does.append also).node rfl, ?_⟩
      simp only [Expr.callOf, Expr.plain, Expr.withType, meaning, kindMeaning, values, same, alike]
  | .ternary condition yes no, follows => by
      simp only [Expr.parts, ExprKind.inner, List.forall_mem_append] at follows ⊢
      obtain ⟨does, same⟩ := condition.meaning_eq follows.1.1.1
      obtain rfl := does.scope_eq
      obtain ⟨doesYes, sameYes⟩ := yes.meaning_eq follows.1.1.2
      obtain rfl := doesYes.scope_eq
      obtain ⟨doesNo, sameNo⟩ := no.meaning_eq follows.1.2
      refine ⟨((does.append doesYes).append doesNo).node rfl, ?_⟩
      simp only [meaning, kindMeaning, same, sameYes, sameNo]
  | .cast lowered castable, follows => by
      obtain ⟨does, same⟩ := lowered.meaning_eq (List.forall_mem_append.mp follows).1
      refine ⟨does.node rfl, ?_⟩
      simp only [meaning, kindMeaning, castable, same]
  | .castHint lowered other, follows => by
      obtain ⟨does, same⟩ := lowered.meaning_eq (List.forall_mem_append.mp follows).1
      refine ⟨does.node rfl, ?_⟩
      simp only [meaning_withType, meaning, kindMeaning, other, same]
      simp
  | .typeHint lowered _, follows => by
      obtain ⟨does, same⟩ := lowered.meaning_eq (List.forall_mem_append.mp follows).1
      refine ⟨does.node rfl, ?_⟩
      simp only [meaning_withType, meaning, kindMeaning, same]
  | .strayHint lowered _, follows => by
      obtain ⟨does, same⟩ := lowered.meaning_eq (List.forall_mem_append.mp follows).1
      exact ⟨does.node rfl, same⟩
  | .fetch named lowered, follows => by
      obtain ⟨does, same⟩ := lowered.meaning_eq (List.forall_mem_append.mp follows).1
      refine ⟨does.fetch named same, ?_⟩
      simp only [meaning, kindMeaning, named, fetchedBefore_fetch]
      rfl
  | .notFetch named lowered, follows => by
      simp only [Expr.parts, ExprKind.inner, List.forall_mem_append] at follows ⊢
      obtain ⟨does, same⟩ := lowered.meaning_eq follows.1.1
      refine ⟨(does.fetch named same).node rfl, ?_⟩
      simp only [meaning, kindMeaning, named, fetchedBefore_fetch, unary, plain, Option.getD_some,
        negate_found]
      rfl
  | whole@(.closure _), follows => by
      have kept := (follows _ (List.mem_singleton_self _)).2 rfl _ _ _ _ _ _ _ whole
      refine ⟨(DoesFetches.nil m _).node rfl, ?_⟩
      simp only [meaning, kindMeaning, m.apply_eq_of_perform_eq kept]
  | whole@(.closureArrow _ _), follows => by
      have kept := (follows _ (List.mem_singleton_self _)).2 rfl _ _ _ _ _ _ _ whole
      refine ⟨(DoesFetches.nil m _).node rfl, ?_⟩
      simp only [meaning, kindMeaning, m.apply_eq_of_perform_eq kept]

theorem LowersExprs.meaning_eq {es es' : List Expr} {scope next : Scope}
    {before : List Statement} : LowersExprs es scope before es' next →
    (∀ kind ∈ exprParts es, m.Follows kind) →
    m.DoesFetches scope before next (exprParts es) ∧
      m.values m.php es' = m.values (m.fetchedBefore scope) es
  | .nil, _ => ⟨DoesFetches.nil m _, rfl⟩
  | .cons first rest, follows => by
      simp only [exprParts, List.forall_mem_append] at follows ⊢
      obtain ⟨does, same⟩ := first.meaning_eq follows.1
      obtain rfl := does.scope_eq
      obtain ⟨also, alike⟩ := rest.meaning_eq follows.2
      refine ⟨does.append also, ?_⟩
      simp only [values, same, alike]

theorem LowersOption.meaning_eq {e e' : Option Expr} {scope next : Scope}
    {before : List Statement} : LowersOption e scope before e' next →
    (∀ kind ∈ optionParts e, m.Follows kind) →
    m.DoesFetches scope before next (optionParts e) ∧ e'.isSome = e.isSome ∧
      m.optionValues m.php e' = m.optionValues (m.fetchedBefore scope) e
  | .none, _ => ⟨DoesFetches.nil m _, rfl, rfl⟩
  | .some lowered, follows => by
      obtain ⟨does, same⟩ := lowered.meaning_eq follows
      refine ⟨does, rfl, ?_⟩
      simp only [optionValues, same]

theorem LowersEntries.meaning_eq {entries entries' : List ArrayEntry} {scope next : Scope}
    {before : List Statement} : LowersEntries entries scope before entries' next →
    (∀ kind ∈ entryParts entries, m.Follows kind) →
    m.DoesFetches scope before next (entryParts entries) ∧
      entries'.map (·.key.isSome) = entries.map (·.key.isSome) ∧
      m.entryValues m.php entries' = m.entryValues (m.fetchedBefore scope) entries
  | .nil, _ => ⟨DoesFetches.nil m _, rfl, rfl⟩
  | .cons key value rest, follows => by
      simp only [entryParts, List.forall_mem_append] at follows ⊢
      obtain ⟨doesKey, keyed, sameKey⟩ := key.meaning_eq follows.1.1
      obtain rfl := doesKey.scope_eq
      obtain ⟨doesValue, sameValue⟩ := value.meaning_eq follows.1.2
      obtain rfl := doesValue.scope_eq
      obtain ⟨doesRest, keyedRest, sameRest⟩ := rest.meaning_eq follows.2
      refine ⟨(doesKey.append doesValue).append doesRest, ?_, ?_⟩
      · simp only [List.map_cons, keyed, keyedRest]
      · simp only [entryValues, sameKey, sameValue, sameRest]

end

theorem LowersExpr.meaning_of_hoistFree {e e' : Expr} {scope next : Scope}
    {before : List Statement} (lowered : LowersExpr e scope before e' next)
    (free : HoistFree e.parts) (closures : ∀ kind ∈ e.parts, m.KeepsClosure kind) :
    m.meaning m.php e' = m.meaning (m.zephir scope) e := by
  have quiet : ∀ kind ∈ e.parts, kind.isStringProperty = false ∧ kind.fetch? = none := by
    simpa [HoistFree, ExprKind.hoists] using free
  rw [(lowered.meaning_eq fun kind inside => ⟨(quiet kind inside).1, closures kind inside⟩).2]
  have owns : (m.fetchedBefore scope).owner = (m.zephir scope).owner := rfl
  exact meaning_congr owns e fun kind inside => (quiet kind inside).2

end Meaning

/-! ### A machine that counts -/

def countingMachine : Machine (Option Nat) Unit where
  null := none
  truthy value := value.any (0 < ·)
  ofBool b := some b.toNat
  equals left right := left == right
  perform op operands s :=
    match op, operands with
    | .access .element, [some length, some index] =>
      (if index < length then some index else none, s)
    | .issetAccess .element, [some length, some index] => (some (decide (index < length)).toNat, s)
    | _, _ => (none, s)
  truthy_ofBool b := by cases b <;> rfl

def elementOf (array index : String) : Expr :=
  .plain (.access .element (.var array {}) (.var index {})) {}

def fetchFrom (target array index : String) : Expr :=
  .plain (.fetch (.var target {}) (elementOf array index)) {}

theorem countingMachine_keepsClosure (kind : ExprKind) : countingMachine.KeepsClosure kind :=
  fun _ _ _ _ _ _ _ _ _ => rfl

end Zephir
