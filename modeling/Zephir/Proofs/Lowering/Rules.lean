import Zephir.Proofs.Lowering.Runs

/-!
The runs of lowering as a relation. There is one rule for each thing lowering does to a node: what
it lowers of the node and in which order, the statements it puts in front, the node that comes out,
and how the scope changes. Every successful run is derived by these rules, so what holds of all
derivations holds of all runs.
-/

namespace Zephir

open Lowering

def headDocs (docblocks : List Docblock) : List Statement → List Statement
  | [] => []
  | s :: rest => s.prependDocs docblocks :: rest

mutual

/-- An expression in a scope, the statements hoisted out of it, what it becomes, and the scope after
it. -/
inductive LowersExpr : Expr → Scope → List Statement → Expr → Scope → Prop
  | null {pos dataType doCast scope} :
      LowersExpr ⟨.null, pos, dataType, doCast⟩ scope [] ⟨.null, pos, dataType, doCast⟩ scope
  | literal {kind text pos dataType doCast scope} (plain : kind ≠ .istring) :
      LowersExpr ⟨.literal kind text, pos, dataType, doCast⟩ scope []
        ⟨.literal kind text, pos, dataType, doCast⟩ scope
  | istring {text pos dataType doCast scope} :
      LowersExpr ⟨.literal .istring text, pos, dataType, doCast⟩ scope []
        ⟨.literal .string text, pos, dataType, doCast⟩ scope
  | emptyArray {pos dataType doCast scope} :
      LowersExpr ⟨.emptyArray, pos, dataType, doCast⟩ scope []
        ⟨.emptyArray, pos, dataType, doCast⟩ scope
  | array {entries entries' pos dataType doCast scope before next}
      (lowered : LowersEntries entries scope before entries' next) :
      LowersExpr ⟨.array entries, pos, dataType, doCast⟩ scope before
        ⟨.array entries', pos, dataType, doCast⟩ next
  | var {name pos dataType doCast scope} :
      LowersExpr ⟨.var name, pos, dataType, doCast⟩ scope []
        ⟨.var name, pos, scope.typeOf? name <|> dataType, doCast⟩ scope
  | staticAccess {kind object member pos dataType doCast scope}
      (static : kind = .staticProperty ∨ kind = .classConstant) :
      LowersExpr ⟨.access kind object member, pos, dataType, doCast⟩ scope []
        ⟨.access kind object member, pos, dataType, doCast⟩ scope
  | property {object object' member pos dataType doCast scope before next}
      (lowered : LowersExpr object scope before object' next) :
      LowersExpr ⟨.access .property object member, pos, dataType, doCast⟩ scope before
        ⟨.access .property object' member, pos, dataType, doCast⟩ next
  | access {kind object object' member member' pos dataType doCast scope first mid second next}
      (computed : kind = .element ∨ kind = .dynamicProperty)
      (loweredObject : LowersExpr object scope first object' mid)
      (loweredMember : LowersExpr member mid second member' next) :
      LowersExpr ⟨.access kind object member, pos, dataType, doCast⟩ scope (first ++ second)
        ⟨.access kind object' member', pos, dataType, doCast⟩ next
  | stringProperty {object object' member member' name pos dataType doCast scope first mid second
      last next}
      (loweredObject : LowersExpr object scope first object' mid)
      (loweredMember : LowersExpr member mid second member' last)
      (fresh : last.temporary? "string" pos = some (name, next)) :
      LowersExpr ⟨.access .stringProperty object member, pos, dataType, doCast⟩ scope
        (first ++ second ++ [.assignTo name member' pos])
        ⟨.access .dynamicProperty object' ((Expr.var name pos).withType "string"), pos, dataType,
          doCast⟩ next
  | call {name callType arguments arguments' pos dataType doCast scope before next}
      (lowered : LowersExprs arguments scope before arguments' next) :
      LowersExpr ⟨.call name callType arguments, pos, dataType, doCast⟩ scope before
        ⟨.call name callType arguments', pos, dataType, doCast⟩ next
  | methodCall {receiver receiver' name callType arguments arguments' pos dataType doCast scope
      first mid second next}
      (loweredReceiver : LowersExpr receiver scope first receiver' mid)
      (loweredArguments : LowersExprs arguments mid second arguments' next)
      (object : primitiveOwner? receiver' = none) :
      LowersExpr ⟨.methodCall receiver name callType arguments, pos, dataType, doCast⟩ scope
        (first ++ second) ⟨.methodCall receiver' name callType arguments', pos, dataType, doCast⟩
        next
  | pseudoCall {receiver receiver' name callType arguments arguments' pos dataType doCast scope
      first mid second next owner called}
      (loweredReceiver : LowersExpr receiver scope first receiver' mid)
      (loweredArguments : LowersExprs arguments mid second arguments' next)
      (primitive : primitiveOwner? receiver' = some owner)
      (translated : Zephir.pseudoCall owner name receiver' arguments' pos = .ok called) :
      LowersExpr ⟨.methodCall receiver name callType arguments, pos, dataType, doCast⟩ scope
        (first ++ second) called next
  | staticCall {callee arguments arguments' pos dataType doCast scope before next}
      (lowered : LowersExprs arguments scope before arguments' next) :
      LowersExpr ⟨.staticCall callee arguments, pos, dataType, doCast⟩ scope before
        ⟨.staticCall callee arguments', pos, dataType, doCast⟩ next
  | new {className dynamic arguments arguments' pos dataType doCast scope before next}
      (lowered : LowersExprs arguments scope before arguments' next) :
      LowersExpr ⟨.new className dynamic arguments, pos, dataType, doCast⟩ scope before
        ⟨.new className dynamic arguments', pos, dataType, doCast⟩ next
  | newArray {arguments pos dataType doCast scope} :
      LowersExpr ⟨.newType "array" arguments, pos, dataType, doCast⟩ scope []
        ((Expr.plain .emptyArray pos).withType "array") scope
  | newString {arguments pos dataType doCast scope} :
      LowersExpr ⟨.newType "string" arguments, pos, dataType, doCast⟩ scope []
        ((Expr.str "" pos).withType "string") scope
  | likely {op operand operand' pos dataType doCast scope before next}
      (hint : op = .likely ∨ op = .unlikely)
      (lowered : LowersExpr operand scope before operand' next) :
      LowersExpr ⟨.unary op operand, pos, dataType, doCast⟩ scope before operand' next
  | empty {operand operand' pos dataType doCast scope before next}
      (lowered : LowersExpr operand scope before operand' next) :
      LowersExpr ⟨.unary .empty operand, pos, dataType, doCast⟩ scope before
        ((Expr.callOf "zephir_isempty" [operand'] pos).withType "bool") next
  | ungroup {operand operand' pos dataType doCast scope before next}
      (lowered : LowersExpr operand scope before operand' next)
      (primary : operand'.kind.isPrimary = true) :
      LowersExpr ⟨.unary .group operand, pos, dataType, doCast⟩ scope before operand' next
  | group {operand operand' pos dataType doCast scope before next}
      (lowered : LowersExpr operand scope before operand' next)
      (compound : operand'.kind.isPrimary = false) :
      LowersExpr ⟨.unary .group operand, pos, dataType, doCast⟩ scope before
        ⟨.unary .group operand', pos, dataType, doCast⟩ next
  | unary {op operand operand' pos dataType doCast scope before next}
      (plain : op ≠ .likely ∧ op ≠ .unlikely ∧ op ≠ .empty ∧ op ≠ .group)
      (noFetch : op = .not → ∀ target source, operand.kind ≠ .fetch target source)
      (lowered : LowersExpr operand scope before operand' next) :
      LowersExpr ⟨.unary op operand, pos, dataType, doCast⟩ scope before
        ⟨.unary op operand', pos, dataType, doCast⟩ next
  | binary {op left left' right right' pos dataType doCast scope first mid second next}
      (loweredLeft : LowersExpr left scope first left' mid)
      (loweredRight : LowersExpr right mid second right' next) :
      LowersExpr ⟨.binary op left right, pos, dataType, doCast⟩ scope (first ++ second)
        ⟨.binary op left' right', pos, dataType, doCast⟩ next
  | instanceOf {value value' className pos dataType doCast scope before next}
      (lowered : LowersExpr value scope before value' next) :
      LowersExpr ⟨.instanceOf value className, pos, dataType, doCast⟩ scope before
        ⟨.instanceOf value' className, pos, dataType, doCast⟩ next
  | range {kind low low' high high' pos dataType doCast scope first mid second next}
      (loweredLow : LowersExpr low scope first low' mid)
      (loweredHigh : LowersExpr high mid second high' next) :
      LowersExpr ⟨.range kind low high, pos, dataType, doCast⟩ scope (first ++ second)
        ((Expr.callOf (if kind = .inclusive then "range" else "zephir_erange") [low', high']
          pos).withType "array") next
  | ternary {condition condition' yes yes' no no' pos dataType doCast scope first mid second last
      third next}
      (loweredCondition : LowersExpr condition scope first condition' mid)
      (loweredYes : LowersExpr yes mid second yes' last)
      (loweredNo : LowersExpr no last third no' next) :
      LowersExpr ⟨.ternary condition yes no, pos, dataType, doCast⟩ scope
        (first ++ second ++ third) ⟨.ternary condition' yes' no', pos, dataType, doCast⟩ next
  | cast {typeName operand operand' pos dataType doCast scope before next}
      (lowered : LowersExpr operand scope before operand' next)
      (castable : castTypes.contains typeName = true) :
      LowersExpr ⟨.cast typeName operand, pos, dataType, doCast⟩ scope before
        ⟨.cast typeName operand', pos, some typeName, true⟩ next
  | castHint {typeName operand operand' pos dataType doCast scope before next}
      (lowered : LowersExpr operand scope before operand' next)
      (other : castTypes.contains typeName = false) :
      LowersExpr ⟨.cast typeName operand, pos, dataType, doCast⟩ scope before
        (operand'.withType typeName) next
  | typeHint {hint operand operand' name pos dataType doCast scope before next}
      (lowered : LowersExpr operand scope before operand' next) (named : hint.name? = some name) :
      LowersExpr ⟨.typeHint hint operand, pos, dataType, doCast⟩ scope before
        (operand'.withType name) next
  | strayHint {hint operand operand' pos dataType doCast scope before next}
      (lowered : LowersExpr operand scope before operand' next) (unnamed : hint.name? = none) :
      LowersExpr ⟨.typeHint hint operand, pos, dataType, doCast⟩ scope before operand' next
  | fetch {target source source' name pos dataType doCast scope before next}
      (named : target.asVar? = some name) (lowered : LowersExpr source scope before source' next) :
      LowersExpr ⟨.fetch target source, pos, dataType, doCast⟩ scope
        (before ++ [.assignTo name (fetchedValue source' pos) target.pos])
        ⟨.binary .notEquals ⟨.var name, target.pos, next.typeOf? name, false⟩ (.nullAt pos), pos,
          dataType, doCast⟩ next
  | notFetch {target source source' name fetchPos fetchType fetchCast pos dataType doCast scope
      before next}
      (named : target.asVar? = some name) (lowered : LowersExpr source scope before source' next) :
      LowersExpr
        ⟨.unary .not ⟨.fetch target source, fetchPos, fetchType, fetchCast⟩, pos, dataType, doCast⟩
        scope (before ++ [.assignTo name (fetchedValue source' fetchPos) target.pos])
        ⟨.binary .equals ⟨.var name, target.pos, next.typeOf? name, false⟩ (.nullAt fetchPos), pos,
          dataType, doCast⟩ next
  | closure {parameters body body' locals pos dataType doCast scope inner}
      (lowered : LowersBlock body { locals, parameters } body' inner) :
      LowersExpr ⟨.closure parameters body locals, pos, dataType, doCast⟩ scope []
        ⟨.closure parameters body' inner.locals, pos, dataType, doCast⟩ scope
  | closureArrow {parameter body body' name pos dataType doCast scope before inner}
      (named : parameter.asVar? = some name)
      (lowered : LowersExpr body
        { locals := .empty, parameters := [{ name, dataType := "variable", pos := parameter.pos }] }
        before body' inner) :
      LowersExpr ⟨.closureArrow parameter body, pos, dataType, doCast⟩ scope []
        ⟨.closure [{ name, dataType := "variable", pos := parameter.pos }]
          (before ++ [{ kind := .ret (some body'), pos := body'.pos }]) inner.locals, pos, dataType,
          doCast⟩ scope

inductive LowersExprs : List Expr → Scope → List Statement → List Expr → Scope → Prop
  | nil {scope} : LowersExprs [] scope [] [] scope
  | cons {e e' rest rest' scope first mid second next}
      (lowered : LowersExpr e scope first e' mid)
      (loweredRest : LowersExprs rest mid second rest' next) :
      LowersExprs (e :: rest) scope (first ++ second) (e' :: rest') next

inductive LowersOption : Option Expr → Scope → List Statement → Option Expr → Scope → Prop
  | none {scope} : LowersOption none scope [] none scope
  | some {e e' scope before next} (lowered : LowersExpr e scope before e' next) :
      LowersOption (some e) scope before (some e') next

inductive LowersEntries :
    List ArrayEntry → Scope → List Statement → List ArrayEntry → Scope → Prop
  | nil {scope} : LowersEntries [] scope [] [] scope
  | cons {key key' value value' rest rest' scope first mid second last third next}
      (loweredKey : LowersOption key scope first key' mid)
      (loweredValue : LowersExpr value mid second value' last)
      (loweredRest : LowersEntries rest last third rest' next) :
      LowersEntries (⟨key, value⟩ :: rest) scope (first ++ second ++ third)
        (⟨key', value'⟩ :: rest') next

/-- A block; each statement gives the next stretch of the lowered block. -/
inductive LowersBlock : List Statement → Scope → List Statement → Scope → Prop
  | nil {scope} : LowersBlock [] scope [] scope
  | cons {s stretch rest rest' scope mid next} (lowered : LowersStatement s scope stretch mid)
      (loweredRest : LowersBlock rest mid rest' next) :
      LowersBlock (s :: rest) scope (stretch ++ rest') next

inductive LowersStatement : Statement → Scope → List Statement → Scope → Prop
  | mk {kind kind' pos docblocks scope before next}
      (lowered : LowersKind pos kind scope before kind' next) :
      LowersStatement ⟨kind, pos, docblocks⟩ scope
        (headDocs docblocks (before ++ (kind'.map fun kind => ⟨kind, pos, []⟩).toList)) next

/-- What a statement at the place does, the statements hoisted in front of it, and what is left of
it. -/
inductive LowersKind :
    Position → StatementKind → Scope → List Statement → Option StatementKind → Scope → Prop
  | lets {pos assignments scope before next} (lowered : LowersLets assignments scope before next) :
      LowersKind pos (.lets assignments) scope before none next
  | declare {pos dataType declared scope before next}
      (lowered : LowersInitial declared
        { scope with locals := scope.locals.insertAll (declaredLocals dataType declared) }
        before next) :
      LowersKind pos (.declare dataType declared) scope before none next
  | fetch {pos target source source' name fetchPos dataType doCast scope before next}
      (named : target.asVar? = some name) (lowered : LowersExpr source scope before source' next) :
      LowersKind pos (.fetch ⟨.fetch target source, fetchPos, dataType, doCast⟩) scope
        (before ++ [.assignTo name (fetchedValue source' fetchPos) target.pos]) none next
  | assign {pos mode assign assign' scope before next}
      (lowered : LowersAssign assign scope before assign' next) :
      LowersKind pos (.assign mode assign) scope before (some (.assign mode assign')) next
  | echo {pos expressions expressions' scope before next}
      (lowered : LowersExprs expressions scope before expressions' next) :
      LowersKind pos (.echo expressions) scope before (some (.echo expressions')) next
  | effect {pos kind e e' scope before next} (lowered : LowersExpr e scope before e' next)
      (unlike : kind = .methodCall → ∀ name callType arguments,
        e'.kind ≠ .call name callType arguments) :
      LowersKind pos (.effect kind e) scope before (some (.effect kind e')) next
  | effectCall {pos e e' name callType arguments scope before next}
      (lowered : LowersExpr e scope before e' next)
      (call : e'.kind = .call name callType arguments) :
      LowersKind pos (.effect .methodCall e) scope before (some (.effect .call e')) next
  | ret {pos value value' scope before next}
      (lowered : LowersOption value scope before value' next) :
      LowersKind pos (.ret value) scope before (some (.ret value')) next
  | jump {pos kind scope} : LowersKind pos (.jump kind) scope [] (some (.jump kind)) scope
  | empty {pos scope} : LowersKind pos .empty scope [] (some .empty) scope
  | branch {pos condition condition' body body' elseIfs elseIfs' otherwise otherwise' scope first
      mid last second rest next}
      (loweredCondition : LowersExpr condition scope first condition' mid)
      (loweredBody : LowersBlock body mid body' last)
      (loweredElseIfs : LowersElseIfs elseIfs last second elseIfs' rest)
      (loweredOtherwise : LowersOtherwise otherwise rest otherwise' next) :
      LowersKind pos (.branch condition body elseIfs otherwise) scope (first ++ second)
        (some (.branch condition' body' elseIfs' otherwise')) next
  | whileLoop {pos kind condition condition' body body' scope before mid next}
      (loweredCondition : LowersExpr condition scope before condition' mid)
      (loweredBody : LowersBlock body mid body' next) :
      LowersKind pos (.whileLoop kind condition body) scope before
        (some (.whileLoop kind condition' body')) next
  | loop {pos body body' scope next} (loweredBody : LowersBlock body scope body' next) :
      LowersKind pos (.loop body) scope [] (some (.loop body')) next
  | forLoop {pos head key value iterated iterated' start body body' scope named first mid second
      last next}
      (names : (loopNames head pos).Runs scope [] (key, value) named)
      (loweredIterated : LowersExpr iterated named first iterated' mid)
      (starts : (loopStart head key value iterated' pos).Runs mid second start last)
      (loweredBody : LowersBlock body last body' next) :
      LowersKind pos (.forLoop head iterated body) scope (first ++ second)
        (some (.forLoop start.head start.iterated (start.opening ++ body'))) next
  | switch {pos subject subject' clauses clauses' scope first mid second next}
      (loweredSubject : LowersExpr subject scope first subject' mid)
      (loweredClauses : LowersClauses clauses mid second clauses' next) :
      LowersKind pos (.switch subject clauses) scope (first ++ second)
        (some (.switch subject' clauses')) next
  | tryAlone {pos body body' name scope mid next} (loweredBody : LowersBlock body scope body' mid)
      (fresh : mid.temporary? "variable" pos = some (name, next)) :
      LowersKind pos (.tryCatch body []) scope []
        (some (.tryCatch body' (splitCatch [baseException pos] (.var name pos) [] pos))) next
  | tryCatch {pos body body' clause catches catches' scope mid next}
      (loweredBody : LowersBlock body scope body' mid)
      (loweredCatches : LowersCatches (clause :: catches) mid catches' next) :
      LowersKind pos (.tryCatch body (clause :: catches)) scope []
        (some (.tryCatch body' catches')) next
  | comment {pos text scope} : LowersKind pos (.comment text) scope [] (some (.comment text)) scope
  | cblock {pos text scope} : LowersKind pos (.cblock text) scope [] none scope

inductive LowersAssign : Assign → Scope → List Statement → Assign → Scope → Prop
  | mk {target operator base property index index' value value' scope first mid second next}
      (loweredValue : LowersOption value scope first value' mid)
      (loweredIndex : LowersExprs index mid second index' next) :
      LowersAssign ⟨target, operator, base, property, index, value⟩ scope (first ++ second)
        ⟨target, operator, base, property, index', value'⟩ next

inductive LowersLets : List LetAssignment → Scope → List Statement → Scope → Prop
  | nil {scope} : LowersLets [] scope [] scope
  | cons {target operator base property index index' value value' pos rest mode location scope
      opening named first mid second last later next}
      (resolved : (resolveTarget ⟨target, operator, base, property, [], none⟩ pos).Runs scope
        opening (mode, location) named)
      (loweredValue : LowersOption value named first value' mid)
      (loweredIndex : LowersExprs index mid second index' last)
      (loweredRest : LowersLets rest last later next) :
      LowersLets (⟨⟨target, operator, base, property, index, value⟩, pos⟩ :: rest) scope
        (opening ++ (first ++ second ++
          [⟨.assign mode { location with index := index', value := value' }, pos, []⟩]) ++ later)
        next

inductive LowersInitial : List DeclaredVariable → Scope → List Statement → Scope → Prop
  | nil {scope} : LowersInitial [] scope [] scope
  | unset {name pos rest scope later next} (loweredRest : LowersInitial rest scope later next) :
      LowersInitial (⟨name, none, pos⟩ :: rest) scope later next
  | set {name value value' pos rest scope before mid later next}
      (loweredValue : LowersExpr value scope before value' mid)
      (loweredRest : LowersInitial rest mid later next) :
      LowersInitial (⟨name, some value, pos⟩ :: rest) scope
        (before ++ [.assignTo name value' pos] ++ later) next

inductive LowersElseIfs : List ElseIf → Scope → List Statement → List ElseIf → Scope → Prop
  | nil {scope} : LowersElseIfs [] scope [] [] scope
  | cons {condition condition' body body' pos rest rest' scope first mid last second next}
      (loweredCondition : LowersExpr condition scope first condition' mid)
      (loweredBody : LowersBlock body mid body' last)
      (loweredRest : LowersElseIfs rest last second rest' next) :
      LowersElseIfs (⟨condition, body, pos⟩ :: rest) scope (first ++ second)
        (⟨condition', body', pos⟩ :: rest') next

inductive LowersOtherwise :
    Option (List Statement) → Scope → Option (List Statement) → Scope → Prop
  | none {scope} : LowersOtherwise none scope none scope
  | some {body body' scope next} (loweredBody : LowersBlock body scope body' next) :
      LowersOtherwise (some body) scope (some body') next

inductive LowersClauses :
    List SwitchClause → Scope → List Statement → List SwitchClause → Scope → Prop
  | nil {scope} : LowersClauses [] scope [] [] scope
  | cons {test test' body body' rest rest' scope first mid last second next}
      (loweredTest : LowersOption test scope first test' mid)
      (loweredBody : LowersBlock body mid body' last)
      (loweredRest : LowersClauses rest last second rest' next) :
      LowersClauses (⟨test, body⟩ :: rest) scope (first ++ second) (⟨test', body'⟩ :: rest') next

inductive LowersCatches : List Catch → Scope → List Catch → Scope → Prop
  | nil {scope} : LowersCatches [] scope [] scope
  | cons {classes binding binding' body body' pos rest rest' scope mid last next}
      (loweredBody : LowersBlock body scope body' mid)
      (bound : (catchBinding binding pos).Runs mid [] binding' last)
      (loweredRest : LowersCatches rest last rest' next) :
      LowersCatches (⟨classes, binding, body, pos⟩ :: rest) scope
        (splitCatch (if classes.isEmpty then [baseException pos] else classes) binding' body' pos ++
          rest') next

end

end Zephir
