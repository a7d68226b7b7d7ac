import Zephir.Proofs.Compile.Phases
import Zephir.Proofs.Php.Leftovers

/-!
Which texts are compiled into units without the forms of sources. Bodies are lowered and their
comments attached, but the values that the phases leave alone are printed as they were loaded: those
of constants, properties and parameters, `require` on the top level, lists of interfaces, and the
comments in closures.
-/

namespace Zephir

variable {c : Check}

theorem addMembers_ok {α : Type} {group : MemberSection} {name : α → String} {pos : α → Position}
    {added : List α} {map map' : OrderedMap α}
    (ran : addMembers group name pos map added = .ok map') :
    map'.values = map.values ++ added := by
  induction added generalizing map with
  | nil =>
      cases ran
      simp
  | cons member rest ih =>
      rw [addMembers] at ran
      split at ran
      · contradiction
      · rename_i missing
        rw [ih ran,
          OrderedMap.values_insert_of_notMem (OrderedMap.notMem_keys_of_get? missing)]
        simp

theorem settledMethod_compact (method : Method) :
    SettledMethod c method.compact ↔ SettledMethod c method :=
  and_congr_right' (settledBlock_compactBlock method.body)

theorem Members.compact_ok {owner made : Members} {dropped : List Position}
    (ran : owner.compact = .ok (made, dropped)) :
    made.definition = none ∧ (SettledMembers c made ↔ SettledMembers c owner) := by
  obtain ⟨definition, constants, properties, methods⟩ := owner
  cases definition with
  | none =>
      cases ran
      exact ⟨rfl, Iff.rfl⟩
  | some raw =>
      obtain ⟨constants', ranConstants, ran⟩ := except_bind_ok ran
      obtain ⟨properties', ranProperties, ran⟩ := except_bind_ok ran
      obtain ⟨methods', ranMethods, built⟩ := except_bind_ok ran
      cases built
      have sameConstants : constants'.values = raw.constants := addMembers_ok ranConstants
      have sameProperties : properties'.values = raw.properties := addMembers_ok ranProperties
      have sameMethods : methods'.values = raw.methods := addMembers_ok ranMethods
      have compacted : (methods'.mapValues Method.compact).values =
          raw.methods.map Method.compact := by
        rw [← sameMethods]
        simp [OrderedMap.mapValues, OrderedMap.values]
      have settledMethods : (∀ method ∈ (methods'.mapValues Method.compact).values,
          SettledMethod c method) ↔ ∀ method ∈ raw.methods, SettledMethod c method := by
        rw [compacted]
        simp [settledMethod_compact]
      refine ⟨rfl, ?_⟩
      constructor
      · rintro ⟨everyConstants, everyProperties, everyMethods⟩
        change ∀ constant ∈ constants'.values, _ at everyConstants
        change ∀ property ∈ properties'.values, _ at everyProperties
        rw [sameConstants] at everyConstants
        rw [sameProperties] at everyProperties
        exact ⟨everyConstants, everyProperties, settledMethods.mp everyMethods⟩
      · rintro ⟨everyConstants, everyProperties, everyMethods⟩
        change ∀ constant ∈ raw.constants, _ at everyConstants
        change ∀ property ∈ raw.properties, _ at everyProperties
        rw [← sameConstants] at everyConstants
        rw [← sameProperties] at everyProperties
        exact ⟨everyConstants, everyProperties, settledMethods.mpr everyMethods⟩

theorem Node.compact_ok {node : Node} {made : Option Node} {dropped : List Position}
    (ran : node.compact = .ok (made, dropped)) :
    (∀ out ∈ made, out.kind.IsCompact) ∧
      ((∀ out ∈ made, SettledNode c out.kind) ↔ SettledNode c node.kind) := by
  obtain ⟨kind, pos, docblocks⟩ := node
  cases kind with
  | functionDecl decl =>
      cases ran
      simp [NodeKind.IsCompact, SettledNode, Function.compact, settledBlock_compactBlock]
  | classDecl decl =>
      obtain ⟨⟨members, places⟩, ranMembers, built⟩ := except_bind_ok ran
      cases built
      obtain ⟨compact, settled⟩ := Members.compact_ok (c := c) ranMembers
      simp [NodeKind.IsCompact, SettledNode, compact, settled]
  | interfaceDecl decl =>
      obtain ⟨⟨members, places⟩, ranMembers, built⟩ := except_bind_ok ran
      cases built
      obtain ⟨compact, settled⟩ := Members.compact_ok (c := c) ranMembers
      simp [NodeKind.IsCompact, SettledNode, compact, settled]
  | _ =>
      cases ran
      simp [NodeKind.IsCompact, SettledNode]

theorem compact_ok {unit made : List Node} {collector collector' : Collector}
    (ran : compact unit collector = .ok (made, collector')) :
    (∀ node ∈ made, node.kind.IsCompact) ∧ (SettledUnit c made ↔ SettledUnit c unit) := by
  induction unit generalizing made collector with
  | nil =>
      cases ran
      simp [SettledUnit]
  | cons node rest ih =>
      rw [compact] at ran
      obtain ⟨⟨out, dropped⟩, ranNode, ran⟩ := except_bind_ok ran
      obtain ⟨⟨others, collected⟩, ranRest, built⟩ := except_bind_ok ran
      cases built
      obtain ⟨compactFirst, settledFirst⟩ := Node.compact_ok (c := c) ranNode
      obtain ⟨compactRest, settledRest⟩ := ih ranRest
      unfold SettledUnit at *
      refine ⟨?_, ?_⟩
      · rw [List.forall_mem_append]
        exact ⟨by simpa using compactFirst, compactRest⟩
      · rw [List.forall_mem_append, List.forall_mem_cons, settledRest, ← settledFirst]
        simp

theorem compileUnit_ok {unit : List Node} {compiled : Compiled}
    (ran : compileUnit unit = .ok compiled) :
    ∃ compacted collector queue, compact unit {} = .ok (compacted, collector) ∧
      Phase.run standardPhases compacted [] = .ok (compiled.unit, queue) := by
  unfold compileUnit at ran
  split at ran
  · contradiction
  · rename_i compacted collector ranCompact
    split at ran
    · contradiction
    · rename_i unit ranStandard
      obtain ⟨⟨made, queue⟩, ranPhases, built⟩ := except_bind_ok ranStandard
      cases built
      cases finished : collector.finish with
      | error refusal =>
          rw [finished] at ran
          contradiction
      | ok warnings =>
          rw [finished] at ran
          cases ran
          exact ⟨compacted, collector, queue, ranCompact, ranPhases⟩

theorem compile_ok {text : String} {compiled : Compiled} (ran : compile text = .ok compiled) :
    ∃ unit compacted collector queue, load text = .ok unit ∧
      compact unit {} = .ok (compacted, collector) ∧
      Phase.run standardPhases compacted [] = .ok (compiled.unit, queue) := by
  unfold compile at ran
  split at ran
  · contradiction
  · contradiction
  · rename_i unit loaded
    cases ranUnit : compileUnit unit with
    | error refusal => simp [ranUnit, Except.mapError] at ran
    | ok result =>
        simp only [ranUnit, Except.mapError, Except.ok.injEq] at ran
        subst ran
        obtain ⟨compacted, collector, queue, ranCompact, ranPhases⟩ := compileUnit_ok ranUnit
        exact ⟨unit, compacted, collector, queue, loaded, ranCompact, ranPhases⟩

theorem compile_every_iff (accepts : c.AcceptsLowered) {text : String} {compiled : Compiled}
    (ran : compile text = .ok compiled) :
    ∃ unit, load text = .ok unit ∧ (EveryUnit c compiled.unit ↔ SettledUnit c unit) := by
  obtain ⟨unit, compacted, collector, queue, loaded, ranCompact, ranPhases⟩ := compile_ok ran
  obtain ⟨isCompact, settled⟩ := compact_ok (c := c) ranCompact
  exact ⟨unit, loaded, (run_every_iff accepts isCompact ranPhases).trans settled⟩

theorem printable_acceptsLowered : Check.printable.AcceptsLowered where
  expr _ lowered := lowered
  statement _ lowered := lowered
  assign _ _ _ := trivial
  loop _ _ := trivial
  handlers _ _ := trivial

/-- A text that compiles leaves no form of sources in the unit exactly if there was none in what
compilation keeps, and then rendering never stops at one. -/
theorem compile_printable {text : String} {compiled : Compiled}
    (ran : compile text = .ok compiled) :
    ∃ unit, load text = .ok unit ∧
      (EveryUnit .printable compiled.unit ↔ SettledUnit .printable unit) ∧
      (SettledUnit .printable unit → ∀ layout d,
        renderPhp layout compiled.unit = .error (.refused (.single d)) → ¬d.IsLeftover) := by
  obtain ⟨unit, loaded, iff⟩ := compile_every_iff printable_acceptsLowered ran
  refine ⟨unit, loaded, iff, ?_⟩
  intro settled layout d refused
  exact Php.isClean_unit (iff.mpr settled) d (renderPhp_refused refused)

def loadChars (chars : List Char) : Except LoadError (List Node) :=
  let parsed := do
    let (draft, rest) ← JsonDraft.readValue (2 * chars.length + 2) chars
    if (JsonDraft.skipSpace rest).isEmpty then Json.ofDraft? draft else none
  match parsed with
  | none => .error .unreadable
  | some json =>
    if (Text.dropBlank chars).head? = some '{' then
      match ParserRecord.ofJson? json with
      | none => .error .unreadable
      | some record => .error (.refused record.diagnostic)
    else
      match unitOfJson? json with
      | none => .error .unreadable
      | some unit => .ok unit

-- A literal is `String.ofList` of its characters by definition, while `String.toList` decodes it in
-- quadratic time. So samples are evaluated on their characters.
theorem load_ofList (chars : List Char) : load (String.ofList chars) = loadChars chars := by
  have parsed : Json.parse? (String.ofList chars) =
      (do
        let (draft, rest) ← JsonDraft.readValue (2 * chars.length + 2) chars
        if (JsonDraft.skipSpace rest).isEmpty then Json.ofDraft? draft else none) := by
    simp only [Json.parse?, JsonDraft.parse?, String.toList_ofList, bind_assoc]
    cases JsonDraft.readValue (2 * chars.length + 2) chars with
    | none => rfl
    | some found =>
        simp only [Option.bind_eq_bind, Option.bind_some]
        split <;> rfl
  rw [load, parsed, String.toList_ofList]
  rfl

def bodySample : String :=
  "[\x7b\"type\":\"function\",\"name\":\"f\",\"statements\":[" ++
    "\x7b\"type\":\"comment\",\"value\":\"note\"\x7d," ++
    "\x7b\"type\":\"return\",\"expr\":\x7b\"type\":\"istring\",\"value\":\"a\"\x7d\x7d]\x7d]"

def constantSample : String :=
  "[\x7b\"type\":\"class\",\"name\":\"A\",\"definition\":\x7b\"constants\":[" ++
    "\x7b\"name\":\"X\",\"default\":\x7b\"type\":\"istring\",\"value\":\"a\"\x7d\x7d]\x7d\x7d]"

def returnsIstring : List Node → Bool
  | [⟨.functionDecl ⟨_, [], [⟨.comment _, _, _⟩,
      ⟨.ret (some ⟨.literal .istring _, _, _, _⟩), _, _⟩], _, _⟩, _, _⟩] => true
  | _ => false

theorem settledUnit_of_returnsIstring {unit : List Node} (shape : returnsIstring unit = true) :
    SettledUnit c unit := by
  unfold returnsIstring at shape
  split at shape
  · simp [SettledUnit, SettledNode, EveryParameters, SettledBlock, SettledInner, KeptInner,
      KeptOption, KeptExpr, KeptPart]
  · contradiction

def stopsAt (tag text : String) : Bool :=
  match compile text with
  | .error _ => false
  | .ok compiled =>
    match renderPhp .empty compiled.unit with
    | .error (.refused (.single d)) => d.cause = some (Cause.unhandledNodeKind tag)
    | _ => false

theorem refused_of_stopsAt {tag text : String} (stops : stopsAt tag text = true) :
    ∃ compiled d, compile text = .ok compiled ∧
      renderPhp .empty compiled.unit = .error (.refused (.single d)) ∧
      d.cause = some (.unhandledNodeKind tag) := by
  unfold stopsAt at stops
  split at stops
  · contradiction
  · rename_i compiled ran
    split at stops
    · rename_i d refused
      exact ⟨compiled, d, ran, refused, by simpa using stops⟩
    · contradiction

theorem samples_printable :
    (∃ compiled unit, compile bodySample = .ok compiled ∧ load bodySample = .ok unit ∧
      SettledUnit .printable unit ∧ EveryUnit .printable compiled.unit) ∧
    ∃ compiled unit d, compile constantSample = .ok compiled ∧ load constantSample = .ok unit ∧
      ¬SettledUnit .printable unit ∧
      renderPhp .empty compiled.unit = .error (.refused (.single d)) ∧ d.IsLeftover := by
  constructor
  · have compiles : (compile bodySample).isOk = true := by
      change (compile (.ofList _ ++ .ofList _ ++ .ofList _)).isOk = true
      rw [← String.ofList_append, ← String.ofList_append, compile, load_ofList]
      decide +kernel
    have shape : (load bodySample).toOption.map returnsIstring = some true := by
      change (load (.ofList _ ++ .ofList _ ++ .ofList _)).toOption.map returnsIstring = some true
      rw [← String.ofList_append, ← String.ofList_append, load_ofList]
      decide +kernel
    obtain ⟨compiled, ran⟩ := exists_ok_of_isOk compiles
    obtain ⟨unit, loaded, iff, -⟩ := compile_printable ran
    rw [loaded] at shape
    have settled : SettledUnit .printable unit :=
      settledUnit_of_returnsIstring (Option.some.inj shape)
    exact ⟨compiled, unit, ran, loaded, settled, iff.mpr settled⟩
  · have stops : stopsAt "istring" constantSample = true := by
      change stopsAt "istring" (.ofList _ ++ .ofList _) = true
      rw [← String.ofList_append, stopsAt, compile, load_ofList]
      decide +kernel
    obtain ⟨compiled, d, ran, refused, cause⟩ := refused_of_stopsAt stops
    obtain ⟨unit, loaded, -, prints⟩ := compile_printable ran
    have leftover : d.IsLeftover := ⟨"istring", by decide, cause⟩
    refine ⟨compiled, unit, d, ran, loaded, ?_, refused, leftover⟩
    intro settled
    exact prints settled .empty d refused leftover

end Zephir
