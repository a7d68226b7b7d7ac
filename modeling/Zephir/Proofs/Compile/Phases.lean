import Zephir.Proofs.Compile.Bodies
import Zephir.Proofs.OrderedMap

/-!
What the standard phases make of a compact unit. A node that comes out of them passes a check
exactly if the node was settled before. Values of constants and properties and the defaults of
parameters go through the phases as they are.
-/

namespace Zephir

def SettledMethod (c : Check) (m : Method) : Prop :=
  EveryParameters c m.parameters ∧ SettledBlock c m.body

def Members.allConstants (m : Members) : List Constant :=
  match m.definition with
  | some raw => raw.constants
  | none => m.constants.values

def Members.allProperties (m : Members) : List Property :=
  match m.definition with
  | some raw => raw.properties
  | none => m.properties.values

def Members.allMethods (m : Members) : List Method :=
  match m.definition with
  | some raw => raw.methods
  | none => m.methods.values

structure SettledMembers (c : Check) (m : Members) : Prop where
  constants : ∀ constant ∈ m.allConstants, EveryOption c constant.value
  properties : ∀ property ∈ m.allProperties, EveryOption c property.value
  methods : ∀ method ∈ m.allMethods, SettledMethod c method

/-- What compilation keeps of a declaration passes the check. Comments and C blocks on the top
level are not kept. -/
def SettledNode (c : Check) : NodeKind → Prop
  | .require e => EveryExpr c e
  | .functionDecl decl => EveryParameters c decl.parameters ∧ SettledBlock c decl.body
  | .classDecl decl => EveryExprs c decl.interfaces ∧ SettledMembers c decl.members
  | .interfaceDecl decl => EveryExprs c decl.parents ∧ SettledMembers c decl.members
  | _ => True

def SettledUnit (c : Check) (unit : List Node) : Prop :=
  ∀ node ∈ unit, SettledNode c node.kind

def NodeKind.IsCompact : NodeKind → Prop
  | .cblock _ => False
  | .classDecl decl => decl.members.definition = none
  | .interfaceDecl decl => decl.members.definition = none
  | _ => True

theorem except_bind_ok {α β : Type} {x : Except Diagnostic α} {f : α → Except Diagnostic β} {b : β}
    (ran : x >>= f = .ok b) : ∃ a, x = .ok a ∧ f a = .ok b := by
  cases x with
  | error d => contradiction
  | ok a => exact ⟨a, rfl, ran⟩

namespace PhaseStep

variable {σ α β : Type} {state next : σ}

theorem bind_ok {x : PhaseStep σ α} {f : α → PhaseStep σ β} {b : β}
    (ran : (x >>= f) state = .ok (b, next)) :
    ∃ a between, x state = .ok (a, between) ∧ f a between = .ok (b, next) := by
  obtain ⟨⟨a, between⟩, first, second⟩ := except_bind_ok ran
  exact ⟨a, between, first, second⟩

theorem pure_ok {a b : α} (ran : (pure a : PhaseStep σ α) state = .ok (b, next)) :
    a = b ∧ state = next := by
  cases ran
  exact ⟨rfl, rfl⟩

theorem lift_ok {result : Except Diagnostic α} {a : α}
    (ran : (liftM result : PhaseStep σ α) state = .ok (a, next)) :
    result = .ok a ∧ state = next := by
  cases result with
  | error d => contradiction
  | ok b =>
      cases ran
      exact ⟨rfl, rfl⟩

end PhaseStep

namespace Phase

open PhaseStep

variable {σ α : Type}

/-- Hooks that drop no member: one comes out with `after` exactly if it went in with `before`, and
the owner is taken along `leads`. -/
structure Carries (hooks : List (MemberHook σ α)) (before after : α → Prop)
    (leads : Members → Members → Prop) : Prop where
  refl : ∀ owner, leads owner owner
  trans : ∀ {one two three}, leads one two → leads two three → leads one three
  step : ∀ {owner owner' member member' state next},
    runMember hooks owner member state = .ok ((member', owner'), next) →
      leads owner owner' ∧ ∃ made, member' = some made ∧ (after made ↔ before member)

variable {hooks : List (MemberHook σ α)} {before after : α → Prop}
  {leads : Members → Members → Prop} {owner owner' : Members} {kept made : OrderedMap α}
  {state next : σ}

theorem Carries.entries (carries : Carries hooks before after leads)
    {entries : List (String × α)} (distinct : (kept.keys ++ entries.map Prod.fst).Nodup)
    (ran : runSection hooks owner kept entries state = .ok ((made, owner'), next)) :
    leads owner owner' ∧ ((∀ value ∈ made.values, after value) ↔
      (∀ value ∈ kept.values, after value) ∧ ∀ value ∈ entries.map Prod.snd, before value) := by
  induction entries generalizing owner kept state with
  | nil =>
      obtain ⟨same, -⟩ := pure_ok ran
      cases same
      exact ⟨carries.refl _, by simp⟩
  | cons entry rest ih =>
      obtain ⟨name, member⟩ := entry
      rw [runSection] at ran
      obtain ⟨⟨member', between⟩, state', ranMember, ranRest⟩ := bind_ok ran
      obtain ⟨first, made, rfl, same⟩ := carries.step ranMember
      -- No name comes twice, so that the member is added to those that are kept already.
      have absent : name ∉ kept.keys := by
        intro present
        exact (List.nodup_append.mp distinct).2.2 name present name (by simp) rfl
      have distinctRest : ((kept.insert name made).keys ++ rest.map Prod.fst).Nodup := by
        simpa [OrderedMap.keys_insert_of_notMem absent] using distinct
      obtain ⟨others, iff⟩ := ih distinctRest ranRest
      refine ⟨carries.trans first others, ?_⟩
      rw [iff, OrderedMap.values_insert_of_notMem absent, List.forall_mem_append]
      simp [same, and_assoc]

theorem Carries.values (carries : Carries hooks before after leads) {map : OrderedMap α}
    (ran : runSection hooks owner .empty map.entries state = .ok ((made, owner'), next)) :
    leads owner owner' ∧
      ((∀ value ∈ made.values, after value) ↔ ∀ value ∈ map.values, before value) := by
  obtain ⟨led, iff⟩ := carries.entries (by exact map.distinct) ran
  refine ⟨led, iff.trans (and_iff_right ?_)⟩
  intro value member
  contradiction

end Phase

variable {c : Check} {state next : List Docblock}

open PhaseStep

theorem runMember_constant {owner owner' : Members} {constant : Constant}
    {constant' : Option Constant}
    (ran : Phase.runMember (standardPhases.map Phase.constant) owner constant state =
      .ok ((constant', owner'), next)) : constant' = some constant.attach ∧ owner' = owner := by
  cases ran
  exact ⟨rfl, rfl⟩

theorem runMember_property {owner owner' : Members} {property : Property}
    {property' : Option Property}
    (ran : Phase.runMember (standardPhases.map Phase.property) owner property state =
      .ok ((property', owner'), next)) :
    ∃ made, property' = some made ∧ expandShortcuts owner property.attach = .ok (made, owner') := by
  obtain ⟨result, queue, attached, ran⟩ := bind_ok ran
  cases attached
  obtain ⟨result, queue, expanded, ran⟩ := bind_ok ran
  obtain ⟨⟨made, grown⟩, later, lifted, built⟩ := bind_ok expanded
  obtain ⟨expands, rfl⟩ := lift_ok lifted
  cases built
  cases ran
  exact ⟨made, rfl, expands⟩

theorem runMember_method {owner owner' : Members} {method : Method} {method' : Option Method}
    (ran : Phase.runMember (standardPhases.map Phase.method) owner method state =
      .ok ((method', owner'), next)) :
    owner' = owner ∧ ∃ made, method' = some made ∧ method.attach.lower = .ok made := by
  obtain ⟨result, queue, attached, ran⟩ := bind_ok ran
  cases attached
  obtain ⟨result, queue, unchanged, ran⟩ := bind_ok ran
  cases unchanged
  obtain ⟨result, queue, lowered, ran⟩ := bind_ok ran
  obtain ⟨made, later, lifted, built⟩ := bind_ok lowered
  obtain ⟨lowers, rfl⟩ := lift_ok lifted
  cases built
  cases ran
  exact ⟨rfl, made, rfl, lowers⟩

structure Members.Grows (c : Check) (owner owner' : Members) : Prop where
  constants : owner'.constants = owner.constants
  properties : owner'.properties = owner.properties
  methods : (∀ method ∈ owner'.methods.values, SettledMethod c method) ↔
    ∀ method ∈ owner.methods.values, SettledMethod c method

theorem settledMethod_accessor (accepts : c.AcceptsLowered) (accessor : Accessor)
    (property : String) (pos : Position) : SettledMethod c (accessor.method property pos) := by
  have var := everyExpr_var accepts property pos
  cases accessor <;>
    simp [Accessor.method, SettledMethod, EveryParameters, EveryOption, Accessor.returnProperty,
      Accessor.assignProperty, SettledBlock, SettledInner, KeptInner, KeptOption, KeptExpr,
      KeptPart, KeptLets, KeptExprs, Expr.plain, Expr.var, Method.plain] <;>
    exact var

theorem accessors_ok {property : String} {shortcuts : List Shortcut} {seen : List String}
    {made : List (Method × Shortcut)} (ran : accessors property seen shortcuts = .ok made) :
    ∀ entry ∈ made, ∃ accessor pos, entry.1 = Accessor.method accessor property pos := by
  induction shortcuts generalizing seen made with
  | nil =>
      cases ran
      simp
  | cons shortcut rest ih =>
      rw [accessors] at ran
      split at ran
      · contradiction
      · split at ran
        · contradiction
        · rename_i accessor known
          obtain ⟨others, ranRest, built⟩ := except_bind_ok ran
          cases built
          rw [List.forall_mem_cons]
          exact ⟨⟨accessor, shortcut.pos, rfl⟩, ih ranRest⟩

theorem addAccessors_ok {property : String} {added : List (Method × Shortcut)}
    {methods methods' : OrderedMap Method}
    (ran : addAccessors property methods added = .ok methods') :
    methods'.values = methods.values ++ added.map Prod.fst := by
  induction added generalizing methods with
  | nil =>
      cases ran
      simp
  | cons accessor rest ih =>
      rw [addAccessors] at ran
      split at ran
      · contradiction
      · rename_i missing
        rw [ih ran,
          OrderedMap.values_insert_of_notMem (OrderedMap.notMem_keys_of_get? missing)]
        simp

theorem expandShortcuts_ok (accepts : c.AcceptsLowered) {owner owner' : Members}
    {property made : Property} (ran : expandShortcuts owner property = .ok (made, owner')) :
    owner.Grows c owner' ∧ made.value = property.value := by
  obtain ⟨added, ranAccessors, ran⟩ := except_bind_ok ran
  obtain ⟨methods, ranAdd, built⟩ := except_bind_ok ran
  cases built
  refine ⟨⟨rfl, rfl, ?_⟩, rfl⟩
  have settled : ∀ method ∈ added.map Prod.fst, SettledMethod c method := by
    intro method member
    obtain ⟨entry, among, rfl⟩ := List.mem_map.mp member
    obtain ⟨accessor, pos, same⟩ := accessors_ok ranAccessors entry among
    rw [same]
    exact settledMethod_accessor accepts accessor property.name pos
  rw [addAccessors_ok ranAdd, List.forall_mem_append]
  exact and_iff_left settled

theorem Method.lower_every_iff (accepts : c.AcceptsLowered) {method made : Method}
    (ran : method.attach.lower = .ok made) : EveryMethod c made ↔ SettledMethod c method := by
  obtain ⟨visibility, -, ran⟩ := except_bind_ok ran
  obtain ⟨⟨body, locals⟩, ranBody, built⟩ := except_bind_ok ran
  cases built
  exact and_congr_right' (lowerBody_every_iff accepts ranBody)

theorem Function.lower_every_iff (accepts : c.AcceptsLowered) {decl made : Function}
    (ran : ({ decl with docblock := none, body := attachBlock [] decl.body } : Function).lower =
      .ok made) :
    EveryParameters c made.parameters ∧ EveryBlock c made.body ↔
      EveryParameters c decl.parameters ∧ SettledBlock c decl.body := by
  obtain ⟨⟨body, locals⟩, ranBody, built⟩ := except_bind_ok ran
  cases built
  exact and_congr_right' (lowerBody_every_iff accepts ranBody)

theorem constants_carries (c : Check) :
    Phase.Carries (standardPhases.map Phase.constant) (fun constant => EveryOption c constant.value)
      (fun constant => EveryOption c constant.value) Eq where
  refl _ := rfl
  trans := Eq.trans
  step ran := by
    obtain ⟨rfl, rfl⟩ := runMember_constant ran
    exact ⟨rfl, _, rfl, Iff.rfl⟩

theorem properties_carries (accepts : c.AcceptsLowered) :
    Phase.Carries (standardPhases.map Phase.property) (fun property => EveryOption c property.value)
      (fun property => EveryOption c property.value) (Members.Grows c) where
  refl _ := ⟨rfl, rfl, Iff.rfl⟩
  trans first second :=
    ⟨second.constants.trans first.constants, second.properties.trans first.properties,
      second.methods.trans first.methods⟩
  step ran := by
    obtain ⟨made, rfl, expands⟩ := runMember_property ran
    obtain ⟨grows, same⟩ := expandShortcuts_ok accepts expands
    exact ⟨grows, made, rfl, by rw [same, Property.attach]⟩

theorem methods_carries (accepts : c.AcceptsLowered) :
    Phase.Carries (standardPhases.map Phase.method) (SettledMethod c) (EveryMethod c) Eq where
  refl _ := rfl
  trans := Eq.trans
  step ran := by
    obtain ⟨rfl, made, rfl, lowers⟩ := runMember_method ran
    exact ⟨rfl, made, rfl, Method.lower_every_iff accepts lowers⟩

/-- No phase adds methods while methods are handled. -/
theorem runMembers_every_iff (accepts : c.AcceptsLowered) {owner made : Members}
    (compact : owner.definition = none)
    (ran : Phase.runMembers standardPhases owner state = .ok (made, next)) :
    EveryMembers c made ↔ SettledMembers c owner := by
  obtain ⟨definition, constants, properties, methods⟩ := owner
  cases compact
  obtain ⟨⟨constants', owner₁⟩, state₁, ranConstants, ran⟩ := bind_ok ran
  obtain ⟨⟨properties', owner₂⟩, state₂, ranProperties, ran⟩ := bind_ok ran
  obtain ⟨⟨methods', owner₃⟩, state₃, ranMethods, ran⟩ := bind_ok ran
  obtain ⟨rfl, sameConstants⟩ := (constants_carries c).values ranConstants
  obtain ⟨grows, sameProperties⟩ := (properties_carries accepts).values ranProperties
  obtain ⟨rfl, sameMethods⟩ := (methods_carries accepts).values ranMethods
  cases ran
  constructor
  · rintro ⟨everyConstants, everyProperties, everyMethods⟩
    refine ⟨sameConstants.mp ?_, sameProperties.mp everyProperties, grows.methods.mp ?_⟩
    · rw [grows.constants] at everyConstants
      exact everyConstants
    · exact sameMethods.mp everyMethods
  · rintro ⟨settledConstants, settledProperties, settledMethods⟩
    refine ⟨?_, sameProperties.mpr settledProperties, sameMethods.mpr ?_⟩
    · rw [grows.constants]
      exact sameConstants.mpr settledConstants
    · exact grows.methods.mpr settledMethods

theorem runNode_every_iff (accepts : c.AcceptsLowered) {node : Node} {made : Option Node}
    (compact : node.kind.IsCompact)
    (ran : Phase.runNode standardPhases node state = .ok (made, next)) :
    (∀ out ∈ made, EveryNode c out.kind) ↔ SettledNode c node.kind := by
  obtain ⟨kind, pos, docblocks⟩ := node
  obtain ⟨top, queue, ranTop, ran⟩ := bind_ok ran
  cases kind with
  | namespaceDecl name =>
      cases ranTop
      cases ran
      simp [EveryNode, SettledNode, Node.attach]
  | useDecl aliases =>
      cases ranTop
      cases ran
      simp [EveryNode, SettledNode, Node.attach]
  | require e =>
      cases ranTop
      cases ran
      simp [EveryNode, SettledNode, Node.attach]
  | comment text =>
      cases ranTop
      cases ran
      simp [SettledNode]
  | cblock text => exact absurd compact not_false
  | functionDecl decl =>
      obtain ⟨result, waiting, attached, ranTop⟩ := bind_ok ranTop
      cases attached
      obtain ⟨result, waiting, unchanged, ranTop⟩ := bind_ok ranTop
      cases unchanged
      obtain ⟨result, waiting, lowered, ranTop⟩ := bind_ok ranTop
      obtain ⟨lowered, later, lifted, built⟩ := bind_ok lowered
      obtain ⟨lowers, rfl⟩ := lift_ok lifted
      cases built
      cases ranTop
      cases ran
      simp [EveryNode, SettledNode, Function.lower_every_iff accepts lowers]
  | classDecl decl =>
      cases ranTop
      obtain ⟨members, later, ranMembers, built⟩ := bind_ok ran
      cases built
      simp [EveryNode, SettledNode, runMembers_every_iff accepts compact ranMembers]
  | interfaceDecl decl =>
      cases ranTop
      obtain ⟨members, later, ranMembers, built⟩ := bind_ok ran
      cases built
      simp [EveryNode, SettledNode, runMembers_every_iff accepts compact ranMembers]

/-- A unit after the standard phases passes a check exactly if it was settled before. -/
theorem run_every_iff (accepts : c.AcceptsLowered) {unit made : List Node}
    (compact : ∀ node ∈ unit, node.kind.IsCompact)
    (ran : Phase.run standardPhases unit state = .ok (made, next)) :
    EveryUnit c made ↔ SettledUnit c unit := by
  induction unit generalizing made state with
  | nil =>
      cases ran
      simp [EveryUnit, SettledUnit]
  | cons node rest ih =>
      rw [List.forall_mem_cons] at compact
      obtain ⟨out, queue, ranNode, ran⟩ := bind_ok ran
      obtain ⟨others, later, ranRest, built⟩ := bind_ok ran
      cases built
      have first := runNode_every_iff accepts compact.1 ranNode
      have following := ih compact.2 ranRest
      unfold EveryUnit SettledUnit at *
      rw [List.forall_mem_append, List.forall_mem_cons, following, ← first]
      simp

end Zephir
