import Zephir.Compile
import Zephir.Proofs.Positions.Lowering

/-!
The standard phases make up no places. Attached comments, accessors and lowered bodies are at places
of what they were made from, and so are the errors of the phases.

A step is followed to both of its ends: it fails at known places, or it leaves what is at known
places. The runs over members and nodes are followed whatever the hooks of the phases are.
-/

namespace Zephir

variable {known : Position → Prop} {pos : Position}

def ResultAt {α : Type} (known : Position → Prop) (good : α → Prop) : Except Diagnostic α → Prop
  | .error d => AllAt known d.positions
  | .ok a => good a

theorem ResultAt.bind {α β : Type} {good : α → Prop} {better : β → Prop}
    {x : Except Diagnostic α} {f : α → Except Diagnostic β} (first : ResultAt known good x)
    (follows : ∀ a, good a → ResultAt known better (f a)) : ResultAt known better (x >>= f) := by
  cases x with
  | error d => exact first
  | ok a => exact follows a first

theorem ResultAt.map {α β : Type} {good : α → Prop} {better : β → Prop}
    {x : Except Diagnostic α} {f : α → β} (first : ResultAt known good x)
    (holds : ∀ a, good a → better (f a)) : ResultAt known better (x.map f) := by
  cases x with
  | error d => exact first
  | ok a => exact holds a first

theorem allAt_withContext {d : Diagnostic} {message : String} (places : AllAt known d.positions)
    (at_ : known pos) : AllAt known (d.withContext pos message).positions := by
  unfold Diagnostic.positions at places ⊢
  simp [Diagnostic.withContext, places, at_]

/-! ## Members -/

structure Members.At (known : Position → Prop) (owner : Members) : Prop where
  definition : ∀ raw ∈ owner.definition, AllAt known raw.positions
  constants : ∀ c ∈ owner.constants.values, AllAt known c.positions
  properties : ∀ p ∈ owner.properties.values, AllAt known p.positions
  methods : ∀ m ∈ owner.methods.values, AllAt known m.positions

theorem allAt_members {owner : Members} : AllAt known owner.positions ↔ owner.At known := by
  simp only [Members.positions, allAt_append, allAt_flatMap, Option.mem_toList]
  constructor
  · rintro ⟨⟨⟨definition, constants⟩, properties⟩, methods⟩
    exact ⟨definition, constants, properties, methods⟩
  · rintro ⟨definition, constants, properties, methods⟩
    exact ⟨⟨⟨definition, constants⟩, properties⟩, methods⟩

/-! ## Comments -/

@[simp] theorem docPositions_append (first second : List Docblock) :
    docPositions (first ++ second) = docPositions first ++ docPositions second :=
  List.map_append

theorem allAt_docblock {raw : String} (at_ : known pos) :
    AllAt known (docPositions (docblock? raw pos).toList) := by
  have made (document : Bool) (lines : List String) :
      AllAt known (docPositions (docblockOfLines? document lines pos).toList) := by
    unfold docblockOfLines?
    split
    · exact allAt_nil
    · split <;> simpa [docPositions] using at_
  unfold docblock?
  split
  · exact made _ _
  · exact made _ _

theorem allAt_withRawDocblock {docs : List Docblock} {raw : Option String}
    (places : AllAt known (docPositions docs)) (at_ : known pos) :
    AllAt known (docPositions (withRawDocblock docs raw pos)) := by
  rw [withRawDocblock, docPositions_append, allAt_append]
  refine ⟨places, ?_⟩
  cases raw with
  | none => exact allAt_nil
  | some raw => exact allAt_docblock at_

mutual

theorem allAt_attachBlock : (waiting : List Docblock) → AllAt known (docPositions waiting) →
    (body : List Statement) → AllAt known (blockPositions body) →
    AllAt known (blockPositions (attachBlock waiting body))
  | _, _, [], _ => by
      rw [attachBlock]
      exact allAt_nil
  | waiting, atWaiting, ⟨kind, pos, docblocks⟩ :: rest, places => by
      simp only [blockPositions, statementPositions, allAt_append, allAt_cons] at places
      obtain ⟨⟨⟨at_, atDocs⟩, atKind⟩, atRest⟩ := places
      have inner := allAt_attachKind kind atKind
      cases kind with
      | comment text =>
          rw [attachBlock]
          refine allAt_attachBlock _ ?_ rest atRest
          rw [docPositions_append, allAt_append]
          exact ⟨atWaiting, allAt_docblock at_⟩
      | _ =>
          have others := allAt_attachBlock [] allAt_nil rest atRest
          rw [attachBlock, blockPositions, statementPositions]
          · simp [at_, atDocs, atWaiting, inner, others]
          · simp

theorem allAt_attachKind (kind : StatementKind) (places : AllAt known (innerPositions kind)) :
    AllAt known (innerPositions (attachKind kind)) := by
  cases kind with
  | branch condition body elseIfs otherwise =>
      simp only [innerPositions, allAt_append] at places
      obtain ⟨⟨⟨atCondition, atBody⟩, atElseIfs⟩, atOtherwise⟩ := places
      have inner := allAt_attachBlock [] allAt_nil body atBody
      have branches := allAt_attachElseIfs elseIfs atElseIfs
      cases otherwise with
      | none => simp [attachKind, innerPositions, otherwisePositions, atCondition, inner, branches]
      | some final =>
          have last := allAt_attachBlock [] allAt_nil final atOtherwise
          simp [attachKind, innerPositions, otherwisePositions, atCondition, inner, branches, last]
  | whileLoop kind condition body =>
      simp only [innerPositions, allAt_append] at places
      rw [attachKind, innerPositions, allAt_append]
      exact ⟨places.1, allAt_attachBlock [] allAt_nil body places.2⟩
  | loop body =>
      rw [attachKind, innerPositions]
      exact allAt_attachBlock [] allAt_nil body places
  | forLoop head iterated body =>
      simp only [innerPositions, allAt_append] at places
      rw [attachKind, innerPositions, allAt_append]
      exact ⟨places.1, allAt_attachBlock [] allAt_nil body places.2⟩
  | switch subject clauses =>
      simp only [innerPositions, allAt_append] at places
      rw [attachKind, innerPositions, allAt_append]
      exact ⟨places.1, allAt_attachClauses clauses places.2⟩
  | tryCatch body catches =>
      simp only [innerPositions, allAt_append] at places
      rw [attachKind, innerPositions, allAt_append]
      exact ⟨allAt_attachBlock [] allAt_nil body places.1, allAt_attachCatches catches places.2⟩
  | _ => exact places

theorem allAt_attachElseIfs : (elseIfs : List ElseIf) → AllAt known (elseIfPositions elseIfs) →
    AllAt known (elseIfPositions (attachElseIfs elseIfs))
  | [], _ => by
      rw [attachElseIfs]
      exact allAt_nil
  | ⟨condition, body, pos⟩ :: rest, places => by
      simp only [elseIfPositions, allAt_append] at places
      rw [attachElseIfs, elseIfPositions, allAt_append, allAt_append]
      exact ⟨⟨places.1.1, allAt_attachBlock [] allAt_nil body places.1.2⟩,
        allAt_attachElseIfs rest places.2⟩

theorem allAt_attachClauses : (clauses : List SwitchClause) →
    AllAt known (clausePositions clauses) → AllAt known (clausePositions (attachClauses clauses))
  | [], _ => by
      rw [attachClauses]
      exact allAt_nil
  | ⟨test, body⟩ :: rest, places => by
      simp only [clausePositions, allAt_append] at places
      rw [attachClauses, clausePositions, allAt_append, allAt_append]
      exact ⟨⟨places.1.1, allAt_attachBlock [] allAt_nil body places.1.2⟩,
        allAt_attachClauses rest places.2⟩

theorem allAt_attachCatches : (catches : List Catch) → AllAt known (catchPositions catches) →
    AllAt known (catchPositions (attachCatches catches))
  | [], _ => by
      rw [attachCatches]
      exact allAt_nil
  | ⟨classes, binding, body, pos⟩ :: rest, places => by
      simp only [catchPositions, allAt_append] at places
      simp only [attachCatches, catchPositions, allAt_append]
      exact ⟨⟨places.1.1, allAt_attachBlock [] allAt_nil body places.1.2⟩,
        allAt_attachCatches rest places.2⟩

end

theorem allAt_constant_attach {c : Constant} (places : AllAt known c.positions) :
    AllAt known c.attach.positions := by
  simp only [Constant.positions, allAt_append, allAt_cons] at places
  simp [Constant.positions, Constant.attach, places,
    allAt_withRawDocblock places.1.2 places.1.1]

theorem allAt_property_attach {p : Property} (places : AllAt known p.positions) :
    AllAt known p.attach.positions := by
  simp only [Property.positions, allAt_append, allAt_cons] at places
  simp [Property.positions, Property.attach, places,
    allAt_withRawDocblock places.1.1.2 places.1.1.1]

theorem allAt_method_attach {m : Method} (places : AllAt known m.positions) :
    AllAt known m.attach.positions := by
  simp only [Method.positions, allAt_append, allAt_cons] at places
  obtain ⟨⟨⟨⟨at_, atDocs⟩, atParameters⟩, atBody⟩, atLocals⟩ := places
  simp [Method.positions, Method.attach, at_, atParameters, atLocals,
    allAt_withRawDocblock atDocs at_, allAt_attachBlock [] allAt_nil _ atBody]

theorem allAt_node_attach {waiting : List Docblock} {n : Node}
    (atWaiting : AllAt known (docPositions waiting)) (places : AllAt known n.positions) :
    AllAt known (n.attach waiting).positions := by
  obtain ⟨kind, pos, docblocks⟩ := n
  simp only [Node.positions, allAt_append, allAt_cons] at places
  obtain ⟨⟨at_, atDocs⟩, atKind⟩ := places
  have taken : AllAt known (docPositions (docblocks ++ waiting)) := by
    simp [atDocs, atWaiting]
  have commented (raw : Option String) : AllAt known (docPositions
      (withRawDocblock (docblocks ++ waiting) raw pos)) := allAt_withRawDocblock taken at_
  cases kind with
  | functionDecl decl =>
      simp only [NodeKind.positions, allAt_append] at atKind
      simp [Node.attach, Node.positions, NodeKind.positions, at_, commented, atKind,
        allAt_attachBlock [] allAt_nil _ atKind.1.2]
  | classDecl decl => simp_all [Node.attach, Node.positions, NodeKind.positions]
  | interfaceDecl decl => simp_all [Node.attach, Node.positions, NodeKind.positions]
  | _ => simp_all [Node.attach, Node.positions]

/-! ## Accessors -/

theorem allAt_accessor {property : String} (accessor : Accessor) (at_ : known pos) :
    AllAt known (accessor.method property pos).positions := by
  have noLocals : localPositions (.empty : Locals) = [] := rfl
  cases accessor <;>
    simp [Accessor.method, Accessor.returnProperty, Accessor.assignProperty, Method.plain,
      Method.positions, parameterPositions, blockPositions, statementPositions, docPositions,
      innerPositions, letPositions, exprsPositions, optionPositions, exprPositions, partPositions,
      Expr.plain, Expr.var, noLocals, at_]

theorem resultAt_accessors {property : String} {seen : List String} {shortcuts : List Shortcut}
    (places : ∀ shortcut ∈ shortcuts, known shortcut.pos) :
    ResultAt known (fun made => ∀ entry ∈ made,
      AllAt known (Method.positions entry.1) ∧ known (Shortcut.pos entry.2))
      (accessors property seen shortcuts) := by
  induction shortcuts generalizing seen with
  | nil =>
      rw [accessors]
      exact List.forall_mem_nil _
  | cons shortcut rest ih =>
      rw [List.forall_mem_cons] at places
      rw [accessors]
      split
      · exact allAt_at.mpr places.1
      · split
        · exact allAt_at.mpr places.1
        · rename_i accessor _
          refine ResultAt.bind (ih places.2) fun others atOthers => ?_
          exact List.forall_mem_cons.mpr ⟨⟨allAt_accessor accessor places.1, places.1⟩, atOthers⟩

theorem resultAt_addAccessors {property : String} {methods : OrderedMap Method}
    {added : List (Method × Shortcut)} (held : ∀ m ∈ methods.values, AllAt known m.positions)
    (new : ∀ entry ∈ added, AllAt known entry.1.positions ∧ known entry.2.pos) :
    ResultAt known (fun made => ∀ m ∈ made.values, AllAt known m.positions)
      (addAccessors property methods added) := by
  induction added generalizing methods with
  | nil => exact held
  | cons entry rest ih =>
      obtain ⟨method, shortcut⟩ := entry
      rw [List.forall_mem_cons] at new
      rw [addAccessors]
      split
      · -- The error points at the shortcut and at the method that has the name already.
        rename_i existing found
        have earlier := held existing (OrderedMap.mem_values_of_get? found) existing.pos
          (by simp [Method.positions])
        exact allAt_withContext (allAt_at.mpr new.1.2) earlier
      · exact ih (OrderedMap.forall_values_insert held new.1.1) new.2

theorem resultAt_expandShortcuts {owner : Members} {p : Property} (atOwner : owner.At known)
    (places : AllAt known p.positions) :
    ResultAt known (fun result => AllAt known result.1.positions ∧ result.2.At known)
      (expandShortcuts owner p) := by
  simp only [Property.positions, allAt_append] at places
  refine ResultAt.bind (resultAt_accessors (List.forall_mem_map.mp places.2))
    fun added atAdded => ?_
  refine ResultAt.bind (resultAt_addAccessors atOwner.methods atAdded) fun methods atMethods => ?_
  refine ⟨?_, { atOwner with methods := atMethods }⟩
  simpa [Property.positions, and_assoc] using places.1

/-! ## Bodies -/

theorem resultAt_lowerBody {locals : Locals} {parameters : List Parameter} {body : List Statement}
    (atLocals : AllAt known (localPositions locals)) (places : AllAt known (blockPositions body)) :
    ResultAt known (fun result => AllAt known (blockPositions result.1) ∧
      AllAt known (localPositions result.2)) (lowerBody locals parameters body) := by
  have ran := stays_block body places { locals, parameters } atLocals
  unfold lowerBody
  cases outcome : lowerBlock body { locals, parameters } with
  | error d =>
      simp only [outcome] at ran
      exact ran
  | ok result =>
      simp only [outcome] at ran
      exact ⟨ran.1.node, ran.2⟩

theorem resultAt_addModifier {method : String} {m : Modifiers} {modifier : Modifier}
    (at_ : known pos) : ResultAt known (fun _ => True) (m.add method pos modifier) := by
  unfold Modifiers.add
  split
  case h_5 =>
      split
      · trivial
      · split
        · trivial
        · exact allAt_at.mpr at_
  all_goals trivial

theorem resultAt_addModifiers {method : String} {m : Modifiers} {words : List String}
    (at_ : known pos) :
    ResultAt known (fun _ => True) (Modifiers.addAll method pos m words) := by
  induction words generalizing m with
  | nil => trivial
  | cons raw rest ih =>
      rw [Modifiers.addAll]
      split
      · exact allAt_at.mpr at_
      · rename_i modifier _
        have added : ResultAt known (fun _ => True) (m.add method pos modifier) :=
          resultAt_addModifier at_
        split
        · rename_i d refused
          rw [refused] at added
          exact added
        · exact ih

theorem resultAt_function_lower {f : Function}
    (places : AllAt known (NodeKind.functionDecl f).positions) :
    ResultAt known (fun made => AllAt known (NodeKind.functionDecl made).positions) f.lower := by
  simp only [NodeKind.positions, allAt_append] at places ⊢
  obtain ⟨⟨atParameters, atBody⟩, atLocals⟩ := places
  exact ResultAt.bind (resultAt_lowerBody atLocals atBody) fun _ made =>
    ⟨⟨atParameters, made.1⟩, made.2⟩

theorem resultAt_method_lower {m : Method} (places : AllAt known m.positions) :
    ResultAt known (fun made => AllAt known made.positions) m.lower := by
  simp only [Method.positions, allAt_append, allAt_cons] at places
  obtain ⟨⟨⟨atHead, atParameters⟩, atBody⟩, atLocals⟩ := places
  have checked : ResultAt known (fun _ => True) m.canonicalVisibility :=
    (resultAt_addModifiers atHead.1).map fun _ _ => trivial
  refine checked.bind fun visibility _ => ?_
  refine ResultAt.bind (resultAt_lowerBody atLocals atBody) fun lowered made => ?_
  change AllAt known (Method.positions _)
  simp only [Method.positions, allAt_append, allAt_cons]
  exact ⟨⟨⟨atHead, atParameters⟩, made.1⟩, made.2⟩

/-! ## Runs over members and nodes -/

namespace PhaseStep

variable {α β : Type} {good : α → Prop} {better : β → Prop} {x : PhaseStep (List Docblock) α}

/-- With comments at known places in the queue, a step fails at known places, or it leaves a good
value and comments at known places. -/
def Stays (known : Position → Prop) (x : PhaseStep (List Docblock) α) (good : α → Prop) : Prop :=
  ∀ queue, AllAt known (docPositions queue) →
    ResultAt known (fun result => good result.1 ∧ AllAt known (docPositions result.2)) (x queue)

theorem stays_pure {a : α} (holds : good a) :
    Stays known (pure a : PhaseStep (List Docblock) α) good :=
  fun _ waiting => ⟨holds, waiting⟩

theorem Stays.bind {f : α → PhaseStep (List Docblock) β} (first : x.Stays known good)
    (follows : ∀ a, good a → (f a).Stays known better) : (x >>= f).Stays known better :=
  fun queue waiting => ResultAt.bind (first queue waiting) fun result left =>
    follows result.1 left.1 result.2 left.2

theorem stays_lift {result : Except Diagnostic α} (at_ : ResultAt known good result) :
    (liftM result : PhaseStep (List Docblock) α).Stays known good := by
  intro queue waiting
  cases result with
  | error d => exact at_
  | ok a => exact ⟨at_, waiting⟩

end PhaseStep

open PhaseStep

def MemberHook.Stays {α : Type} (known : Position → Prop) (positions : α → List Position)
    (hook : MemberHook (List Docblock) α) : Prop :=
  ∀ owner member, owner.At known → AllAt known (positions member) →
    (hook owner member).Stays known fun result =>
      (∀ kept ∈ result.1, AllAt known (positions kept)) ∧ result.2.At known

theorem MemberHook.stays_keep {α : Type} {positions : α → List Position} :
    MemberHook.Stays known positions .keep :=
  fun _ _ atOwner places => PhaseStep.stays_pure ⟨by simpa using places, atOwner⟩

namespace Phase

structure Stays (known : Position → Prop) (phase : Phase (List Docblock)) : Prop where
  top : ∀ n, AllAt known n.positions →
    (phase.top n).Stays known fun made => ∀ n ∈ made, AllAt known n.positions
  constant : phase.constant.Stays known Constant.positions
  property : phase.property.Stays known Property.positions
  method : phase.method.Stays known Method.positions

variable {α : Type} {positions : α → List Position} {hooks : List (MemberHook (List Docblock) α)}
  {phases : List (Phase (List Docblock))}

theorem stays_runTop (all : ∀ phase ∈ phases, phase.Stays known) {n : Node}
    (places : AllAt known n.positions) :
    (runTop phases n).Stays known fun made => ∀ n ∈ made, AllAt known n.positions := by
  induction phases generalizing n with
  | nil => exact stays_pure (by simpa using places)
  | cons phase rest ih =>
      rw [List.forall_mem_cons] at all
      refine Stays.bind (all.1.top n places) fun made left => ?_
      cases made with
      | none => exact stays_pure (by simp)
      | some n => exact ih all.2 (left n rfl)

theorem stays_runMember (all : ∀ hook ∈ hooks, hook.Stays known positions) {owner : Members}
    {member : α} (atOwner : owner.At known) (places : AllAt known (positions member)) :
    (runMember hooks owner member).Stays known fun result =>
      (∀ kept ∈ result.1, AllAt known (positions kept)) ∧ result.2.At known := by
  induction hooks generalizing owner member with
  | nil => exact stays_pure ⟨by simpa using places, atOwner⟩
  | cons hook rest ih =>
      rw [List.forall_mem_cons] at all
      refine Stays.bind (all.1 owner member atOwner places) fun result left => ?_
      obtain ⟨made, owner⟩ := result
      cases made with
      | none => exact stays_pure ⟨by simp, left.2⟩
      | some member => exact ih all.2 left.2 (left.1 member rfl)

theorem stays_runSection (all : ∀ hook ∈ hooks, hook.Stays known positions) {owner : Members}
    {kept : OrderedMap α} {entries : List (String × α)} (atOwner : owner.At known)
    (atKept : ∀ member ∈ kept.values, AllAt known (positions member))
    (places : ∀ member ∈ entries.map Prod.snd, AllAt known (positions member)) :
    (runSection hooks owner kept entries).Stays known fun result =>
      (∀ member ∈ result.1.values, AllAt known (positions member)) ∧ result.2.At known := by
  induction entries generalizing owner kept with
  | nil => exact stays_pure ⟨atKept, atOwner⟩
  | cons entry rest ih =>
      obtain ⟨name, member⟩ := entry
      rw [List.map_cons, List.forall_mem_cons] at places
      refine Stays.bind (stays_runMember all atOwner places.1) fun result left => ?_
      obtain ⟨made, owner⟩ := result
      cases made with
      | none => exact ih left.2 atKept places.2
      | some member =>
          exact ih left.2 (OrderedMap.forall_values_insert atKept (left.1 member rfl)) places.2

theorem stays_runAdded (all : ∀ phase ∈ phases, phase.Stays known) {owner : Members}
    {methods : OrderedMap Method} (atOwner : owner.At known)
    (atMethods : ∀ m ∈ methods.values, AllAt known m.positions) :
    (runAdded phases owner methods).Stays known (Members.At known) := by
  unfold runAdded
  split
  · exact stays_pure { atOwner with methods := atMethods }
  · have hooks := List.forall_mem_map.mpr fun phase among => (all phase among).method
    refine Stays.bind (stays_runSection hooks { atOwner with methods := atMethods }
      OrderedMap.forall_values_empty atOwner.methods) fun result left => ?_
    obtain ⟨added, owner⟩ := result
    refine stays_pure { left.2 with methods := ?_ }
    refine OrderedMap.forall_values_insertAll left.2.methods fun entry among => ?_
    exact left.1 entry.2 (List.mem_map_of_mem among)

theorem stays_runMembers (all : ∀ phase ∈ phases, phase.Stays known) {owner : Members}
    (atOwner : owner.At known) : (runMembers phases owner).Stays known (Members.At known) := by
  -- Section by section: the hooks see the owner without the section, and it is put back after.
  refine Stays.bind (stays_runSection
    (List.forall_mem_map.mpr fun phase among => (all phase among).constant)
    { atOwner with constants := OrderedMap.forall_values_empty } OrderedMap.forall_values_empty
    atOwner.constants) fun result left => ?_
  obtain ⟨constants, owner⟩ := result
  have atOwner : Members.At known { owner with constants } := { left.2 with constants := left.1 }
  refine Stays.bind (stays_runSection
    (List.forall_mem_map.mpr fun phase among => (all phase among).property)
    { atOwner with properties := OrderedMap.forall_values_empty } OrderedMap.forall_values_empty
    atOwner.properties) fun result left => ?_
  obtain ⟨properties, owner⟩ := result
  have atOwner : Members.At known { owner with properties } :=
    { left.2 with properties := left.1 }
  refine Stays.bind (stays_runSection
    (List.forall_mem_map.mpr fun phase among => (all phase among).method)
    { atOwner with methods := OrderedMap.forall_values_empty } OrderedMap.forall_values_empty
    atOwner.methods) fun result left => ?_
  obtain ⟨methods, owner⟩ := result
  exact stays_runAdded all left.2 left.1

theorem stays_runNode (all : ∀ phase ∈ phases, phase.Stays known) {n : Node}
    (places : AllAt known n.positions) :
    (runNode phases n).Stays known fun made => ∀ n ∈ made, AllAt known n.positions := by
  refine Stays.bind (stays_runTop all places) fun made left => ?_
  cases made with
  | none => exact stays_pure (by simp)
  | some n =>
      have places := left n rfl
      obtain ⟨kind, pos, docblocks⟩ := n
      cases kind with
      | classDecl decl =>
          simp only [Node.positions, NodeKind.positions, allAt_append, allAt_cons, allAt_members]
            at places
          refine Stays.bind (stays_runMembers all places.2.2) fun members atMembers => ?_
          refine stays_pure ?_
          simp [Node.positions, NodeKind.positions, places, allAt_members.mpr atMembers]
      | interfaceDecl decl =>
          simp only [Node.positions, NodeKind.positions, allAt_append, allAt_cons, allAt_members]
            at places
          refine Stays.bind (stays_runMembers all places.2.2) fun members atMembers => ?_
          refine stays_pure ?_
          simp [Node.positions, NodeKind.positions, places, allAt_members.mpr atMembers]
      | _ => exact stays_pure left

theorem stays_run (all : ∀ phase ∈ phases, phase.Stays known) {unit : List Node}
    (places : AllAt known (unitPositions unit)) :
    (run phases unit).Stays known fun made => AllAt known (unitPositions made) := by
  induction unit with
  | nil => exact stays_pure allAt_nil
  | cons n rest ih =>
      rw [unitPositions, List.flatMap_cons, allAt_append] at places
      refine Stays.bind (stays_runNode all places.1) fun made left => ?_
      refine Stays.bind (ih places.2) fun nodes others => stays_pure ?_
      rw [unitPositions, List.flatMap_append, allAt_append, allAt_flatMap]
      exact ⟨by simpa using left, others⟩

end Phase

theorem stays_attachComments : (attachComments .whole).Stays known where
  top n places := by
    obtain ⟨kind, pos, docblocks⟩ := n
    intro queue waiting
    have attached := allAt_node_attach waiting places
    cases kind with
    | comment text =>
        have at_ : known pos := places pos (by simp [Node.positions])
        refine ⟨by simp, ?_⟩
        change AllAt known (docPositions (queue ++ (docblock? text pos).toList))
        rw [docPositions_append, allAt_append]
        exact ⟨waiting, allAt_docblock at_⟩
    | _ =>
        refine ⟨?_, allAt_nil⟩
        rintro _ ⟨⟩
        exact attached
  constant _ _ atOwner places :=
    stays_pure ⟨by simpa using allAt_constant_attach places, atOwner⟩
  property _ _ atOwner places :=
    stays_pure ⟨by simpa using allAt_property_attach places, atOwner⟩
  method _ _ atOwner places :=
    stays_pure ⟨by simpa using allAt_method_attach places, atOwner⟩

theorem stays_expandAccessors : Phase.Stays known expandAccessors where
  top _ places := stays_pure (by simpa using places)
  constant := MemberHook.stays_keep
  property _ _ atOwner places :=
    Stays.bind (stays_lift (resultAt_expandShortcuts atOwner places)) fun _ left =>
      stays_pure ⟨by simpa using left.1, left.2⟩
  method := MemberHook.stays_keep

theorem stays_lowerBodies : Phase.Stays known lowerBodies where
  top n places := by
    obtain ⟨kind, pos, docblocks⟩ := n
    cases kind with
    | functionDecl decl =>
        rw [Node.positions, allAt_append] at places
        refine Stays.bind (stays_lift (resultAt_function_lower places.2)) fun made left => ?_
        refine stays_pure ?_
        rintro _ ⟨⟩
        exact allAt_append.mpr ⟨places.1, left⟩
    | _ => exact stays_pure (by simpa using places)
  constant := MemberHook.stays_keep
  property := MemberHook.stays_keep
  method _ _ atOwner places :=
    Stays.bind (stays_lift (resultAt_method_lower places)) fun _ left =>
      stays_pure ⟨by simpa using left, atOwner⟩

theorem resultAt_runStandardPhases {unit : List Node} (places : AllAt known (unitPositions unit)) :
    ResultAt known (fun made => AllAt known (unitPositions made)) (runStandardPhases unit) := by
  have all : ∀ phase ∈ standardPhases, phase.Stays known := by
    simp [standardPhases, stays_attachComments, stays_expandAccessors, stays_lowerBodies]
  exact ResultAt.bind (Phase.stays_run all places [] allAt_nil) fun _ left => left.1

end Zephir
