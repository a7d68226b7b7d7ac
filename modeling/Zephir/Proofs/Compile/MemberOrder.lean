import Mathlib.Data.List.Nodup
import Mathlib.Data.List.Perm.Basic
import Zephir.Proofs.Compile.Printable

/-!
The order of members does not matter. A class whose raw lists are permuted compiles exactly if the
class itself does, and the two are printed alike. Each step from the raw lists to the printed text
takes members that are the same up to their order to members that are the same up to their order.
-/

namespace Zephir

namespace OrderedMap

variable {α β : Type} {map map' : OrderedMap α} {name : String} {value : α}

def reorder (map : OrderedMap α) {entries : List (String × α)} (moved : map.entries.Perm entries) :
    OrderedMap α :=
  ⟨entries, (moved.map Prod.fst).nodup_iff.mp map.distinct⟩

theorem isEmpty_eq_of_perm (moved : map.entries.Perm map'.entries) : map.isEmpty = map'.isEmpty :=
  moved.isEmpty_eq

theorem valuesByName_eq_of_perm (moved : map.entries.Perm map'.entries) :
    map.valuesByName = map'.valuesByName := by
  have sorted : ∀ entries : List (String × α),
      (entries.mergeSort fun a b => decide (a.1 ≤ b.1)).Pairwise fun a b => a.1 ≤ b.1 := by
    intro entries
    have pairwise := @List.pairwise_mergeSort _ (fun a b : String × α => decide (a.1 ≤ b.1))
      (fun _ _ _ first second => by
        simp only [decide_eq_true_eq] at first second ⊢
        exact String.le_trans first second)
      (fun a b => by simpa using String.le_total a.1 b.1) entries
    simpa using pairwise
  have samePerm := ((List.mergeSort_perm map.entries fun a b => decide (a.1 ≤ b.1)).trans
    moved).trans (List.mergeSort_perm map'.entries fun a b => decide (a.1 ≤ b.1)).symm
  have sameOrder := List.Perm.eq_of_pairwise (fun a b among amongOther le ge => by
    -- Entries of one map with the same name are the same entry.
    have first : a ∈ map'.entries := moved.mem_iff.mp (List.mem_mergeSort.mp among)
    have second : b ∈ map'.entries := List.mem_mergeSort.mp amongOther
    exact List.inj_on_of_nodup_map map'.distinct first second (String.le_antisymm le ge))
    (sorted map.entries) (sorted map'.entries) samePerm
  rw [valuesByName, valuesByName, sameOrder]

end OrderedMap

structure Definition.Permuted (raw raw' : Definition) : Prop where
  constants : raw.constants.Perm raw'.constants
  properties : raw.properties.Perm raw'.properties
  methods : raw.methods.Perm raw'.methods

inductive Members.Permuted : Members → Members → Prop
  | mk {raw raw' constants properties methods} (moved : raw.Permuted raw') :
      Permuted ⟨some raw, constants, properties, methods⟩
        ⟨some raw', constants, properties, methods⟩

structure Members.Shuffled (owner other : Members) : Prop where
  definition : other.definition = owner.definition
  constants : owner.constants.entries.Perm other.constants.entries
  properties : owner.properties.entries.Perm other.properties.entries
  methods : owner.methods.entries.Perm other.methods.entries

/-- Nodes that differ in the members of classes and interfaces at most, and there as said. -/
inductive Node.Matches (differ : Members → Members → Prop) : Node → Node → Prop
  | same {node} : Matches differ node node
  | classDecl {decl members pos docblocks} (inner : differ decl.members members) :
      Matches differ ⟨.classDecl decl, pos, docblocks⟩
        ⟨.classDecl { decl with members }, pos, docblocks⟩
  | interfaceDecl {decl members pos docblocks} (inner : differ decl.members members) :
      Matches differ ⟨.interfaceDecl decl, pos, docblocks⟩
        ⟨.interfaceDecl { decl with members }, pos, docblocks⟩

def PermutedMembers : List Node → List Node → Prop :=
  List.Forall₂ (Node.Matches Members.Permuted)

theorem PermutedMembers.symm {unit unit' : List Node} (permuted : PermutedMembers unit unit') :
    PermutedMembers unit' unit := by
  have members : ∀ {owner other : Members}, owner.Permuted other → other.Permuted owner := by
    rintro _ _ ⟨moved⟩
    exact ⟨moved.constants.symm, moved.properties.symm, moved.methods.symm⟩
  refine permuted.flip.imp ?_
  intro node node' matched
  cases matched with
  | same => exact .same
  | classDecl inner => exact .classDecl (members inner)
  | interfaceDecl inner => exact .interfaceDecl (members inner)

section Compaction

variable {α : Type} {group : MemberSection} {name : α → String} {pos : α → Position}
  {added added' : List α} {map map' : OrderedMap α}

theorem addMembers_eq_ok_iff : addMembers group name pos map added = .ok map' ↔
    map'.entries = map.entries ++ added.map fun member => (name member, member) := by
  induction added generalizing map with
  | nil =>
      rw [addMembers, List.map_nil, List.append_nil]
      constructor
      · rintro ⟨rfl⟩
        rfl
      · intro same
        rw [OrderedMap.eq_of_entries same]
  | cons member rest ih =>
      rw [addMembers, List.map_cons]
      constructor
      · intro ran
        split at ran
        · contradiction
        · rename_i missing
          have absent := OrderedMap.notMem_keys_of_get? missing
          rw [ih.mp ran, OrderedMap.entries_insert_of_notMem absent, List.append_assoc,
            List.singleton_append]
      · intro same
        have missing := OrderedMap.get?_of_entries same
        have absent := OrderedMap.notMem_keys_of_get? missing
        rw [missing]
        apply ih.mpr
        rw [same, OrderedMap.entries_insert_of_notMem absent, List.append_assoc,
          List.singleton_append]

theorem addMembers_permuted (moved : added.Perm added')
    (ran : addMembers group name pos .empty added = .ok map) :
    ∃ other, addMembers group name pos .empty added' = .ok other ∧
      map.entries.Perm other.entries := by
  have listed : map.entries = added.map fun member => (name member, member) :=
    addMembers_eq_ok_iff.mp ran
  have again : map.entries.Perm (added'.map fun member => (name member, member)) := by
    rw [listed]
    exact moved.map _
  exact ⟨map.reorder again, addMembers_eq_ok_iff.mpr rfl, again⟩

end Compaction

theorem Members.compact_permuted {owner other made : Members} {dropped : List Position}
    (permuted : owner.Permuted other) (ran : owner.compact = .ok (made, dropped)) :
    ∃ made' dropped', other.compact = .ok (made', dropped') ∧ made.Shuffled made' := by
  obtain ⟨moved⟩ := permuted
  obtain ⟨constants, ranConstants, ran⟩ := except_bind_ok ran
  obtain ⟨properties, ranProperties, ran⟩ := except_bind_ok ran
  obtain ⟨methods, ranMethods, built⟩ := except_bind_ok ran
  cases built
  obtain ⟨constants', againConstants, sameConstants⟩ :=
    addMembers_permuted moved.constants ranConstants
  obtain ⟨properties', againProperties, sameProperties⟩ :=
    addMembers_permuted moved.properties ranProperties
  obtain ⟨methods', againMethods, sameMethods⟩ := addMembers_permuted moved.methods ranMethods
  refine ⟨⟨none, constants', properties', methods'.mapValues Method.compact⟩,
    methods'.values.flatMap fun method => blockCblocks method.body, ?_, ?_⟩
  · simp only [Members.compact, againConstants, againProperties, againMethods]
    rfl
  · exact ⟨rfl, sameConstants, sameProperties, sameMethods.map _⟩

theorem Node.compact_permuted {node node' : Node} {made : Option Node} {dropped : List Position}
    (permuted : node.Matches Members.Permuted node')
    (ran : node.compact = .ok (made, dropped)) :
    ∃ made' dropped', node'.compact = .ok (made', dropped') ∧
      List.Forall₂ (Node.Matches Members.Shuffled) made.toList made'.toList := by
  cases permuted with
  | same => exact ⟨made, dropped, ran, List.forall₂_same.mpr fun _ _ => .same⟩
  | classDecl inner =>
      obtain ⟨⟨members, places⟩, ranMembers, built⟩ := except_bind_ok ran
      cases built
      obtain ⟨members', places', again, shuffled⟩ := Members.compact_permuted inner ranMembers
      refine ⟨some _, places', ?_, .cons (Matches.classDecl shuffled) .nil⟩
      simp only [Node.compact, again]
      rfl
  | interfaceDecl inner =>
      obtain ⟨⟨members, places⟩, ranMembers, built⟩ := except_bind_ok ran
      cases built
      obtain ⟨members', places', again, shuffled⟩ := Members.compact_permuted inner ranMembers
      refine ⟨some _, places', ?_, .cons (Matches.interfaceDecl shuffled) .nil⟩
      simp only [Node.compact, again]
      rfl

/-- What is collected on the way may differ in its order, which no later step looks at. -/
theorem compact_permuted {unit unit' made : List Node} {collector collector' : Collector}
    (permuted : PermutedMembers unit unit') (start : Collector)
    (ran : compact unit collector = .ok (made, collector')) :
    ∃ made' last, compact unit' start = .ok (made', last) ∧
      List.Forall₂ (Node.Matches Members.Shuffled) made made' := by
  induction permuted generalizing made collector start with
  | nil =>
      cases ran
      exact ⟨[], start, rfl, .nil⟩
  | cons matched others ih =>
      rw [compact] at ran
      obtain ⟨⟨out, dropped⟩, ranNode, ran⟩ := except_bind_ok ran
      obtain ⟨⟨rest, collected⟩, ranRest, built⟩ := except_bind_ok ran
      cases built
      obtain ⟨out', dropped', againNode, sameNode⟩ := Node.compact_permuted matched ranNode
      obtain ⟨rest', last, againRest, sameRest⟩ :=
        ih ((dropped'.map droppedCblock).foldl Collector.emit start) ranRest
      refine ⟨out'.toList ++ rest', last, ?_, List.rel_append sameNode sameRest⟩
      simp only [compact, againNode, bind, Except.bind, againRest]
      rfl

theorem Collector.finish_of_warnings {collector : Collector}
    (warns : ∀ d ∈ collector.diagnostics, d.severity = .warning) :
    collector.finish = .ok collector.diagnostics := by
  rw [Collector.finish, if_neg]
  intro found
  obtain ⟨d, among, isError⟩ := List.any_eq_true.mp found
  rw [warns d among] at isError
  contradiction

theorem compact_warns {unit made : List Node} {collector collector' : Collector}
    (warns : ∀ d ∈ collector.diagnostics, d.severity = .warning)
    (ran : compact unit collector = .ok (made, collector')) :
    ∀ d ∈ collector'.diagnostics, d.severity = .warning := by
  have emitted : ∀ (places : List Position) (collector : Collector),
      (∀ d ∈ collector.diagnostics, d.severity = .warning) →
      ∀ d ∈ ((places.map droppedCblock).foldl Collector.emit collector).diagnostics,
        d.severity = .warning := by
    intro places
    induction places with
    | nil =>
        intro collector warns
        exact warns
    | cons pos rest ih =>
        intro collector warns
        refine ih (collector.emit (droppedCblock pos)) ?_
        rw [Collector.emit, List.forall_mem_append, List.forall_mem_singleton]
        exact ⟨warns, rfl⟩
  induction unit generalizing made collector with
  | nil =>
      cases ran
      exact warns
  | cons node rest ih =>
      rw [compact] at ran
      obtain ⟨⟨out, dropped⟩, ranNode, ran⟩ := except_bind_ok ran
      obtain ⟨⟨others, collected⟩, ranRest, built⟩ := except_bind_ok ran
      cases built
      exact ih (emitted dropped collector warns) ranRest

/-- Members that have gained methods, added behind those they had. -/
structure Members.Gains (owner : Members) (added : List (String × Method)) (grown : Members) :
    Prop where
  definition : grown.definition = owner.definition
  constants : grown.constants = owner.constants
  properties : grown.properties = owner.properties
  methods : grown.methods.entries = owner.methods.entries ++ added

theorem Members.gains_nil_iff {owner grown : Members} : owner.Gains [] grown ↔ grown = owner := by
  constructor
  · rintro ⟨definition, constants, properties, methods⟩
    rw [List.append_nil] at methods
    cases grown
    cases owner
    cases definition
    cases constants
    cases properties
    cases OrderedMap.eq_of_entries methods
    rfl
  · rintro rfl
    exact ⟨rfl, rfl, rfl, (List.append_nil _).symm⟩

theorem Members.gains_append_iff {owner last : Members} {added more : List (String × Method)} :
    owner.Gains (added ++ more) last ↔
      ∃ grown, owner.Gains added grown ∧ grown.Gains more last := by
  constructor
  · rintro ⟨definition, constants, properties, methods⟩
    rw [← List.append_assoc] at methods
    have distinct : ((owner.methods.entries ++ added).map Prod.fst).Nodup := by
      have all := last.methods.distinct
      rw [methods, List.map_append] at all
      exact (List.nodup_append.mp all).1
    exact ⟨{ owner with methods := ⟨owner.methods.entries ++ added, distinct⟩ },
      ⟨rfl, rfl, rfl, rfl⟩, definition, constants, properties, methods⟩
  · rintro ⟨grown, first, second⟩
    exact ⟨second.definition.trans first.definition, second.constants.trans first.constants,
      second.properties.trans first.properties,
      by rw [second.methods, first.methods, List.append_assoc]⟩

namespace PhaseStep

variable {σ α β : Type} {state next : σ}

theorem bind_of_ok {x : PhaseStep σ α} {f : α → PhaseStep σ β} {a : α}
    (ran : x state = .ok (a, next)) : (x >>= f) state = f a next := by
  change Except.bind (x state) _ = _
  rw [ran]
  rfl

theorem lift_of_ok {result : Except Diagnostic α} {a : α} (succeeds : result = .ok a) :
    (liftM result : PhaseStep σ α) state = .ok (a, state) := by
  rw [succeeds]
  rfl

end PhaseStep

namespace Phase

open PhaseStep

variable {σ α : Type}

/-- Hooks that keep every member and look at nothing else of the owner than whether it can take the
methods that the member adds. -/
def Independent (hooks : List (MemberHook σ α))
    (becomes : α → α → List (String × Method) → Prop) : Prop :=
  ∀ {owner grown : Members} {member : α} {result : Option α} {state next : σ},
    runMember hooks owner member state = .ok ((result, grown), next) ↔
      state = next ∧ ∃ made added, result = some made ∧ becomes member made added ∧
        owner.Gains added grown

def EntryBecomes (becomes : α → α → List (String × Method) → Prop) (entry : String × α)
    (out : (String × α) × List (String × Method)) : Prop :=
  out.1.1 = entry.1 ∧ becomes entry.2 out.1.2 out.2

variable {hooks : List (MemberHook σ α)} {becomes : α → α → List (String × Method) → Prop}
  {owner grown : Members} {kept made : OrderedMap α} {entries : List (String × α)}
  {state next : σ}

theorem runMember_cons {hook : MemberHook σ α} {member made : α}
    (ran : hook owner member state = .ok ((some made, grown), next)) :
    runMember (hook :: hooks) owner member state = runMember hooks grown made next := by
  rw [runMember, bind_of_ok ran]

theorem Independent.section_ok (independent : Independent hooks becomes)
    (distinct : (kept.keys ++ entries.map Prod.fst).Nodup)
    (ran : runSection hooks owner kept entries state = .ok ((made, grown), next)) :
    state = next ∧ ∃ outs, List.Forall₂ (EntryBecomes becomes) entries outs ∧
      made.entries = kept.entries ++ outs.map Prod.fst ∧
      owner.Gains (outs.flatMap Prod.snd) grown := by
  induction entries generalizing owner kept state with
  | nil =>
      obtain ⟨same, rfl⟩ := pure_ok ran
      cases same
      exact ⟨rfl, [], .nil, by simp, Members.gains_nil_iff.mpr rfl⟩
  | cons entry rest ih =>
      obtain ⟨name, member⟩ := entry
      rw [runSection] at ran
      obtain ⟨⟨result, between⟩, state', ranMember, ranRest⟩ := bind_ok ran
      obtain ⟨rfl, out, added, rfl, turned, gains⟩ := independent.mp ranMember
      have absent : name ∉ kept.keys := by
        intro present
        exact (List.nodup_append.mp distinct).2.2 name present name (by simp) rfl
      have distinctRest : ((kept.insert name out).keys ++ rest.map Prod.fst).Nodup := by
        simpa [OrderedMap.keys_insert_of_notMem absent] using distinct
      obtain ⟨rfl, outs, all, listed, gainsRest⟩ := ih distinctRest ranRest
      refine ⟨rfl, ((name, out), added) :: outs, .cons ⟨rfl, turned⟩ all, ?_, ?_⟩
      · rw [listed, OrderedMap.entries_insert_of_notMem absent]
        simp
      · exact Members.gains_append_iff.mpr ⟨between, gains, gainsRest⟩

theorem Independent.section_runs (independent : Independent hooks becomes)
    {outs : List ((String × α) × List (String × Method))}
    (all : List.Forall₂ (EntryBecomes becomes) entries outs)
    (listed : made.entries = kept.entries ++ outs.map Prod.fst)
    (gains : owner.Gains (outs.flatMap Prod.snd) grown) :
    runSection hooks owner kept entries state = .ok ((made, grown), state) := by
  induction all generalizing owner kept with
  | nil =>
      have sameKept : made = kept := OrderedMap.eq_of_entries (by simpa using listed)
      have sameOwner : grown = owner := Members.gains_nil_iff.mp gains
      rw [sameKept, sameOwner]
      rfl
  | @cons entry out rest outs turned others ih =>
      obtain ⟨name, member⟩ := entry
      obtain ⟨⟨name', made'⟩, added⟩ := out
      obtain ⟨rfl, turned⟩ := turned
      obtain ⟨between, first, second⟩ := Members.gains_append_iff.mp gains
      have absent : name' ∉ kept.keys :=
        OrderedMap.notMem_keys_of_get? (OrderedMap.get?_of_entries listed)
      have ranMember : runMember hooks owner member state = .ok ((some made', between), state) :=
        independent.mpr ⟨rfl, made', added, rfl, turned, first⟩
      have listedRest : made.entries =
          (kept.insert name' made').entries ++ outs.map Prod.fst := by
        rw [listed, OrderedMap.entries_insert_of_notMem absent]
        simp
      rw [runSection, bind_of_ok ranMember]
      exact ih listedRest second

theorem Independent.owner_eq (independent : Independent hooks becomes) {map : OrderedMap α}
    (none : ∀ {member made added}, becomes member made added → added = [])
    (ran : runSection hooks owner .empty map.entries state = .ok ((made, grown), next)) :
    grown = owner := by
  obtain ⟨-, outs, all, -, gains⟩ := independent.section_ok (by exact map.distinct) ran
  have nothing : outs.flatMap Prod.snd = [] := by
    clear gains ran
    generalize map.entries = entries at all
    induction all with
    | nil => rfl
    | cons turned _ ih => rw [List.flatMap_cons, none turned.2, ih, List.nil_append]
  rw [nothing] at gains
  exact Members.gains_nil_iff.mp gains

theorem Independent.section_shuffled (independent : Independent hooks becomes)
    {map map' : OrderedMap α} {other : Members} (moved : map.entries.Perm map'.entries)
    (owners : owner.Shuffled other)
    (ran : runSection hooks owner .empty map.entries state = .ok ((made, grown), next)) :
    state = next ∧ ∃ made' grown',
      runSection hooks other .empty map'.entries state = .ok ((made', grown'), state) ∧
        made.entries.Perm made'.entries ∧ grown.Shuffled grown' := by
  obtain ⟨rfl, outs, all, listed, gains⟩ := independent.section_ok (by exact map.distinct) ran
  obtain ⟨outs', all', movedOuts⟩ := List.perm_comp_forall₂ moved.symm all
  have listed' : made.entries.Perm (outs'.map Prod.fst) := by
    rw [listed]
    exact (movedOuts.symm.map Prod.fst)
  have methods : grown.methods.entries.Perm
      (other.methods.entries ++ outs'.flatMap Prod.snd) := by
    rw [gains.methods]
    exact owners.methods.append (movedOuts.symm.flatMap_right Prod.snd)
  refine ⟨rfl, made.reorder listed', { other with methods := grown.methods.reorder methods }, ?_,
    listed', ?_⟩
  · exact independent.section_runs all' rfl ⟨rfl, rfl, rfl, rfl⟩
  · refine ⟨?_, ?_, ?_, methods⟩
    · rw [gains.definition]
      exact owners.definition
    · rw [gains.constants]
      exact owners.constants
    · rw [gains.properties]
      exact owners.properties

end Phase

variable {state next : List Docblock}

open PhaseStep

theorem constants_independent :
    Phase.Independent (standardPhases.map Phase.constant) fun constant made added =>
      made = constant.attach ∧ added = [] := by
  intro owner grown constant result state next
  constructor
  · intro ran
    cases ran
    exact ⟨rfl, _, [], rfl, ⟨rfl, rfl⟩, Members.gains_nil_iff.mpr rfl⟩
  · rintro ⟨rfl, made, added, rfl, ⟨rfl, rfl⟩, gains⟩
    cases Members.gains_nil_iff.mp gains
    rfl

theorem methods_independent :
    Phase.Independent (standardPhases.map Phase.method) fun method made added =>
      method.attach.lower = .ok made ∧ added = [] := by
  intro owner grown method result state next
  have runs : ∀ {made}, method.attach.lower = .ok made →
      Phase.runMember (standardPhases.map Phase.method) owner method state =
        .ok ((some made, owner), state) := by
    intro made lowers
    have lowered : lowerBodies.method owner method.attach state =
        .ok ((some made, owner), state) := by
      change ((liftM method.attach.lower : PhaseStep _ _) >>= _) state = _
      rw [bind_of_ok (lift_of_ok lowers)]
      rfl
    calc Phase.runMember (standardPhases.map Phase.method) owner method state
        = Phase.runMember [lowerBodies.method] owner method.attach state := rfl
      _ = .ok ((some made, owner), state) := Phase.runMember_cons lowered
  constructor
  · intro ran
    obtain ⟨rfl, made, rfl, lowers⟩ := runMember_method ran
    rw [runs lowers] at ran
    cases ran
    exact ⟨rfl, made, [], rfl, ⟨lowers, rfl⟩, Members.gains_nil_iff.mpr rfl⟩
  · rintro ⟨rfl, made, added, rfl, ⟨lowers, rfl⟩, gains⟩
    cases Members.gains_nil_iff.mp gains
    exact runs lowers

def accessorEntry (accessor : Method × Shortcut) : String × Method :=
  (accessor.1.name, accessor.1)

theorem addAccessors_eq_ok_iff {property : String} {added : List (Method × Shortcut)}
    {methods methods' : OrderedMap Method} :
    addAccessors property methods added = .ok methods' ↔
      methods'.entries = methods.entries ++ added.map accessorEntry := by
  induction added generalizing methods with
  | nil =>
      rw [addAccessors, List.map_nil, List.append_nil]
      constructor
      · rintro ⟨rfl⟩
        rfl
      · intro same
        rw [OrderedMap.eq_of_entries same]
  | cons accessor rest ih =>
      rw [addAccessors, List.map_cons]
      constructor
      · intro ran
        split at ran
        · contradiction
        · rename_i missing
          have absent := OrderedMap.notMem_keys_of_get? missing
          rw [ih.mp ran, OrderedMap.entries_insert_of_notMem absent, List.append_assoc,
            List.singleton_append, accessorEntry]
      · intro same
        have missing := OrderedMap.get?_of_entries same
        have absent := OrderedMap.notMem_keys_of_get? missing
        rw [missing]
        apply ih.mpr
        rw [same, OrderedMap.entries_insert_of_notMem absent, List.append_assoc,
          List.singleton_append, accessorEntry]

theorem expandShortcuts_eq_ok_iff {owner grown : Members} {property made : Property} :
    expandShortcuts owner property = .ok (made, grown) ↔
      made = { property with shortcuts := [] } ∧
        ∃ added, accessors property.name [] property.shortcuts = .ok added ∧
          owner.Gains (added.map accessorEntry) grown := by
  constructor
  · intro ran
    obtain ⟨added, ranAccessors, ran⟩ := except_bind_ok ran
    obtain ⟨methods, ranAdd, built⟩ := except_bind_ok ran
    cases built
    exact ⟨rfl, added, ranAccessors, rfl, rfl, rfl, addAccessors_eq_ok_iff.mp ranAdd⟩
  · rintro ⟨rfl, added, ranAccessors, definition, constants, properties, methods⟩
    cases owner
    cases grown
    cases definition
    cases constants
    cases properties
    simp only [expandShortcuts, ranAccessors, addAccessors_eq_ok_iff.mpr methods, bind,
      Except.bind]
    rfl

theorem properties_independent :
    Phase.Independent (standardPhases.map Phase.property) fun property made added =>
      made = { property.attach with shortcuts := [] } ∧
        ∃ accessed, accessors property.name [] property.shortcuts = .ok accessed ∧
          added = accessed.map accessorEntry := by
  intro owner grown property result state next
  have runs : ∀ {made}, expandShortcuts owner property.attach = .ok (made, grown) →
      Phase.runMember (standardPhases.map Phase.property) owner property state =
        .ok ((some made, grown), state) := by
    intro made expands
    have expanded : expandAccessors.property owner property.attach state =
        .ok ((some made, grown), state) := by
      change ((liftM (expandShortcuts owner property.attach) : PhaseStep _ _) >>= _) state = _
      rw [bind_of_ok (lift_of_ok expands)]
      rfl
    calc Phase.runMember (standardPhases.map Phase.property) owner property state
        = Phase.runMember [expandAccessors.property, .keep] owner property.attach state := rfl
      _ = .ok ((some made, grown), state) := Phase.runMember_cons expanded
  constructor
  · intro ran
    obtain ⟨made, rfl, expands⟩ := runMember_property ran
    rw [runs expands] at ran
    cases ran
    obtain ⟨same, accessed, ranAccessors, gains⟩ := expandShortcuts_eq_ok_iff.mp expands
    exact ⟨rfl, made, _, rfl, ⟨same, accessed, ranAccessors, rfl⟩, gains⟩
  · rintro ⟨rfl, made, added, rfl, ⟨same, accessed, ranAccessors, rfl⟩, gains⟩
    exact runs (expandShortcuts_eq_ok_iff.mpr ⟨same, accessed, ranAccessors, gains⟩)

theorem runMembers_shuffled {owner other made : Members} (shuffled : owner.Shuffled other)
    (ran : Phase.runMembers standardPhases owner state = .ok (made, next)) :
    state = next ∧ ∃ made', Phase.runMembers standardPhases other state = .ok (made', state) ∧
      made.Shuffled made' := by
  obtain ⟨⟨constants, owner₁⟩, state₁, ranConstants, ran⟩ := bind_ok ran
  obtain ⟨⟨properties, owner₂⟩, state₂, ranProperties, ran⟩ := bind_ok ran
  obtain ⟨⟨methods, owner₃⟩, state₃, ranMethods, ran⟩ := bind_ok ran
  have before₁ : ({ owner with constants := .empty } : Members).Shuffled
      { other with constants := .empty } :=
    ⟨shuffled.definition, .refl _, shuffled.properties, shuffled.methods⟩
  obtain ⟨rfl, constants', other₁, againConstants, sameConstants, after₁⟩ :=
    constants_independent.section_shuffled shuffled.constants before₁ ranConstants
  have before₂ : ({ owner₁ with constants, properties := .empty } : Members).Shuffled
      { other₁ with constants := constants', properties := .empty } :=
    ⟨after₁.definition, sameConstants, .refl _, after₁.methods⟩
  obtain ⟨rfl, properties', other₂, againProperties, sameProperties, after₂⟩ :=
    properties_independent.section_shuffled after₁.properties before₂ ranProperties
  have before₃ : ({ owner₂ with properties, methods := .empty } : Members).Shuffled
      { other₂ with properties := properties', methods := .empty } :=
    ⟨after₂.definition, after₂.constants, sameProperties, .refl _⟩
  obtain ⟨rfl, methods', other₃, againMethods, sameMethods, after₃⟩ :=
    methods_independent.section_shuffled after₂.methods before₃ ranMethods
  have finished : Phase.runMembers standardPhases other state =
      Phase.runAdded standardPhases other₃ methods' state := by
    rw [Phase.runMembers, bind_of_ok againConstants]
    dsimp only
    rw [bind_of_ok againProperties]
    dsimp only
    rw [bind_of_ok againMethods]
  -- No method hook adds methods, so none are left to be handled.
  have unchanged := methods_independent.owner_eq (fun turned => turned.2) ranMethods
  have unchanged' := methods_independent.owner_eq (fun turned => turned.2) againMethods
  rw [unchanged] at ran
  cases ran
  refine ⟨rfl, { other₂ with properties := properties', methods := methods' }, ?_, ?_⟩
  · rw [finished, unchanged']
    rfl
  · exact ⟨after₂.definition, after₂.constants, sameProperties, sameMethods⟩

theorem runNode_shuffled {node node' : Node} {made : Option Node}
    (shuffled : node.Matches Members.Shuffled node')
    (ran : Phase.runNode standardPhases node state = .ok (made, next)) :
    ∃ made', Phase.runNode standardPhases node' state = .ok (made', next) ∧
      List.Forall₂ (Node.Matches Members.Shuffled) made.toList made'.toList := by
  cases shuffled with
  | same => exact ⟨made, ran, List.forall₂_same.mpr fun _ _ => .same⟩
  | @classDecl decl members pos docblocks inner =>
      obtain ⟨top, queue, ranTop, ran⟩ := bind_ok ran
      cases ranTop
      obtain ⟨members', later, ranMembers, built⟩ := bind_ok ran
      cases built
      obtain ⟨rfl, made', again, sameMembers⟩ := runMembers_shuffled inner ranMembers
      have top : Phase.runTop standardPhases
          ⟨.classDecl { decl with members }, pos, docblocks⟩ state =
          .ok (some (Node.attach state ⟨.classDecl { decl with members }, pos, docblocks⟩),
            []) := rfl
      refine ⟨some _, ?_, .cons (Node.Matches.classDecl sameMembers) .nil⟩
      rw [Phase.runNode, bind_of_ok top]
      exact bind_of_ok again
  | @interfaceDecl decl members pos docblocks inner =>
      obtain ⟨top, queue, ranTop, ran⟩ := bind_ok ran
      cases ranTop
      obtain ⟨members', later, ranMembers, built⟩ := bind_ok ran
      cases built
      obtain ⟨rfl, made', again, sameMembers⟩ := runMembers_shuffled inner ranMembers
      have top : Phase.runTop standardPhases
          ⟨.interfaceDecl { decl with members }, pos, docblocks⟩ state =
          .ok (some (Node.attach state ⟨.interfaceDecl { decl with members }, pos, docblocks⟩),
            []) := rfl
      refine ⟨some _, ?_, .cons (Node.Matches.interfaceDecl sameMembers) .nil⟩
      rw [Phase.runNode, bind_of_ok top]
      exact bind_of_ok again

theorem run_shuffled {unit unit' made : List Node}
    (shuffled : List.Forall₂ (Node.Matches Members.Shuffled) unit unit')
    (ran : Phase.run standardPhases unit state = .ok (made, next)) :
    ∃ made', Phase.run standardPhases unit' state = .ok (made', next) ∧
      List.Forall₂ (Node.Matches Members.Shuffled) made made' := by
  induction shuffled generalizing made state with
  | nil =>
      cases ran
      exact ⟨[], rfl, .nil⟩
  | cons matched others ih =>
      obtain ⟨out, queue, ranNode, ran⟩ := bind_ok ran
      obtain ⟨rest, later, ranRest, built⟩ := bind_ok ran
      cases built
      obtain ⟨out', againNode, sameNode⟩ := runNode_shuffled matched ranNode
      obtain ⟨rest', againRest, sameRest⟩ := ih ranRest
      refine ⟨out'.toList ++ rest', ?_, List.rel_append sameNode sameRest⟩
      rw [Phase.run, bind_of_ok againNode, bind_of_ok againRest]
      rfl

theorem compileUnit_of_runs {unit compacted made : List Node} {collector : Collector}
    {queue : List Docblock} (compacts : compact unit {} = .ok (compacted, collector))
    (ran : Phase.run standardPhases compacted [] = .ok (made, queue)) :
    compileUnit unit = .ok { unit := made, warnings := collector.diagnostics } := by
  have finished : collector.finish = .ok collector.diagnostics :=
    Collector.finish_of_warnings (compact_warns (by simp) compacts)
  have standard : runStandardPhases compacted = .ok made := by
    change Except.bind (Phase.run standardPhases compacted []) _ = _
    rw [ran]
    rfl
  simp only [compileUnit, compacts, standard, finished]
  rfl

theorem compileUnit_permuted {unit unit' : List Node} {compiled : Compiled}
    (permuted : PermutedMembers unit unit') (ran : compileUnit unit = .ok compiled) :
    ∃ compiled', compileUnit unit' = .ok compiled' ∧
      List.Forall₂ (Node.Matches Members.Shuffled) compiled.unit compiled'.unit := by
  obtain ⟨compacted, collector, queue, ranCompact, ranPhases⟩ := compileUnit_ok ran
  obtain ⟨compacted', collector', againCompact, shuffled⟩ := compact_permuted permuted {} ranCompact
  obtain ⟨made', againPhases, sameNodes⟩ := run_shuffled shuffled ranPhases
  exact ⟨_, compileUnit_of_runs againCompact againPhases, sameNodes⟩

namespace Php

theorem members_shuffled {owner other : Members} (shuffled : owner.Shuffled other)
    (signaturesOnly : Bool) : members owner signaturesOnly = members other signaturesOnly := by
  unfold members
  rw [OrderedMap.valuesByName_eq_of_perm shuffled.constants,
    OrderedMap.valuesByName_eq_of_perm shuffled.properties,
    OrderedMap.valuesByName_eq_of_perm shuffled.methods,
    OrderedMap.isEmpty_eq_of_perm shuffled.constants,
    OrderedMap.isEmpty_eq_of_perm shuffled.properties]

theorem node_shuffled {n n' : Node} (shuffled : n.Matches Members.Shuffled n') :
    node n = node n' := by
  cases shuffled with
  | same => rfl
  | classDecl inner => simp only [node, nodeKind, classDecl, members_shuffled inner]
  | interfaceDecl inner => simp only [node, nodeKind, interfaceDecl, members_shuffled inner]

theorem unit_shuffled {nodes nodes' : List Node}
    (shuffled : List.Forall₂ (Node.Matches Members.Shuffled) nodes nodes') :
    unit nodes = unit nodes' := by
  have same : nodes.map node = nodes'.map node := by
    induction shuffled with
    | nil => rfl
    | cons matched others ih => rw [List.map_cons, List.map_cons, node_shuffled matched, ih]
  rw [unit, unit, same]

end Php

/-- Units that differ in the order of raw members both fail to compile, or both compile and are
printed alike under every layout. -/
theorem compileUnit_memberOrder {unit unit' : List Node}
    (permuted : PermutedMembers unit unit') :
    (∃ refusal refusal', compileUnit unit = .error refusal ∧
      compileUnit unit' = .error refusal') ∨
    ∃ compiled compiled', compileUnit unit = .ok compiled ∧ compileUnit unit' = .ok compiled' ∧
      ∀ layout, renderPhp layout compiled.unit = renderPhp layout compiled'.unit := by
  cases ran : compileUnit unit with
  | ok compiled =>
      obtain ⟨compiled', again, shuffled⟩ := compileUnit_permuted permuted ran
      refine .inr ⟨compiled, compiled', rfl, again, ?_⟩
      intro layout
      simp only [renderPhp, renderInto, Php.unit_shuffled shuffled]
  | error refusal =>
      cases again : compileUnit unit' with
      | error refusal' => exact .inl ⟨refusal, refusal', rfl, rfl⟩
      | ok compiled' =>
          obtain ⟨compiled, compiles, -⟩ := compileUnit_permuted permuted.symm again
          rw [ran] at compiles
          contradiction

def orderSample (properties methods : List String) : List Node :=
  let property name : Property :=
    ⟨name, ["protected"], none, [⟨"set", {}⟩, ⟨"get", {}⟩], none, [], {}⟩
  let raw := ⟨[], properties.map property, methods.map fun name => .plain name {}⟩
  [⟨.classDecl ⟨"Box", false, false, none, [], none, ⟨some raw, .empty, .empty, .empty⟩⟩, {}, []⟩]

theorem orderSample_memberOrder :
    ∃ compiled compiled',
      compileUnit (orderSample ["width", "height"] ["open", "close"]) = .ok compiled ∧
      compileUnit (orderSample ["height", "width"] ["close", "open"]) = .ok compiled' ∧
      ∀ layout, renderPhp layout compiled.unit = renderPhp layout compiled'.unit := by
  have permuted : PermutedMembers (orderSample ["width", "height"] ["open", "close"])
      (orderSample ["height", "width"] ["close", "open"]) :=
    .cons (.classDecl ⟨.refl _, .swap _ _ _, .swap _ _ _⟩) .nil
  have compiles : (compileUnit (orderSample ["width", "height"] ["open", "close"])).isOk = true :=
    rfl
  obtain ⟨refusal, _, refused, -⟩ | both := compileUnit_memberOrder permuted
  · rw [refused] at compiles
    contradiction
  · exact both

end Zephir
