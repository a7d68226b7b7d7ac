import Zephir.Proofs.Compile.Refinement
import Zephir.Proofs.Phase.Recording

/-!
Which methods the method hooks see. The methods of a class go through the hooks of all phases once,
and so do those that hooks add to the class, with one exception: a method that is added while added
methods are handled comes into the result without having been seen.
-/

namespace Zephir

section Tours

variable {α : Type} {tours : List (Toured α)} {name : String} {left : α}

theorem mem_survivors :
    (name, left) ∈ survivors tours ↔ ∃ tour ∈ tours, tour.name = name ∧ tour.final = some left := by
  simp only [survivors, List.mem_filterMap, Option.map_eq_some_iff, Prod.mk.injEq]
  constructor
  · rintro ⟨tour, among, _, final, sameName, rfl⟩
    exact ⟨tour, among, sameName, final⟩
  · rintro ⟨tour, among, sameName, final⟩
    exact ⟨tour, among, left, final, sameName, rfl⟩

theorem nodup_survivors (distinct : (tours.map Toured.name).Nodup) :
    ((survivors tours).map Prod.fst).Nodup := by
  refine List.Nodup.sublist ?_ distinct
  clear distinct
  induction tours with
  | nil => exact .slnil
  | cons tour rest ih =>
      rw [List.map_cons, survivors, List.filterMap_cons]
      cases tour.final with
      | none => exact ih.cons _
      | some left => exact ih.cons_cons _

theorem survivors_append (more : List (Toured α)) :
    survivors (tours ++ more) = survivors tours ++ survivors more :=
  List.filterMap_append

theorem Handles.distinct {visit : α → Option α → Option Visit} {count : Nat} {map : OrderedMap α}
    (handles : Handles visit count map.entries tours) : (tours.map Toured.name).Nodup := by
  have names : tours.map Toured.name = map.entries.map Prod.fst := by
    rw [← handles.starts, List.map_map]
    rfl
  rw [names]
  exact map.distinct

theorem Handles.start_iff {visit : α → Option α → Option Visit} {count : Nat} {map : OrderedMap α}
    (handles : Handles visit count map.entries tours) :
    (∃ tour ∈ tours, tour.name = name ∧ tour.start = left) ↔ map.get? name = some left := by
  rw [OrderedMap.get?_eq_some_iff, ← handles.starts, List.mem_map]
  simp only [Prod.mk.injEq]

end Tours

namespace HookCall

def Puts (call : HookCall) (name : String) (method : Method) : Prop :=
  call.before.get? name ≠ some method ∧ call.after.get? name = some method

def Takes (call : HookCall) (name : String) (method : Method) : Prop :=
  call.before.get? name = some method ∧ call.after.get? name ≠ some method

end HookCall

/-- The method was there at the start or was put there by a call, and no later call took it. -/
def Brought (start : OrderedMap Method) (calls : List HookCall) (name : String)
    (method : Method) : Prop :=
  (start.get? name = some method ∧ ∀ call ∈ calls, ¬call.Takes name method) ∨
    ∃ earlier call later, calls = earlier ++ call :: later ∧ call.Puts name method ∧
      ∀ other ∈ later, ¬other.Takes name method

theorem brought_cons {call : HookCall} {rest : List HookCall} {name : String} {method : Method} :
    Brought call.before (call :: rest) name method ↔ Brought call.after rest name method := by
  constructor
  · rintro (⟨there, untaken⟩ | ⟨earlier, other, later, split, puts, untaken⟩)
    · rw [List.forall_mem_cons] at untaken
      have still : call.after.get? name = some method := by
        by_contra gone
        exact untaken.1 ⟨there, gone⟩
      exact .inl ⟨still, untaken.2⟩
    · cases earlier with
      | nil =>
          obtain ⟨rfl, rfl⟩ := List.cons.inj split
          exact .inl ⟨puts.2, untaken⟩
      | cons first earlier =>
          obtain ⟨rfl, rfl⟩ := List.cons.inj split
          exact .inr ⟨earlier, other, later, rfl, puts, untaken⟩
  · rintro (⟨there, untaken⟩ | ⟨earlier, other, later, rfl, puts, untaken⟩)
    · by_cases before : call.before.get? name = some method
      · refine .inl ⟨before, List.forall_mem_cons.mpr ⟨?_, untaken⟩⟩
        exact fun takes => takes.2 there
      · exact .inr ⟨[], call, rest, rfl, ⟨before, there⟩, untaken⟩
    · exact .inr ⟨call :: earlier, other, later, rfl, puts, untaken⟩

theorem Leads.get?_iff {start last : OrderedMap Method} {calls : List HookCall} {name : String}
    {method : Method} (leads : Leads start calls last) :
    last.get? name = some method ↔ Brought start calls name method := by
  induction leads with
  | refl => simp [Brought]
  | step before _ ih =>
      subst before
      rw [ih, brought_cons]

theorem Leads.eq_of_unchanged {start last : OrderedMap Method} {calls : List HookCall}
    (leads : Leads start calls last) (unchanged : ∀ call ∈ calls, call.after = call.before) :
    last = start := by
  induction leads with
  | refl => rfl
  | step before _ ih =>
      rw [List.forall_mem_cons] at unchanged
      rw [ih unchanged.2, unchanged.1, before]

/-- What happens to the methods of a class: the calls for its constants and properties, the tours of
the methods that are there then, and the tours of those that hooks add in the meantime. -/
structure MethodHistory where
  early : List HookCall
  present : List (Toured Method)
  added : List (Toured Method)

namespace MethodHistory

def calls (h : MethodHistory) : List HookCall :=
  h.early ++ h.present.flatMap Toured.calls ++ h.added.flatMap Toured.calls

/-- The last of the tours under the name that leave a method leaves this one. -/
def Leaves (h : MethodHistory) (name : String) (method : Method) : Prop :=
  ∃ earlier tour later, h.present ++ h.added = earlier ++ tour :: later ∧ tour.name = name ∧
    tour.final = some method ∧ ∀ other ∈ later, other.name = name → other.final = none

/-- How the owner's methods go from one stage to the next: `pending` when the methods are about to be
handled, `grown` when only those that hooks have added are left, `settled` in the end. -/
structure Flow (h : MethodHistory) (count : Nat) (owner made : Members)
    (pending grown settled : OrderedMap Method) : Prop where
  others : ∀ call ∈ h.early, call.visit = none
  early : Leads owner.methods h.early pending
  present : Handles methodVisit count pending.entries h.present
  toGrown : Leads .empty (h.present.flatMap Toured.calls) grown
  added : Handles methodVisit count grown.entries h.added
  toSettled : Leads (.ofList (survivors h.present)) (h.added.flatMap Toured.calls) settled
  made : made.methods = settled.insertAll (survivors h.added)

/-- How many phases see a method, which methods are seen, and what is left of them. -/
structure Explains (h : MethodHistory) (count : Nat) (owner made : Members) : Prop where
  others : ∀ call ∈ h.early, call.visit = none
  tours : ∀ tour ∈ h.present ++ h.added,
    Tour methodVisit count 0 tour.start tour.calls tour.final
  inOrder : ∀ tour ∈ h.present ++ h.added, tour.final ≠ none →
    tour.calls.map HookCall.phase = List.range count
  once : (h.present.map Toured.name).Nodup ∧ (h.added.map Toured.name).Nodup
  present : ∀ name method, (∃ tour ∈ h.present, tour.name = name ∧ tour.start = method) ↔
    Brought owner.methods h.early name method
  added : ∀ name method, (∃ tour ∈ h.added, tour.name = name ∧ tour.start = method) ↔
    Brought .empty (h.present.flatMap Toured.calls) name method
  seen : ∀ name method, made.methods.get? name = some method →
    h.Leaves name method ∨ ∃ tour ∈ h.added, ∃ call ∈ tour.calls, call.Puts name method
  kept : ∀ tour ∈ h.present ++ h.added, ∀ method, tour.final = some method →
    made.methods.get? tour.name = some method ∨
      ∃ later ∈ h.added, (later.name = tour.name ∧ later.final ≠ none) ∨
        ∃ call ∈ later.calls, call.Takes tour.name method
  calm : (∀ call ∈ h.added.flatMap Toured.calls, call.after = call.before) →
    made.methods = .ofList (survivors (h.present ++ h.added))

variable {h : MethodHistory} {count : Nat} {owner made : Members}
  {pending grown settled : OrderedMap Method} {name : String} {method : Method}

theorem Flow.get?_made (flow : h.Flow count owner made pending grown settled) :
    made.methods.get? name = ((survivors h.added).lookup name).or (settled.get? name) := by
  rw [flow.made, OrderedMap.get?_insertAll (nodup_survivors flow.added.distinct)]

theorem Flow.get?_settled (flow : h.Flow count owner made pending grown settled) :
    settled.get? name = some method ↔
      ((∃ tour ∈ h.present, tour.name = name ∧ tour.final = some method) ∧
        ∀ call ∈ h.added.flatMap Toured.calls, ¬call.Takes name method) ∨
      ∃ earlier call later, h.added.flatMap Toured.calls = earlier ++ call :: later ∧
        call.Puts name method ∧ ∀ other ∈ later, ¬other.Takes name method := by
  have distinct := nodup_survivors flow.present.distinct
  rw [flow.toSettled.get?_iff, Brought, OrderedMap.get?_ofList distinct,
    OrderedMap.lookup_eq_some_iff_mem distinct, mem_survivors]

theorem notMem_of_nodup {earlier later : List (Toured Method)} {tour other : Toured Method}
    (distinct : ((earlier ++ tour :: later).map Toured.name).Nodup) (among : other ∈ later) :
    other.name ≠ tour.name := by
  rw [List.map_append, List.map_cons] at distinct
  have rest := (List.nodup_append.mp distinct).2.1
  intro same
  exact (List.nodup_cons.mp rest).1 (same ▸ List.mem_map_of_mem among)

theorem Flow.seen (flow : h.Flow count owner made pending grown settled)
    (found : made.methods.get? name = some method) :
    h.Leaves name method ∨ ∃ tour ∈ h.added, ∃ call ∈ tour.calls, call.Puts name method := by
  have distinct := nodup_survivors flow.added.distinct
  rw [flow.get?_made, Option.or_eq_some_iff] at found
  obtain last | ⟨noneAdded, found⟩ := found
  · rw [OrderedMap.lookup_eq_some_iff_mem distinct, mem_survivors] at last
    obtain ⟨tour, among, rfl, final⟩ := last
    obtain ⟨earlier, later, split⟩ := List.append_of_mem among
    have names := flow.added.distinct
    rw [split] at names
    refine .inl ⟨h.present ++ earlier, tour, later, by rw [split, List.append_assoc], rfl, final, ?_⟩
    intro other after same
    exact absurd same (notMem_of_nodup names after)
  · rw [flow.get?_settled] at found
    obtain ⟨⟨tour, among, rfl, final⟩, -⟩ | ⟨earlier, call, later, split, puts, -⟩ := found
    · obtain ⟨earlier, later, split⟩ := List.append_of_mem among
      have names := flow.present.distinct
      rw [split] at names
      refine .inl ⟨earlier, tour, later ++ h.added,
        by rw [split, List.append_assoc, List.cons_append], rfl, final, ?_⟩
      rw [List.forall_mem_append]
      refine ⟨fun other after same => absurd same (notMem_of_nodup names after), ?_⟩
      -- A later tour under the name that left a method would have taken the place.
      intro other among same
      by_contra left
      obtain ⟨replacement, final⟩ := Option.ne_none_iff_exists'.mp left
      have present : (survivors h.added).lookup tour.name = some replacement :=
        (OrderedMap.lookup_eq_some_iff_mem distinct).mpr
          (mem_survivors.mpr ⟨other, among, same, final⟩)
      rw [noneAdded] at present
      contradiction
    · have called : call ∈ h.added.flatMap Toured.calls := by simp [split]
      obtain ⟨tour, among, called⟩ := List.mem_flatMap.mp called
      exact .inr ⟨tour, among, call, called, puts⟩

theorem Flow.kept (flow : h.Flow count owner made pending grown settled) {tour : Toured Method}
    (among : tour ∈ h.present ++ h.added) (final : tour.final = some method) :
    made.methods.get? tour.name = some method ∨
      ∃ later ∈ h.added, (later.name = tour.name ∧ later.final ≠ none) ∨
        ∃ call ∈ later.calls, call.Takes tour.name method := by
  have distinct := nodup_survivors flow.added.distinct
  rw [flow.get?_made]
  obtain early | late := List.mem_append.mp among
  · cases replaced : (survivors h.added).lookup tour.name with
    | some replacement =>
        rw [OrderedMap.lookup_eq_some_iff_mem distinct, mem_survivors] at replaced
        obtain ⟨later, among, same, final⟩ := replaced
        exact .inr ⟨later, among, .inl ⟨same, by rw [final]; simp⟩⟩
    | none =>
        by_cases taken : ∃ call ∈ h.added.flatMap Toured.calls, call.Takes tour.name method
        · obtain ⟨call, called, takes⟩ := taken
          obtain ⟨later, among, called⟩ := List.mem_flatMap.mp called
          exact .inr ⟨later, among, .inr ⟨call, called, takes⟩⟩
        · refine .inl (flow.get?_settled.mpr (.inl ⟨⟨tour, early, rfl, final⟩, ?_⟩))
          exact fun call called takes => taken ⟨call, called, takes⟩
  · have found : (survivors h.added).lookup tour.name = some method :=
      (OrderedMap.lookup_eq_some_iff_mem distinct).mpr
        (mem_survivors.mpr ⟨tour, late, rfl, final⟩)
    exact .inl (by rw [found, Option.some_or])

theorem Flow.explains (flow : h.Flow count owner made pending grown settled) :
    h.Explains count owner made where
  others := flow.others
  tours := List.forall_mem_append.mpr ⟨flow.present.each, flow.added.each⟩
  inOrder tour among left := by
    have each := List.forall_mem_append.mpr ⟨flow.present.each, flow.added.each⟩
    rw [(each tour among).map_phase left, Nat.sub_zero, List.range_eq_range']
  once := ⟨flow.present.distinct, flow.added.distinct⟩
  present name method := flow.present.start_iff.trans flow.early.get?_iff
  added name method := flow.added.start_iff.trans flow.toGrown.get?_iff
  seen name method := flow.seen
  kept tour among method := flow.kept among
  calm unchanged := by
    rw [flow.made, flow.toSettled.eq_of_unchanged unchanged, survivors_append, OrderedMap.ofList,
      OrderedMap.ofList, OrderedMap.insertAll, OrderedMap.insertAll, OrderedMap.insertAll,
      List.foldl_append]

end MethodHistory

namespace Phase

variable {σ : Type} {phases : List (Phase σ)}

theorem map_constant_recordAll : (recordAll 0 phases).map constant =
    recordHooks noVisit 0 (phases.map constant) :=
  map_recordAll (fun _ _ => rfl) 0 phases

theorem map_property_recordAll : (recordAll 0 phases).map property =
    recordHooks noVisit 0 (phases.map property) :=
  map_recordAll (fun _ _ => rfl) 0 phases

theorem map_method_recordAll : (recordAll 0 phases).map method =
    recordHooks methodVisit 0 (phases.map method) :=
  map_recordAll (fun _ _ => rfl) 0 phases

theorem visit_eq_none_of_handles {α : Type} {count : Nat} {entries : List (String × α)}
    {tours : List (Toured α)} (handles : Handles noVisit count entries tours) :
    ∀ call ∈ tours.flatMap Toured.calls, call.visit = none := by
  rw [List.forall_mem_flatMap]
  exact fun tour among => (handles.each tour among).visit_eq_none

theorem notes_runAdded (owner : Members) (methods : OrderedMap Method) :
    Notes (runAdded phases owner methods) (runAdded (recordAll 0 phases) owner methods)
      fun made calls => ∃ tours settled,
        Handles methodVisit phases.length owner.methods.entries tours ∧
          calls = tours.flatMap Toured.calls ∧ Leads methods calls settled ∧
          made.methods = settled.insertAll (survivors tours) := by
  unfold runAdded
  by_cases none : owner.methods.isEmpty = true
  · rw [if_pos none, if_pos none]
    have noEntries : owner.methods.entries = [] := List.isEmpty_iff.mp none
    exact .pure ⟨[], methods, ⟨noEntries.symm, by simp⟩, rfl, .refl, rfl⟩
  · rw [if_neg none, if_neg none, map_method_recordAll]
    refine (notes_runSection _ _ _ _).bind ?_
    rintro ⟨left, grown⟩ calls ⟨leads, tours, handles, rfl, rfl⟩
    rw [List.length_map] at handles
    refine .pure ⟨tours, grown.methods, handles, by rw [List.append_nil], ?_, ?_⟩
    · rw [List.append_nil]
      exact leads
    · -- The names of the added methods are distinct, so the second map holds what is left of them.
      have listed := OrderedMap.insertAll_entries (survivors tours) .empty
        (nodup_survivors handles.distinct)
      exact congrArg grown.methods.insertAll listed

theorem notes_runMembers (owner : Members) :
    Notes (runMembers phases owner) (runMembers (recordAll 0 phases) owner) fun made calls =>
      ∃ h : MethodHistory, calls = h.calls ∧ h.Explains phases.length owner made := by
  unfold runMembers
  rw [map_constant_recordAll, map_property_recordAll, map_method_recordAll]
  refine (notes_runSection _ _ _ _).bind ?_
  rintro ⟨constants, owner₁⟩ _ ⟨leads₁, tours₁, handles₁, rfl, -⟩
  refine (notes_runSection _ _ _ _).bind ?_
  rintro ⟨properties, owner₂⟩ _ ⟨leads₂, tours₂, handles₂, rfl, -⟩
  refine (notes_runSection _ _ _ _).bind ?_
  rintro ⟨methods, owner₃⟩ _ ⟨leads₃, present, handles₃, rfl, rfl⟩
  refine (notes_runAdded _ _).mono ?_
  rintro made _ ⟨added, settled, handlesAdded, rfl, toSettled, final⟩
  rw [List.length_map] at handles₃
  have flow : MethodHistory.Flow
      ⟨tours₁.flatMap Toured.calls ++ tours₂.flatMap Toured.calls, present, added⟩
      phases.length owner made owner₂.methods owner₃.methods settled :=
    { others := List.forall_mem_append.mpr
        ⟨visit_eq_none_of_handles handles₁, visit_eq_none_of_handles handles₂⟩
      early := leads₁.append leads₂
      present := handles₃
      toGrown := leads₃
      added := handlesAdded
      toSettled := toSettled
      made := final }
  exact ⟨_, by simp [MethodHistory.calls], flow.explains⟩

theorem notes_runTop (node : Node) (number : Nat) :
    Notes (runTop phases node) (runTop (recordAll number phases) node) fun _ calls =>
      calls = [] := by
  induction phases generalizing node number with
  | nil => exact .pure rfl
  | cons phase rest ih =>
      rw [recordAll, runTop, runTop]
      have first : Notes (phase.top node) ((phase.recorded number).top node) fun _ calls =>
          calls = [] := by
        intro state next kept ran calls
        refine ⟨[], ?_, rfl⟩
        change Except.bind (phase.top node state) _ = _
        rw [ran, List.append_nil]
        rfl
      refine first.bind ?_
      rintro (_ | node) _ rfl
      · exact .pure rfl
      · exact ih node (number + 1)

/-- What becomes of a node that meets the phases in the given state, and the calls of member hooks
that are made for it. -/
inductive NodeSeen (phases : List (Phase σ)) (state : σ) (node : Node) :
    Option Node → List HookCall → Prop
  | removed {between} (top : runTop phases node state = .ok (none, between)) :
      NodeSeen phases state node none []
  | memberless {out between} (top : runTop phases node state = .ok (some out, between))
      (noClass : ∀ decl, out.kind ≠ .classDecl decl)
      (noInterface : ∀ decl, out.kind ≠ .interfaceDecl decl) :
      NodeSeen phases state node (some out) []
  | classDecl {decl pos docblocks members between} {h : MethodHistory}
      (top : runTop phases node state = .ok (some ⟨.classDecl decl, pos, docblocks⟩, between))
      (inner : h.Explains phases.length decl.members members) :
      NodeSeen phases state node (some ⟨.classDecl { decl with members }, pos, docblocks⟩) h.calls
  | interfaceDecl {decl pos docblocks members between} {h : MethodHistory}
      (top : runTop phases node state = .ok (some ⟨.interfaceDecl decl, pos, docblocks⟩, between))
      (inner : h.Explains phases.length decl.members members) :
      NodeSeen phases state node (some ⟨.interfaceDecl { decl with members }, pos, docblocks⟩)
        h.calls

inductive UnitSeen (phases : List (Phase σ)) :
    σ → List Node → List Node → List HookCall → σ → Prop
  | nil {state} : UnitSeen phases state [] [] [] state
  | cons {state between next node out rest others calls more}
      (ran : runNode phases node state = .ok (out, between))
      (first : NodeSeen phases state node out calls)
      (following : UnitSeen phases between rest others more next) :
      UnitSeen phases state (node :: rest) (out.toList ++ others) (calls ++ more) next

open PhaseStep

theorem runNode_seen {node : Node} {out : Option Node} {state next : σ}
    (ran : runNode phases node state = .ok (out, next)) (calls : List HookCall) :
    ∃ more, runNode (recordAll 0 phases) node (state, calls) = .ok (out, (next, calls ++ more)) ∧
      NodeSeen phases state node out more := by
  obtain ⟨top, between, ranTop, ran⟩ := bind_ok ran
  obtain ⟨_, againTop, rfl⟩ := notes_runTop node 0 _ _ _ ranTop calls
  rw [List.append_nil] at againTop
  cases top with
  | none =>
      obtain ⟨rfl, rfl⟩ := pure_ok ran
      refine ⟨[], ?_, .removed ranTop⟩
      rw [runNode, bind_of_ok againTop, List.append_nil]
      rfl
  | some made =>
      obtain ⟨kind, pos, docblocks⟩ := made
      cases kind with
      | classDecl decl =>
          obtain ⟨members, later, ranMembers, built⟩ := bind_ok ran
          obtain ⟨rfl, rfl⟩ := pure_ok built
          obtain ⟨_, again, h, rfl, explains⟩ :=
            notes_runMembers decl.members _ _ _ ranMembers calls
          refine ⟨h.calls, ?_, .classDecl ranTop explains⟩
          rw [runNode, bind_of_ok againTop]
          exact bind_of_ok again
      | interfaceDecl decl =>
          obtain ⟨members, later, ranMembers, built⟩ := bind_ok ran
          obtain ⟨rfl, rfl⟩ := pure_ok built
          obtain ⟨_, again, h, rfl, explains⟩ :=
            notes_runMembers decl.members _ _ _ ranMembers calls
          refine ⟨h.calls, ?_, .interfaceDecl ranTop explains⟩
          rw [runNode, bind_of_ok againTop]
          exact bind_of_ok again
      | _ =>
          obtain ⟨rfl, rfl⟩ := pure_ok ran
          refine ⟨[], ?_, .memberless ranTop (by simp) (by simp)⟩
          rw [runNode, bind_of_ok againTop, List.append_nil]
          rfl

theorem run_seen {unit made : List Node} {state next : σ}
    (ran : run phases unit state = .ok (made, next)) (calls : List HookCall) :
    ∃ more, run (recordAll 0 phases) unit (state, calls) = .ok (made, (next, calls ++ more)) ∧
      UnitSeen phases state unit made more next := by
  induction unit generalizing made state calls with
  | nil =>
      obtain ⟨rfl, rfl⟩ := pure_ok ran
      refine ⟨[], ?_, .nil⟩
      rw [List.append_nil]
      rfl
  | cons node rest ih =>
      obtain ⟨out, between, ranNode, ran⟩ := bind_ok ran
      obtain ⟨others, later, ranRest, built⟩ := bind_ok ran
      obtain ⟨rfl, rfl⟩ := pure_ok built
      obtain ⟨first, againNode, seen⟩ := runNode_seen ranNode calls
      obtain ⟨more, againRest, following⟩ := ih ranRest (calls ++ first)
      refine ⟨first ++ more, ?_, .cons ranNode seen following⟩
      rw [run, bind_of_ok againNode, bind_of_ok againRest, List.append_assoc]
      rfl

/-- Noting the calls of the member hooks changes nothing about a run, and the calls show which
methods of each class and interface were seen and what is left of them. -/
theorem run_methods_seen {unit made : List Node} {state next : σ}
    (ran : run phases unit state = .ok (made, next)) :
    ∃ calls, run (recordAll 0 phases) unit (state, []) = .ok (made, (next, calls)) ∧
      UnitSeen phases state unit made calls next :=
  run_seen ran []

def growing (pairs : List (String × String)) : Phase Unit where
  name := "growing"
  method owner m := pure (some m,
    match pairs.lookup m.name with
    | some name => { owner with methods := owner.methods.insert name (.plain name {}) }
    | none => owner)

def singleMethodSample : List Node :=
  let methods := .ofList [("a", Method.plain "a" {})]
  [⟨.classDecl ⟨"A", false, false, none, [], none, ⟨none, .empty, .empty, methods⟩⟩, {}, []⟩]

def visitedNames (calls : List HookCall) : List String :=
  calls.filterMap fun call => call.visit.map fun visit => visit.given.name

/-- A method that is added for the only one is seen. One that is added for the added method comes
into the class unseen. -/
theorem growingSamples_seen :
    (∃ made calls, run [growing [("a", "b")]] singleMethodSample () = .ok (made, ()) ∧
      UnitSeen [growing [("a", "b")]] () singleMethodSample made calls () ∧
      methodNames made = ["a", "b"] ∧ visitedNames calls = ["a", "b"]) ∧
    ∃ made calls, run [growing [("a", "b"), ("b", "c")]] singleMethodSample () = .ok (made, ()) ∧
      UnitSeen [growing [("a", "b"), ("b", "c")]] () singleMethodSample made calls () ∧
      methodNames made = ["a", "c", "b"] ∧ visitedNames calls = ["a", "b"] := by
  constructor
  · have ran : run [growing [("a", "b")]] singleMethodSample () = .ok (_, ()) := rfl
    obtain ⟨calls, again, seen⟩ := run_methods_seen ran
    cases again
    exact ⟨_, _, ran, seen, rfl, rfl⟩
  · have ran : run [growing [("a", "b"), ("b", "c")]] singleMethodSample () = .ok (_, ()) := rfl
    obtain ⟨calls, again, seen⟩ := run_methods_seen ran
    cases again
    exact ⟨_, _, ran, seen, rfl, rfl⟩

end Phase

end Zephir
