import Zephir.Proofs.Compile.MemberOrder
import Zephir.Proofs.Syntax.ReadTree

/-!
Phases whose hooks note their calls. Noting changes nothing about a run, whatever the hooks do, and
the calls that are noted for a section are those of its members, one member after the other: each
goes through the hooks of all phases in order, or up to the one that drops it.
-/

namespace Zephir

structure Visit where
  given : Method
  left : Option Method

/-- A call of a member hook: the number of its phase, the method if one was handled, and the methods
of the owner before and after the call. -/
structure HookCall where
  phase : Nat
  visit : Option Visit
  before : OrderedMap Method
  after : OrderedMap Method

variable {σ α β : Type}

def MemberHook.recorded (visit : α → Option α → Option Visit) (number : Nat)
    (hook : MemberHook σ α) : MemberHook (σ × List HookCall) α :=
  fun owner member (state, calls) => do
    let ((left, grown), next) ← hook owner member state
    let call := ⟨number, visit member left, owner.methods, grown.methods⟩
    return ((left, grown), (next, calls ++ [call]))

def noVisit (_ : α) (_ : Option α) : Option Visit :=
  none

def methodVisit (given : Method) (left : Option Method) : Option Visit :=
  some { given, left }

namespace Phase

def recorded (number : Nat) (phase : Phase σ) : Phase (σ × List HookCall) where
  name := phase.name
  top node := fun (state, calls) => do
    let (kept, next) ← phase.top node state
    return (kept, (next, calls))
  constant := phase.constant.recorded noVisit number
  property := phase.property.recorded noVisit number
  method := phase.method.recorded methodVisit number

def recordAll (number : Nat) : List (Phase σ) → List (Phase (σ × List HookCall))
  | [] => []
  | phase :: rest => phase.recorded number :: recordAll (number + 1) rest

def recordHooks (visit : α → Option α → Option Visit) (number : Nat) :
    List (MemberHook σ α) → List (MemberHook (σ × List HookCall) α)
  | [] => []
  | hook :: rest => hook.recorded visit number :: recordHooks visit (number + 1) rest

theorem map_recordAll {hook : Phase σ → MemberHook σ α}
    {noting : Phase (σ × List HookCall) → MemberHook (σ × List HookCall) α}
    {visit : α → Option α → Option Visit}
    (same : ∀ number phase, noting (recorded number phase) = (hook phase).recorded visit number)
    (number : Nat) (phases : List (Phase σ)) :
    (recordAll number phases).map noting = recordHooks visit number (phases.map hook) := by
  induction phases generalizing number with
  | nil => rfl
  | cons phase rest ih =>
      rw [recordAll, List.map_cons, List.map_cons, recordHooks, same, ih]

end Phase

/-- Whenever the plain step succeeds, the noting step does so with the same result, and the calls
that it notes are as said. -/
def Notes (plain : PhaseStep σ α) (noting : PhaseStep (σ × List HookCall) α)
    (noted : α → List HookCall → Prop) : Prop :=
  ∀ (state next : σ) (a : α), plain state = .ok (a, next) → ∀ calls,
    ∃ more, noting (state, calls) = .ok (a, (next, calls ++ more)) ∧ noted a more

namespace Notes

variable {plain : PhaseStep σ α} {noting : PhaseStep (σ × List HookCall) α}
  {noted : α → List HookCall → Prop}

theorem pure {a : α} (holds : noted a []) : Notes (σ := σ) (pure a) (pure a) noted := by
  intro state next b ran calls
  obtain ⟨rfl, rfl⟩ := PhaseStep.pure_ok ran
  exact ⟨[], by rw [List.append_nil]; rfl, holds⟩

theorem bind {f : α → PhaseStep σ β} {g : α → PhaseStep (σ × List HookCall) β}
    {later : β → List HookCall → Prop} (first : Notes plain noting noted)
    (follows : ∀ a calls, noted a calls →
      Notes (f a) (g a) fun b more => later b (calls ++ more)) :
    Notes (plain >>= f) (noting >>= g) later := by
  intro state next b ran calls
  obtain ⟨a, between, ranFirst, ranNext⟩ := PhaseStep.bind_ok ran
  obtain ⟨more, again, holds⟩ := first _ _ _ ranFirst calls
  obtain ⟨rest, againNext, holdsNext⟩ := follows a more holds _ _ _ ranNext (calls ++ more)
  refine ⟨more ++ rest, ?_, holdsNext⟩
  rw [PhaseStep.bind_of_ok again, ← List.append_assoc]
  exact againNext

theorem mono {weaker : α → List HookCall → Prop} (notes : Notes plain noting noted)
    (weakens : ∀ a calls, noted a calls → weaker a calls) : Notes plain noting weaker := by
  intro state next a ran calls
  obtain ⟨more, again, holds⟩ := notes _ _ _ ran calls
  exact ⟨more, again, weakens a more holds⟩

end Notes

inductive Leads : OrderedMap Method → List HookCall → OrderedMap Method → Prop
  | refl {methods} : Leads methods [] methods
  | step {methods call rest last} (before : call.before = methods)
      (others : Leads call.after rest last) : Leads methods (call :: rest) last

theorem Leads.append {methods between last : OrderedMap Method} {calls more : List HookCall}
    (first : Leads methods calls between) (second : Leads between more last) :
    Leads methods (calls ++ more) last := by
  induction first with
  | refl => exact second
  | step before _ ih => exact .step before (ih second)

/-- The calls for one member from the phase with the given number on: a call of each phase in turn,
with what the phase before left, up to the last of `count` phases or to one that drops it. -/
inductive Tour (visit : α → Option α → Option Visit) (count : Nat) :
    Nat → α → List HookCall → Option α → Prop
  | finished {member} : Tour visit count count member [] (some member)
  | dropped {number member call} (phase : call.phase = number)
      (seen : call.visit = visit member none) (below : number < count) :
      Tour visit count number member [call] none
  | handedOn {number member left call rest final} (phase : call.phase = number)
      (seen : call.visit = visit member (some left))
      (others : Tour visit count (number + 1) left rest final) :
      Tour visit count number member (call :: rest) final

namespace Tour

variable {visit : α → Option α → Option Visit} {count number : Nat} {member : α}
  {calls : List HookCall} {final : Option α}

theorem visit_eq_none (tour : Tour noVisit count number member calls final) :
    ∀ call ∈ calls, call.visit = none := by
  induction tour with
  | finished => simp
  | dropped _ seen _ => exact List.forall_mem_singleton.mpr seen
  | handedOn _ seen _ ih => exact List.forall_mem_cons.mpr ⟨seen, ih⟩

theorem number_le (tour : Tour visit count number member calls final) : number ≤ count := by
  induction tour with
  | finished => exact Nat.le_refl _
  | dropped _ _ below => exact Nat.le_of_lt below
  | handedOn _ _ _ ih => omega

theorem map_phase (tour : Tour visit count number member calls final) (left : final ≠ none) :
    calls.map HookCall.phase = List.range' number (count - number) := by
  induction tour with
  | finished => simp
  | dropped => exact absurd rfl left
  | @handedOn number member _ call rest final phase _ others ih =>
      have below := others.number_le
      have split : count - number = count - (number + 1) + 1 := by omega
      rw [List.map_cons, phase, ih left, split, List.range'_succ]

end Tour

/-- A member by its name on its way through the hooks: what it was, the calls made for it, and what
was left of it. -/
structure Toured (α : Type) where
  name : String
  start : α
  calls : List HookCall
  final : Option α

def survivors (tours : List (Toured α)) : List (String × α) :=
  tours.filterMap fun tour => tour.final.map fun left => (tour.name, left)

structure Handles (visit : α → Option α → Option Visit) (count : Nat)
    (entries : List (String × α)) (tours : List (Toured α)) : Prop where
  starts : tours.map (fun tour => (tour.name, tour.start)) = entries
  each : ∀ tour ∈ tours, Tour visit count 0 tour.start tour.calls tour.final

theorem Handles.cons {visit : α → Option α → Option Visit} {count : Nat} {name : String}
    {member : α} {calls : List HookCall} {final : Option α} {entries : List (String × α)}
    {tours : List (Toured α)} (first : Tour visit count 0 member calls final)
    (others : Handles visit count entries tours) :
    Handles visit count ((name, member) :: entries) (⟨name, member, calls, final⟩ :: tours) where
  starts := by rw [List.map_cons, others.starts]
  each := List.forall_mem_cons.mpr ⟨first, others.each⟩

namespace Phase

variable {visit : α → Option α → Option Visit}

theorem notes_recorded (hook : MemberHook σ α) (number : Nat) (owner : Members) (member : α) :
    Notes (hook owner member) (hook.recorded visit number owner member) fun result calls =>
      calls = [⟨number, visit member result.1, owner.methods, result.2.methods⟩] := by
  intro state next result ran calls
  refine ⟨_, ?_, rfl⟩
  change Except.bind (hook owner member state) _ = _
  rw [ran]
  rfl

theorem notes_runMember (hooks : List (MemberHook σ α)) (number : Nat) (owner : Members)
    (member : α) :
    Notes (runMember hooks owner member) (runMember (recordHooks visit number hooks) owner member)
      fun result calls => Tour visit (number + hooks.length) number member calls result.1 ∧
        Leads owner.methods calls result.2.methods := by
  induction hooks generalizing number owner member with
  | nil => exact .pure ⟨.finished, .refl⟩
  | cons hook rest ih =>
      rw [recordHooks, runMember, runMember]
      refine (notes_recorded hook number owner member).bind ?_
      rintro ⟨left, grown⟩ calls rfl
      cases left with
      | none => exact .pure ⟨.dropped rfl rfl (by simp), .step rfl .refl⟩
      | some left =>
          refine (ih (number + 1) grown left).mono ?_
          rintro result more ⟨tour, leads⟩
          have count : number + (hook :: rest).length = number + 1 + rest.length := by
            rw [List.length_cons]
            omega
          rw [count]
          exact ⟨.handedOn rfl rfl tour, .step rfl leads⟩

theorem notes_runSection (hooks : List (MemberHook σ α)) (owner : Members) (kept : OrderedMap α)
    (entries : List (String × α)) :
    Notes (runSection hooks owner kept entries)
      (runSection (recordHooks visit 0 hooks) owner kept entries) fun result calls =>
        Leads owner.methods calls result.2.methods ∧
          ∃ tours, Handles visit hooks.length entries tours ∧
            calls = tours.flatMap Toured.calls ∧ result.1 = kept.insertAll (survivors tours) := by
  induction entries generalizing owner kept with
  | nil => exact .pure ⟨.refl, [], ⟨rfl, by simp⟩, rfl, rfl⟩
  | cons entry rest ih =>
      obtain ⟨name, member⟩ := entry
      rw [runSection, runSection]
      refine (notes_runMember hooks 0 owner member).bind ?_
      rintro ⟨left, grown⟩ calls ⟨tour, leads⟩
      rw [Nat.zero_add] at tour
      cases left with
      | none =>
          refine (ih grown kept).mono ?_
          rintro result more ⟨leadsRest, tours, handles, rfl, made⟩
          exact ⟨leads.append leadsRest, _, .cons tour handles, rfl, made⟩
      | some left =>
          refine (ih grown (kept.insert name left)).mono ?_
          rintro result more ⟨leadsRest, tours, handles, rfl, made⟩
          exact ⟨leads.append leadsRest, _, .cons tour handles, rfl, made⟩

end Phase

end Zephir
