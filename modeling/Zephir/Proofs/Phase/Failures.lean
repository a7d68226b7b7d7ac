import Zephir.Phase.Basic
import Zephir.Proofs.Lowering.Failures

/-!
Why a run of phases fails. Nothing but a hook fails, so a run fails for the causes for which its
hooks do, whatever the unit and however many phases there are.
-/

namespace Zephir

variable {causes : Cause → Prop} {σ α β : Type}

def ResultFailsFor (causes : Cause → Prop) (result : Except Diagnostic α) : Prop :=
  ∀ d, result = .error d → d.RaisedFor causes

theorem resultFailsFor_ok {a : α} : ResultFailsFor causes (.ok a) := by
  intro d failed
  contradiction

theorem resultFailsFor_error {d : Diagnostic} (raised : d.RaisedFor causes) :
    ResultFailsFor causes (.error d : Except Diagnostic α) := by
  intro other failed
  cases failed
  exact raised

theorem ResultFailsFor.bind {x : Except Diagnostic α} {f : α → Except Diagnostic β}
    (first : ResultFailsFor causes x) (follows : ∀ a, ResultFailsFor causes (f a)) :
    ResultFailsFor causes (x >>= f) := by
  cases x with
  | error d => exact resultFailsFor_error (first d rfl)
  | ok a => exact follows a

theorem ResultFailsFor.map {x : Except Diagnostic α} {f : α → β}
    (first : ResultFailsFor causes x) : ResultFailsFor causes (x.map f) := by
  cases x with
  | error d => exact resultFailsFor_error (first d rfl)
  | ok a => exact resultFailsFor_ok

namespace PhaseStep

variable {x : PhaseStep σ α}

/-- Every run of the step that fails does so for one of the causes. -/
def FailsFor (causes : Cause → Prop) (x : PhaseStep σ α) : Prop :=
  ∀ state, ResultFailsFor causes (x state)

theorem failsFor_pure {a : α} : (pure a : PhaseStep σ α).FailsFor causes :=
  fun _ => resultFailsFor_ok

theorem FailsFor.bind {f : α → PhaseStep σ β} (first : x.FailsFor causes)
    (follows : ∀ a, (f a).FailsFor causes) : (x >>= f).FailsFor causes :=
  fun state => ResultFailsFor.bind (first state) fun result => follows result.1 result.2

theorem failsFor_lift {result : Except Diagnostic α} (fails : ResultFailsFor causes result) :
    (liftM result : PhaseStep σ α).FailsFor causes := by
  intro state
  cases result with
  | error d => exact resultFailsFor_error (fails d rfl)
  | ok a => exact resultFailsFor_ok

end PhaseStep

open PhaseStep

def MemberHook.FailsFor (causes : Cause → Prop) (hook : MemberHook σ α) : Prop :=
  ∀ owner member, (hook owner member).FailsFor causes

theorem MemberHook.failsFor_keep : MemberHook.FailsFor causes (.keep : MemberHook σ α) :=
  fun _ _ => failsFor_pure

namespace Phase

structure FailsFor (causes : Cause → Prop) (phase : Phase σ) : Prop where
  top : ∀ n, (phase.top n).FailsFor causes
  constant : phase.constant.FailsFor causes
  property : phase.property.FailsFor causes
  method : phase.method.FailsFor causes

variable {phases : List (Phase σ)} {hooks : List (MemberHook σ α)}

theorem failsFor_runTop (all : ∀ phase ∈ phases, phase.FailsFor causes) (n : Node) :
    (runTop phases n).FailsFor causes := by
  induction phases generalizing n with
  | nil => exact failsFor_pure
  | cons phase rest ih =>
      rw [List.forall_mem_cons] at all
      refine PhaseStep.FailsFor.bind (all.1.top n) fun made => ?_
      cases made with
      | none => exact failsFor_pure
      | some n => exact ih all.2 n

theorem failsFor_runMember (all : ∀ hook ∈ hooks, hook.FailsFor causes) (owner : Members)
    (member : α) : (runMember hooks owner member).FailsFor causes := by
  induction hooks generalizing owner member with
  | nil => exact failsFor_pure
  | cons hook rest ih =>
      rw [List.forall_mem_cons] at all
      refine PhaseStep.FailsFor.bind (all.1 owner member) fun result => ?_
      obtain ⟨made, owner⟩ := result
      cases made with
      | none => exact failsFor_pure
      | some member => exact ih all.2 owner member

theorem failsFor_runSection (all : ∀ hook ∈ hooks, hook.FailsFor causes) (owner : Members)
    (kept : OrderedMap α) (entries : List (String × α)) :
    (runSection hooks owner kept entries).FailsFor causes := by
  induction entries generalizing owner kept with
  | nil => exact failsFor_pure
  | cons entry rest ih =>
      obtain ⟨name, member⟩ := entry
      refine PhaseStep.FailsFor.bind (failsFor_runMember all owner member) fun result => ?_
      obtain ⟨made, owner⟩ := result
      cases made with
      | none => exact ih owner kept
      | some member => exact ih owner (kept.insert name member)

theorem failsFor_runMembers (all : ∀ phase ∈ phases, phase.FailsFor causes) (members : Members) :
    (runMembers phases members).FailsFor causes := by
  have constants := List.forall_mem_map.mpr fun phase among => (all phase among).constant
  have properties := List.forall_mem_map.mpr fun phase among => (all phase among).property
  have methods := List.forall_mem_map.mpr fun phase among => (all phase among).method
  refine PhaseStep.FailsFor.bind (failsFor_runSection constants _ _ _) fun _ =>
    PhaseStep.FailsFor.bind (failsFor_runSection properties _ _ _) fun _ =>
    PhaseStep.FailsFor.bind (failsFor_runSection methods _ _ _) fun result => ?_
  obtain ⟨handled, owner⟩ := result
  change (runAdded phases owner handled).FailsFor causes
  unfold runAdded
  split
  · exact failsFor_pure
  · exact PhaseStep.FailsFor.bind (failsFor_runSection methods _ _ _) fun _ => failsFor_pure

theorem failsFor_runNode (all : ∀ phase ∈ phases, phase.FailsFor causes) (n : Node) :
    (runNode phases n).FailsFor causes := by
  refine PhaseStep.FailsFor.bind (failsFor_runTop all n) fun made => ?_
  cases made with
  | none => exact failsFor_pure
  | some n =>
      obtain ⟨kind, pos, docblocks⟩ := n
      cases kind with
      | classDecl decl | interfaceDecl decl =>
          exact PhaseStep.FailsFor.bind (failsFor_runMembers all decl.members) fun _ =>
            failsFor_pure
      | _ => exact failsFor_pure

theorem failsFor_run (all : ∀ phase ∈ phases, phase.FailsFor causes) (unit : List Node) :
    (run phases unit).FailsFor causes := by
  induction unit with
  | nil => exact failsFor_pure
  | cons n rest ih =>
      exact PhaseStep.FailsFor.bind (failsFor_runNode all n) fun _ =>
        PhaseStep.FailsFor.bind ih fun _ => failsFor_pure

end Phase

end Zephir
