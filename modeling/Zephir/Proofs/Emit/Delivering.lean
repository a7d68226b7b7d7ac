import Zephir.Proofs.Emit.Sinks

/-!
The first failure of a sink wins. Operations are carried out one by one, and one that makes no
sense where it stands is passed over. What the emitter hands on does not depend on the sink, so a
sink that fails gets the same calls as any other up to its first failure. After that it gets no
lines and no close, and the failure is what the unit comes to.
-/

namespace Zephir

variable {σ τ : Type}

namespace Emitter

/-- Carries out an operation. One that makes no sense leaves the emitter as it is. -/
def attempt (layout : Layout) (e : Emitter) (op : Op) : Emitter × List Event :=
  match e.step layout op with
  | .ok result => result
  | .error _ => (e, [])

def attemptAll (layout : Layout) (e : Emitter) : List Op → Emitter × List Event
  | [] => (e, [])
  | op :: rest =>
    let first := e.attempt layout op
    let others := attemptAll layout first.1 rest
    (others.1, first.2 ++ others.2)

end Emitter

namespace Output

def attempt (layout : Layout) (sink : Sink σ) (out : Output σ) (op : Op) : Output σ :=
  match out.step layout sink op with
  | .ok next => next
  | .error _ => out

def attemptAll (layout : Layout) (sink : Sink σ) (out : Output σ) (ops : List Op) : Output σ :=
  ops.foldl (attempt layout sink) out

variable {layout : Layout} {sink : Sink σ} {out : Output σ}

theorem attempt_eq (op : Op) :
    out.attempt layout sink op =
      ⟨(out.emitter.attempt layout op).1,
        out.delivery.deliverAll sink (out.emitter.attempt layout op).2⟩ := by
  unfold attempt step Emitter.attempt
  cases out.emitter.step layout op with
  | error fault => rfl
  | ok result => rfl

/-- The emitter works as if there were no sink. -/
theorem attemptAll_eq (ops : List Op) :
    out.attemptAll layout sink ops =
      ⟨(out.emitter.attemptAll layout ops).1,
        out.delivery.deliverAll sink (out.emitter.attemptAll layout ops).2⟩ := by
  induction ops generalizing out with
  | nil => rfl
  | cons op rest ih =>
      have next : out.attemptAll layout sink (op :: rest) =
          (out.attempt layout sink op).attemptAll layout sink rest := rfl
      rw [next, ih, attempt_eq]
      simp [Emitter.attemptAll, Delivery.deliverAll]

end Output

structure LogEntry where
  call : Call
  failure : Option FileError
  deriving DecidableEq

def Sink.logged (sink : Sink σ) : Sink (σ × List LogEntry) where
  start target s :=
    let outcome := sink.start target s.1
    ((outcome.1, s.2 ++ [⟨.start target, outcome.2⟩]), outcome.2)
  write line s :=
    let outcome := sink.write line s.1
    ((outcome.1, s.2 ++ [⟨.write line, outcome.2⟩]), outcome.2)
  close s :=
    let outcome := sink.close s.1
    ((outcome.1, s.2 ++ [⟨.close, outcome.2⟩]), outcome.2)

structure Sink.NeverFails (sink : Sink σ) : Prop where
  start : ∀ target state, (sink.start target state).2 = none
  write : ∀ line state, (sink.write line state).2 = none
  close : ∀ state, (sink.close state).2 = none

def OnlyStarts (entries : List LogEntry) : Prop :=
  ∀ entry ∈ entries, ∃ target, entry.call = .start target

/-- What a sink makes of events: the entries in its log, and the failure that is kept. -/
inductive Sent : List Event → List LogEntry → Option FileError → Prop
  | done : Sent [] [] none
  | went {event events entries failure} : Sent events entries failure →
      Sent (event :: events) (⟨event.call, none⟩ :: entries) failure
  | failed {event events entries e} : OnlyStarts entries →
      Sent (event :: events) (⟨event.call, some e⟩ :: entries) (some e)

namespace Sent

variable {events : List Event} {entries : List LogEntry} {failure : Option FileError}

theorem call_ne_close (sent : Sent events entries failure) :
    ∀ entry ∈ entries, entry.call ≠ .close := by
  have opens (event : Event) : event.call ≠ .close := by cases event <;> simp [Event.call]
  induction sent with
  | done => simp
  | went _ ih => exact List.forall_mem_cons.mpr ⟨opens _, ih⟩
  | failed silent =>
      refine List.forall_mem_cons.mpr ⟨opens _, fun entry among => ?_⟩
      obtain ⟨target, same⟩ := silent entry among
      simp [same]

theorem eq_map (sent : Sent events entries failure) (calm : failure = none) :
    entries = events.map fun event => ⟨event.call, none⟩ := by
  induction sent with
  | done => rfl
  | went _ ih => rw [List.map_cons, ih calm]
  | failed _ => contradiction

theorem exists_failed {e : FileError} (sent : Sent events entries failure)
    (kept : failure = some e) : ∃ entry ∈ entries, entry.failure = some e := by
  induction sent with
  | done => contradiction
  | went _ ih =>
      obtain ⟨entry, among, failed⟩ := ih kept
      exact ⟨entry, List.mem_cons_of_mem _ among, failed⟩
  | failed _ => exact ⟨_, List.mem_cons_self, kept⟩

/-- The first entry that failed ends what the sink gets, and its failure is the one that is
kept. -/
theorem first_failed (sent : Sent events entries failure) {before after : List LogEntry}
    {entry : LogEntry} {e : FileError} (split : entries = before ++ entry :: after)
    (calm : ∀ earlier ∈ before, earlier.failure = none) (failed : entry.failure = some e) :
    OnlyStarts after ∧ failure = some e ∧
      before.map (·.call) ++ [entry.call] <+: events.map Event.call := by
  induction sent generalizing before with
  | done => simp at split
  | went _ ih =>
      cases before with
      | nil =>
          obtain ⟨rfl, -⟩ := List.cons.inj split
          contradiction
      | cons first before =>
          obtain ⟨rfl, rest⟩ := List.cons.inj split
          rw [List.forall_mem_cons] at calm
          obtain ⟨silent, kept, same⟩ := ih rest calm.2
          exact ⟨silent, kept, by simpa using same⟩
  | failed silent =>
      cases before with
      | nil =>
          obtain ⟨rfl, rfl⟩ := List.cons.inj split
          exact ⟨silent, failed, by simp⟩
      | cons first before =>
          obtain ⟨rfl, -⟩ := List.cons.inj split
          rw [List.forall_mem_cons] at calm
          simp at calm

end Sent

namespace Delivery

variable {sink : Sink σ} {d : Delivery (σ × List LogEntry)}

theorem deliver_failed (sink : Sink σ) {e : FileError} (failed : d.failure = some e)
    (event : Event) :
    ∃ entries, (deliver sink.logged d event).state.2 = d.state.2 ++ entries ∧
      OnlyStarts entries ∧ (deliver sink.logged d event).failure = some e := by
  cases event with
  | start target =>
      exact ⟨[⟨.start target, _⟩], rfl, by simp [OnlyStarts], by simp [deliver, after, failed]⟩
  | write line =>
      exact ⟨[], by simp [deliver, failed], by simp [OnlyStarts], by simp [deliver, failed]⟩

theorem deliverAll_failed (sink : Sink σ) {e : FileError} (failed : d.failure = some e)
    (events : List Event) :
    ∃ entries, (deliverAll sink.logged d events).state.2 = d.state.2 ++ entries ∧
      OnlyStarts entries ∧ (deliverAll sink.logged d events).failure = some e := by
  induction events generalizing d with
  | nil => exact ⟨[], by simp [deliverAll], by simp [OnlyStarts], failed⟩
  | cons event rest ih =>
      obtain ⟨first, logged, starts, kept⟩ := deliver_failed sink failed event
      obtain ⟨others, loggedRest, startsRest, keptRest⟩ := ih kept
      refine ⟨first ++ others, ?_, ?_, keptRest⟩
      · rw [deliverAll_cons, loggedRest, logged, List.append_assoc]
      · exact List.forall_mem_append.mpr ⟨starts, startsRest⟩

theorem deliver_calm (sink : Sink σ) (calm : d.failure = none) (event : Event) :
    (deliver sink.logged d event).state.2 =
      d.state.2 ++ [⟨event.call, (deliver sink.logged d event).failure⟩] := by
  cases event <;> simp [deliver, after, calm, Sink.logged, Event.call]

theorem deliverAll_sent (sink : Sink σ) (calm : d.failure = none) (events : List Event) :
    ∃ entries, (deliverAll sink.logged d events).state.2 = d.state.2 ++ entries ∧
      Sent events entries (deliverAll sink.logged d events).failure := by
  induction events generalizing d with
  | nil => exact ⟨[], by simp [deliverAll], calm ▸ Sent.done⟩
  | cons event rest ih =>
      have first := deliver_calm sink calm event
      rw [deliverAll_cons]
      cases outcome : (deliver sink.logged d event).failure with
      | none =>
          obtain ⟨entries, logged, sent⟩ := ih outcome
          refine ⟨⟨event.call, none⟩ :: entries, ?_, sent.went⟩
          rw [logged, first, outcome, List.append_assoc, List.singleton_append]
      | some e =>
          obtain ⟨entries, logged, starts, kept⟩ := deliverAll_failed sink outcome rest
          rw [kept]
          refine ⟨⟨event.call, some e⟩ :: entries, ?_, .failed starts⟩
          rw [logged, first, outcome, List.append_assoc, List.singleton_append]

theorem failure_deliver_safe (safe : sink.NeverFails) (calm : d.failure = none) (event : Event) :
    (deliver sink.logged d event).failure = none := by
  cases event with
  | start target => simp [deliver, after, calm, Sink.logged, safe.start]
  | write line => simp [deliver, after, calm, Sink.logged, safe.write]

theorem failure_deliverAll_safe (safe : sink.NeverFails) (calm : d.failure = none)
    (events : List Event) : (deliverAll sink.logged d events).failure = none := by
  induction events generalizing d with
  | nil => exact calm
  | cons event rest ih => exact ih (failure_deliver_safe safe calm event)

theorem close_failed {e : FileError} (failed : d.failure = some e) : d.close sink.logged = d := by
  simp [close, failed]

theorem close_calm (calm : d.failure = none) :
    (d.close sink.logged).state.2 =
      d.state.2 ++ [⟨.close, (d.close sink.logged).failure⟩] := by
  simp [close, after, calm, Sink.logged]

end Delivery

namespace Delivery

variable {sink : Sink σ}

def unlogged (d : Delivery (σ × List LogEntry)) : Delivery σ :=
  { state := d.state.1, failure := d.failure }

theorem deliver_unlogged (d : Delivery (σ × List LogEntry)) (event : Event) :
    deliver sink d.unlogged event = (deliver sink.logged d event).unlogged := by
  cases event with
  | start target => rfl
  | write line =>
      by_cases failed : d.failure.isSome
      · simp [deliver, unlogged, failed]
      · simp [deliver, unlogged, failed, after, Sink.logged]

theorem deliverAll_unlogged (d : Delivery (σ × List LogEntry)) (events : List Event) :
    deliverAll sink d.unlogged events = (deliverAll sink.logged d events).unlogged := by
  induction events generalizing d with
  | nil => rfl
  | cons event rest ih => rw [deliverAll_cons, deliverAll_cons, deliver_unlogged, ih]

theorem close_unlogged (d : Delivery (σ × List LogEntry)) :
    d.unlogged.close sink = (d.close sink.logged).unlogged := by
  by_cases failed : d.failure.isSome
  · simp [close, unlogged, failed]
  · simp [close, unlogged, failed, after, Sink.logged]

end Delivery

/-- The log of a whole unit and what it comes to. Only a unit without a failure is closed. -/
inductive Ended (events : List Event) : List LogEntry → Option FileError → Prop
  | stopped {entries e} : Sent events entries (some e) → Ended events entries (some e)
  | closed {entries} (outcome : Option FileError) : Sent events entries none →
      Ended events (entries ++ [⟨.close, outcome⟩]) outcome

namespace Ended

variable {events : List Event} {log : List LogEntry} {failure : Option FileError}

theorem first_failed (ended : Ended events log failure) {before after : List LogEntry}
    {entry : LogEntry} {e : FileError} (split : log = before ++ entry :: after)
    (calm : ∀ earlier ∈ before, earlier.failure = none) (failed : entry.failure = some e) :
    OnlyStarts after ∧ failure = some e ∧
      before.map (·.call) ++ [entry.call] <+: events.map Event.call ++ [.close] := by
  cases ended with
  | stopped sent =>
      obtain ⟨silent, kept, same⟩ := sent.first_failed split calm failed
      exact ⟨silent, kept, same.trans (List.prefix_append _ _)⟩
  | @closed entries _ sent =>
      have written : ∀ entry ∈ entries, entry.failure = none := by
        rw [sent.eq_map rfl]
        simp
      rcases List.eq_nil_or_concat after with rfl | ⟨others, last, rfl⟩
      · obtain ⟨rfl, same⟩ := List.append_inj' split rfl
        obtain rfl := List.singleton_inj.mp same
        refine ⟨by simp [OnlyStarts], failed, ?_⟩
        simp [sent.eq_map rfl, Function.comp_def]
      · rw [List.concat_eq_append, ← List.cons_append, ← List.append_assoc] at split
        obtain ⟨rfl, -⟩ := List.append_inj' split rfl
        have calmEntry := written entry (by simp)
        simp [calmEntry] at failed

end Ended

namespace Output

variable {layout : Layout} {sink : Sink σ} {state : σ} {ops : List Op}

def ofOps (layout : Layout) (sink : Sink σ) (state : σ) (ops : List Op) :
    Output (σ × List LogEntry) :=
  attemptAll layout sink.logged { delivery := { state := (state, []) } } ops

/-- What the emitter hands on for a unit, the line that is open at the end included. -/
def unitEvents (layout : Layout) (ops : List Op) : List Event :=
  let made := Emitter.attemptAll layout {} ops
  made.2 ++ (made.1.flush layout).2

theorem ofOps_eq : ofOps layout sink state ops =
    ⟨(Emitter.attemptAll layout {} ops).1, Delivery.deliverAll sink.logged
      { state := (state, []) } (Emitter.attemptAll layout {} ops).2⟩ :=
  attemptAll_eq ops

def delivered (layout : Layout) (sink : Sink σ) (state : σ) (ops : List Op) :
    Delivery (σ × List LogEntry) :=
  Delivery.deliverAll sink.logged { state := (state, []) } (unitEvents layout ops)

theorem delivered_eq : delivered layout sink state ops =
    Delivery.deliverAll sink.logged (ofOps layout sink state ops).delivery
      ((ofOps layout sink state ops).emitter.flush layout).2 := by
  simp [delivered, ofOps_eq, unitEvents, Delivery.deliverAll]

theorem finish_ofOps : (ofOps layout sink state ops).finish layout sink.logged =
    (delivered layout sink state ops).close sink.logged := by
  rw [delivered_eq]
  rfl

theorem sent_delivered (layout : Layout) (sink : Sink σ) (state : σ) (ops : List Op) :
    Sent (unitEvents layout ops) (delivered layout sink state ops).state.2
      (delivered layout sink state ops).failure := by
  obtain ⟨entries, logged, sent⟩ := Delivery.deliverAll_sent sink
    (d := { state := (state, []) }) rfl (unitEvents layout ops)
  rw [List.nil_append] at logged
  rwa [delivered, logged]

theorem ended_finish (layout : Layout) (sink : Sink σ) (state : σ) (ops : List Op) :
    Ended (unitEvents layout ops)
      ((ofOps layout sink state ops).finish layout sink.logged).state.2
      ((ofOps layout sink state ops).finish layout sink.logged).failure := by
  have sent := sent_delivered layout sink state ops
  rw [finish_ofOps]
  cases outcome : (delivered layout sink state ops).failure with
  | some e =>
      rw [outcome] at sent
      rw [Delivery.close_failed outcome, outcome]
      exact .stopped sent
  | none =>
      rw [outcome] at sent
      rw [Delivery.close_calm outcome]
      exact .closed _ sent

theorem finish_calm (calm : (delivered layout sink state ops).failure = none) :
    ((ofOps layout sink state ops).finish layout sink.logged).state.2 =
      ((unitEvents layout ops).map fun event => ⟨event.call, none⟩) ++
        [⟨.close, ((ofOps layout sink state ops).finish layout sink.logged).failure⟩] := by
  rw [finish_ofOps, Delivery.close_calm calm, (sent_delivered layout sink state ops).eq_map calm]

theorem calm_of_quiet
    (quiet : ∀ entry ∈ ((ofOps layout sink state ops).finish layout sink.logged).state.2,
      entry.call ≠ .close → entry.failure = none) :
    (delivered layout sink state ops).failure = none := by
  cases outcome : (delivered layout sink state ops).failure with
  | none => rfl
  | some e =>
      have sent := sent_delivered layout sink state ops
      obtain ⟨entry, among, failed⟩ := sent.exists_failed outcome
      rw [finish_ofOps, Delivery.close_failed outcome] at quiet
      have calm := quiet entry among (sent.call_ne_close entry among)
      simp [calm] at failed

theorem log_ofOps (calm : (delivered layout sink state ops).failure = none) :
    (ofOps layout sink state ops).delivery.state.2 =
      (Emitter.attemptAll layout {} ops).2.map fun event => ⟨event.call, none⟩ := by
  rw [delivered_eq] at calm
  have calmOps := Delivery.failure_of_deliverAll calm
  rw [ofOps_eq] at calmOps ⊢
  obtain ⟨entries, logged, sent⟩ := Delivery.deliverAll_sent sink
    (d := { state := (state, []) }) rfl (Emitter.attemptAll layout {} ops).2
  rw [logged, List.nil_append, sent.eq_map calmOps]

/-- A sink that never fails gets every call. -/
theorem calls_of_safe (safe : sink.NeverFails) :
    ((ofOps layout sink state ops).finish layout sink.logged).state.2.map (·.call) =
      (unitEvents layout ops).map Event.call ++ [.close] := by
  rw [finish_calm (Delivery.failure_deliverAll_safe safe rfl _)]
  simp [Function.comp_def]

end Output

theorem Output.finish_unlogged (layout : Layout) (sink : Sink σ) (state : σ) (ops : List Op) :
    (attemptAll layout sink { delivery := { state } } ops).finish layout sink =
      ((ofOps layout sink state ops).finish layout sink.logged).unlogged := by
  have start : ({ state } : Delivery σ) = Delivery.unlogged { state := (state, []) } := rfl
  rw [finish, attemptAll_eq, start, Delivery.deliverAll_unlogged, Delivery.deliverAll_unlogged,
    Delivery.close_unlogged, finish, ofOps_eq]

/-- Up to its first failure a sink gets the calls that a sink gets which never fails. After a start
or a line that failed it gets no line and no close, and the unit comes to that failure. If none
failed, the open line is written, the close comes last and once, and the unit comes to what the
close comes to. -/
theorem first_failure_wins (layout : Layout) (sink : Sink σ) (state : σ) (ops : List Op)
    {calm : Sink τ} (safe : calm.NeverFails) (calmState : τ) :
    let out := Output.ofOps layout sink state ops
    let log := (out.finish layout sink.logged).state.2
    let result := ((Output.attemptAll layout sink { delivery := { state } } ops).finish layout
      sink).failure
    let calls := ((Output.ofOps layout calm calmState ops).finish layout
      calm.logged).state.2.map (·.call)
    (∀ before entry after e, log = before ++ entry :: after →
      (∀ earlier ∈ before, earlier.failure = none) → entry.failure = some e →
        OnlyStarts after ∧ result = some e ∧ before.map (·.call) ++ [entry.call] <+: calls) ∧
    ((∀ entry ∈ log, entry.call ≠ .close → entry.failure = none) →
      log = out.delivery.state.2 ++
          (out.emitter.flush layout).2.map (fun event => ⟨event.call, none⟩) ++
          [⟨.close, result⟩] ∧
        (∀ entry ∈ out.delivery.state.2, entry.call ≠ .close) ∧ log.map (·.call) = calls) := by
  intro out log result calls
  have kept : result = (out.finish layout sink.logged).failure := by
    simp only [result, Output.finish_unlogged]
    rfl
  have ideal : calls = (Output.unitEvents layout ops).map Event.call ++ [.close] :=
    Output.calls_of_safe safe
  rw [kept, ideal]
  constructor
  · intro before entry after e split quiet failed
    exact (Output.ended_finish layout sink state ops).first_failed split quiet failed
  · intro quiet
    have calm := Output.calm_of_quiet quiet
    have whole : log = _ := Output.finish_calm calm
    have begun : out.delivery.state.2 = _ := Output.log_ofOps calm
    refine ⟨?_, ?_, ?_⟩
    · rw [whole, begun]
      simp [out, Output.ofOps_eq, Output.unitEvents]
    · have noClose (event : Event) : event.call ≠ .close := by cases event <;> simp [Event.call]
      simp [begun, noClose]
    · simp [whole, Function.comp_def]

def narrowSink : Sink Nat where
  start _ lines := (lines, none)
  write _ lines := (lines + 1, if lines = 0 then none else some (.other "disk full"))
  close lines := (lines, none)

def linesSample : List Op :=
  [.start "a", .line "<?php", .popIndent, .line "echo 1;", .start "b", .line "<?php"]

theorem bufferSink_neverFails : bufferSink.NeverFails :=
  ⟨fun _ _ => rfl, fun _ _ => rfl, fun _ => rfl⟩

theorem narrowSink_first_failure :
    let failure := some (FileError.other "disk full")
    let log := ((Output.ofOps .empty narrowSink 0 linesSample).finish .empty
      narrowSink.logged).state.2
    let calls := ((Output.ofOps .empty bufferSink {} linesSample).finish .empty
      bufferSink.logged).state.2.map (·.call)
    bufferSink.NeverFails ∧
    log = [⟨.start "a", none⟩, ⟨.write "<?php", none⟩] ++ ⟨.write "echo 1;", failure⟩ ::
      [⟨.start "b", none⟩] ∧
    OnlyStarts [⟨.start "b", none⟩] ∧
    ((Output.attemptAll .empty narrowSink { delivery := { state := 0 } } linesSample).finish
      .empty narrowSink).failure = failure ∧
    [.start "a", .write "<?php"] ++ [.write "echo 1;"] <+: calls := by
  intro failure log calls
  have logged : log = [⟨.start "a", none⟩, ⟨.write "<?php", none⟩] ++
      ⟨.write "echo 1;", failure⟩ :: [⟨.start "b", none⟩] := by
    decide +kernel
  have wins := (first_failure_wins .empty narrowSink 0 linesSample bufferSink_neverFails {}).1
  exact ⟨bufferSink_neverFails, logged, wins _ _ _ _ logged (by simp) rfl⟩

end Zephir
