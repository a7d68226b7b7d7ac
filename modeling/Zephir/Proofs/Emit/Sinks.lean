import Zephir.Cli.Run
import Zephir.Proofs.Emit.Blanks
import Zephir.Proofs.Files.Storing
import Zephir.Proofs.Json.Lines
import Zephir.Proofs.Syntax.RoundTrip

/-!
Every sink gets the same calls for a unit: a start, the lines, and a close. So the sinks differ in
what they make of a call only, and all of them come to the same text. A unit that cannot be
written has no close.
-/

namespace Zephir

variable {σ : Type}

inductive Call
  | start (target : String)
  | write (line : String)
  | close
  deriving DecidableEq

def Event.call : Event → Call
  | .start target => .start target
  | .write line => .write line

def Event.line? : Event → Option String
  | .start _ => none
  | .write line => some line

def Sink.recorded (sink : Sink σ) : Sink (σ × List Call) where
  start target s :=
    let outcome := sink.start target s.1
    ((outcome.1, s.2 ++ [.start target]), outcome.2)
  write line s :=
    let outcome := sink.write line s.1
    ((outcome.1, s.2 ++ [.write line]), outcome.2)
  close s :=
    let outcome := sink.close s.1
    ((outcome.1, s.2 ++ [.close]), outcome.2)

namespace Delivery

def recording (d : Delivery σ) (calls : List Call) : Delivery (σ × List Call) :=
  { state := (d.state, calls), failure := d.failure }

def send (sink : Sink σ) (state : σ) (target : String) (lines : List String) : Delivery σ :=
  (deliverAll sink { state } (.start target :: lines.map .write)).close sink

def result (d : Delivery σ) : σ × Except RenderError Unit :=
  match d.failure with
  | some e => (d.state, .error (.file e))
  | none => (d.state, .ok ())

variable {sink : Sink σ} {d : Delivery σ}

theorem result_eq_ok_iff {final : σ} :
    d.result = (final, .ok ()) ↔ d = { state := final } := by
  obtain ⟨state, failure⟩ := d
  cases failure <;> simp [result]

theorem failure_of_deliver {event : Event} (calm : (deliver sink d event).failure = none) :
    d.failure = none := by
  cases event with
  | start target =>
      simp only [deliver, after] at calm
      cases failed : d.failure with
      | none => rfl
      | some e => simp [failed] at calm
  | write line =>
      by_cases failed : d.failure.isSome
      · simpa [deliver, failed] using calm
      · simpa using failed

theorem failure_of_deliverAll {events : List Event}
    (calm : (deliverAll sink d events).failure = none) : d.failure = none := by
  induction events generalizing d with
  | nil => exact calm
  | cons event rest ih => exact failure_of_deliver (ih calm)

theorem deliver_recorded {event : Event} (calm : d.failure = none) (calls : List Call) :
    deliver sink.recorded (d.recording calls) event =
      (deliver sink d event).recording (calls ++ [event.call]) := by
  cases event <;> simp [deliver, recording, after, calm, Sink.recorded, Event.call]

theorem deliverAll_recorded {events : List Event} (calls : List Call)
    (calm : (deliverAll sink d events).failure = none) :
    deliverAll sink.recorded (d.recording calls) events =
      (deliverAll sink d events).recording (calls ++ events.map Event.call) := by
  induction events generalizing d calls with
  | nil => simp [deliverAll]
  | cons event rest ih =>
      have before : d.failure = none := failure_of_deliverAll calm
      simp only [deliverAll, List.foldl_cons] at calm ⊢
      rw [deliver_recorded before]
      simpa [deliverAll] using ih (calls ++ [event.call]) calm

theorem failure_of_close (calm : (d.close sink).failure = none) : d.failure = none := by
  unfold close at calm
  split at calm
  · exact calm
  · rename_i running
    simpa using running

theorem close_recorded (calm : d.failure = none) (calls : List Call) :
    (d.recording calls).close sink.recorded = (d.close sink).recording (calls ++ [.close]) := by
  simp [close, recording, after, calm, Sink.recorded]

theorem send_recorded {state : σ} {target : String} {lines : List String} (calls : List Call)
    (calm : (send sink state target lines).failure = none) :
    send sink.recorded (state, calls) target lines =
      (send sink state target lines).recording
        (calls ++ .start target :: lines.map .write ++ [.close]) := by
  have delivered := failure_of_close calm
  have recorded := deliverAll_recorded calls delivered
  have writes : lines.map (Event.call ∘ Event.write) = lines.map Call.write := rfl
  rw [recording] at recorded
  rw [send, recorded, close_recorded delivered, send]
  simp [Event.call, writes]

theorem deliverAll_cons {event : Event} {events : List Event} :
    deliverAll sink d (event :: events) = deliverAll sink (deliver sink d event) events :=
  rfl

end Delivery

section Sinks

theorem joinLines_cons (line : String) (lines : List String) :
    joinLines (line :: lines) = line ++ "\n" ++ joinLines lines := by
  simp [joinLines, String.join_cons]

theorem write_bufferSink (b : Buffer) (lines : List String) :
    Delivery.deliverAll bufferSink { state := b } (lines.map .write) =
      { state := { b with lines := b.lines ++ lines } } := by
  induction lines generalizing b with
  | nil => simp [Delivery.deliverAll]
  | cons line rest ih =>
      have written := ih { b with lines := b.lines ++ [line] }
      simpa [Delivery.deliverAll, Delivery.deliver, Delivery.after, bufferSink] using written

theorem write_consoleSink (text : String) (lines : List String) :
    Delivery.deliverAll consoleSink { state := text } (lines.map .write) =
      { state := text ++ joinLines lines } := by
  induction lines generalizing text with
  | nil => simp [Delivery.deliverAll, joinLines, String.join]
  | cons line rest ih =>
      have written := ih (text ++ line ++ "\n")
      rw [joinLines_cons, ← String.append_assoc, ← String.append_assoc]
      exact written

theorem write_fileSink (path : String) (file : PendingFile) (lines : List String) :
    Delivery.deliverAll (fileSink path) { state := file } (lines.map .write) =
      { state := { file with buffer := file.buffer ++ joinLines lines } } := by
  induction lines generalizing file with
  | nil => simp [Delivery.deliverAll, joinLines, String.join]
  | cons line rest ih =>
      have written := ih { file with buffer := file.buffer ++ line ++ "\n" }
      rw [joinLines_cons, ← String.append_assoc, ← String.append_assoc]
      exact written

theorem send_bufferSink (b : Buffer) (target : String) (lines : List String) :
    Delivery.send bufferSink b target lines =
      { state := { target := some target, lines } } := by
  rw [Delivery.send, Delivery.deliverAll_cons]
  exact congrArg (·.close bufferSink) (write_bufferSink { target := some target } lines)

theorem send_consoleSink (text target : String) (lines : List String) :
    Delivery.send consoleSink text target lines = { state := text ++ joinLines lines } := by
  rw [Delivery.send, Delivery.deliverAll_cons]
  exact congrArg (·.close consoleSink) (write_consoleSink text lines)

theorem send_fileSink (path : String) (file : PendingFile) (target : String)
    (lines : List String) :
    Delivery.send (fileSink path) file target lines =
      Delivery.close (fileSink path) { state := { file with buffer := joinLines lines } } := by
  rw [Delivery.send, Delivery.deliverAll_cons]
  have written := write_fileSink path { file with buffer := "" } lines
  rw [String.empty_append] at written
  exact congrArg (·.close (fileSink path)) written

theorem stored_of_close {path : String} {file final : PendingFile}
    (closed : (Delivery.close (fileSink path) { state := file }) = { state := final }) :
    FileTree.Stored file.tree final.tree path file.buffer := by
  cases parent : file.tree.ensureParent path with
  | error e => simp [Delivery.close, Delivery.after, fileSink, parent] at closed
  | ok between =>
      cases written : between.write path file.buffer with
      | error e => simp [Delivery.close, Delivery.after, fileSink, parent, written] at closed
      | ok after =>
          simp only [Delivery.close, Delivery.after, fileSink, parent, written] at closed
          cases closed
          exact FileTree.stored_of_write parent written

/-- Before the close nothing touches the files. -/
theorem tree_deliverAll_fileSink {path : String} {d : Delivery PendingFile}
    (events : List Event) :
    (Delivery.deliverAll (fileSink path) d events).state.tree = d.state.tree := by
  induction events generalizing d with
  | nil => rfl
  | cons event rest ih =>
      refine ih.trans ?_
      cases event with
      | start target => rfl
      | write line =>
          rw [Delivery.deliver]
          split <;> rfl

end Sinks

section Lines

variable {layout : Layout} {unit : List Node}

theorem map_write_filterMap {events : List Event} (plain : ∀ target, .start target ∉ events) :
    (events.filterMap Event.line?).map .write = events := by
  induction events with
  | nil => rfl
  | cons event rest ih =>
      simp only [List.mem_cons, not_or] at plain
      cases event with
      | start target => exact absurd rfl (plain target).1
      | write line => simp [Event.line?, ih fun target => (plain target).2]

/-- The lines of a unit, or why it cannot be written. A unit as a tree is written line by line
without an emitter. -/
def unitLines (kind : OutputKind) (layout : Layout) (unit : List Node) :
    Except RenderError (List String) :=
  match kind with
  | .ast => .ok (Text.lines (dumpUnit unit))
  | .php =>
    let outcome := Emitter.run layout {} (Php.unit unit).ops
    match outcome.fault, (Php.unit unit).failure with
    | some fault, _ => .error (.fault fault)
    | none, some d => .error (.refused (.single d))
    | none, none => .ok ((outcome.lines layout).filterMap Event.line?)

theorem writeUnit_of_lines {kind : OutputKind} {lines : List String}
    (made : unitLines kind layout unit = .ok lines) (sink : Sink σ) (state : σ)
    (target : String) :
    writeUnit kind layout sink state target unit =
      (Delivery.send sink state target lines).result := by
  cases kind with
  | ast =>
      cases made
      rfl
  | php =>
      rw [unitLines] at made
      split at made
      · cases made
      · cases made
      · rename_i calm whole
        have run : lines.map .write =
            (Emitter.run layout {} (Php.unit unit).ops).lines layout := by
          cases made
          exact map_write_filterMap (start_notMem_lines layout unit)
        simp only [writeUnit, renderInto, Emitter.run, Emitter.step, calm, whole, Output.finish,
          Delivery.send, run, Emitter.Outcome.lines]
        simp only [Delivery.deliverAll, List.cons_append, List.nil_append, List.foldl_cons,
          List.foldl_append]
        rfl

/-- A unit without lines may have sent some events, but was not closed. -/
theorem writeUnit_of_error {kind : OutputKind} {e : RenderError}
    (failed : unitLines kind layout unit = .error e) (sink : Sink σ) (state : σ)
    (target : String) : ∃ events,
      writeUnit kind layout sink state target unit =
        ((Delivery.deliverAll sink { state } events).state, .error e) := by
  cases kind with
  | ast => cases failed
  | php =>
      refine ⟨.start target :: (Emitter.run layout {} (Php.unit unit).ops).events, ?_⟩
      rw [unitLines] at failed
      split at failed
      · rename_i stopped
        cases failed
        simp [writeUnit, renderInto, Emitter.run, Emitter.step, stopped]
      · rename_i calm refused
        cases failed
        simp [writeUnit, renderInto, Emitter.run, Emitter.step, calm, refused]
      · cases failed

theorem renderPhp_eq_lines (layout : Layout) (unit : List Node) :
    renderPhp layout unit = (unitLines .php layout unit).map joinLines := by
  cases made : unitLines .php layout unit with
  | error e =>
      obtain ⟨events, written⟩ := writeUnit_of_error made bufferSink {} "<memory>"
      rw [writeUnit] at written
      rw [renderPhp, written]
      rfl
  | ok lines =>
      have written := writeUnit_of_lines made bufferSink {} "<memory>"
      rw [writeUnit, send_bufferSink] at written
      rw [renderPhp, written]
      rfl

theorem joinLines_lines_dumpUnit (unit : List Node) :
    joinLines (Text.lines (dumpUnit unit)) = dumpUnit unit ++ "\n" :=
  joinLines_lines_pretty (integral_unit unit)

def unitText (kind : OutputKind) (layout : Layout) (unit : List Node) :
    Except RenderError String :=
  match kind with
  | .php => renderPhp layout unit
  | .ast => .ok (dumpUnit unit ++ "\n")

theorem unitText_eq_lines (kind : OutputKind) (layout : Layout) (unit : List Node) :
    unitText kind layout unit = (unitLines kind layout unit).map joinLines := by
  cases kind with
  | php => exact renderPhp_eq_lines layout unit
  | ast => rw [unitText, unitLines, Except.map, joinLines_lines_dumpUnit]

/-- Sinks that take a unit get one start, its lines and one close, in this order, and a text that
does not depend on the sink: what the console shows, what the buffer holds and what the file
stores. -/
structure SinksAgree (layout : Layout) (unit : List Node) : Prop where
  calls : ∀ {σ : Type} (sink : Sink σ) (state final : σ) (target : String),
    renderInto layout sink state target unit = (final, .ok ()) →
      ∃ lines, renderPhp layout unit = .ok (joinLines lines) ∧
        ∀ calls, renderInto layout sink.recorded (state, calls) target unit =
          ((final, calls ++ .start target :: lines.map .write ++ [.close]), .ok ())
  buffer : ∀ text, renderPhp layout unit = .ok text → ∀ b target, ∃ final,
    renderInto layout bufferSink b target unit = (final, .ok ()) ∧ final.contents = text
  console : ∀ text, renderPhp layout unit = .ok text → ∀ shown target,
    renderInto layout consoleSink shown target unit = (shown ++ text, .ok ())
  file : ∀ text, renderPhp layout unit = .ok text → ∀ path file final target,
    renderInto layout (fileSink path) file target unit = (final, .ok ()) →
      FileTree.Stored file.tree final.tree path text

theorem renderInto_of_lines {lines : List String} (made : unitLines .php layout unit = .ok lines)
    (sink : Sink σ) (state : σ) (target : String) :
    renderInto layout sink state target unit =
      (Delivery.send sink state target lines).result :=
  writeUnit_of_lines made sink state target

theorem lines_of_renderPhp {text : String} (rendered : renderPhp layout unit = .ok text) :
    ∃ lines, unitLines .php layout unit = .ok lines ∧ text = joinLines lines := by
  rw [renderPhp_eq_lines] at rendered
  cases made : unitLines .php layout unit with
  | error e => simp [made, Except.map] at rendered
  | ok lines =>
      rw [made] at rendered
      cases rendered
      exact ⟨lines, rfl, rfl⟩

theorem sinksAgree (layout : Layout) (unit : List Node) : SinksAgree layout unit where
  calls sink state final target taken := by
    cases made : unitLines .php layout unit with
    | error e =>
        obtain ⟨events, stopped⟩ := writeUnit_of_error made sink state target
        rw [writeUnit, taken] at stopped
        cases stopped
    | ok lines =>
        rw [renderInto_of_lines made, Delivery.result_eq_ok_iff] at taken
        refine ⟨lines, by rw [renderPhp_eq_lines, made, Except.map], fun calls => ?_⟩
        have recorded := Delivery.send_recorded calls (taken ▸ rfl : (Delivery.send sink state
          target lines).failure = none)
        rw [renderInto_of_lines made, recorded, taken]
        rfl
  buffer text rendered b target := by
    obtain ⟨lines, made, rfl⟩ := lines_of_renderPhp rendered
    exact ⟨_, by rw [renderInto_of_lines made, send_bufferSink]; rfl, rfl⟩
  console text rendered shown target := by
    obtain ⟨lines, made, rfl⟩ := lines_of_renderPhp rendered
    rw [renderInto_of_lines made, send_consoleSink]
    rfl
  file text rendered path file final target taken := by
    obtain ⟨lines, made, rfl⟩ := lines_of_renderPhp rendered
    rw [renderInto_of_lines made, Delivery.result_eq_ok_iff, send_fileSink] at taken
    exact stored_of_close taken

end Lines

end Zephir
