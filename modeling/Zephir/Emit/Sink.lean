import Zephir.Emit.Emitter
import Zephir.FileTree

/-!
Where lines go. A sink takes the name of a unit, its lines, and the end of it; each of these may
fail. Delivery keeps the first failure, and lets nothing but a new start through after it.
-/

namespace Zephir

/-- A destination of lines, with states of type `σ`. A failed call may still change the state. -/
structure Sink (σ : Type) where
  start : String → σ → σ × Option FileError
  write : String → σ → σ × Option FileError
  close : σ → σ × Option FileError

structure Delivery (σ : Type) where
  state : σ
  failure : Option FileError := none

namespace Delivery

variable {σ : Type}

def after (d : Delivery σ) (outcome : σ × Option FileError) : Delivery σ :=
  { state := outcome.1, failure := d.failure <|> outcome.2 }

/-- Hands an event to the sink. Lines are held back after a failure. -/
def deliver (sink : Sink σ) (d : Delivery σ) : Event → Delivery σ
  | .start target => d.after (sink.start target d.state)
  | .write line => if d.failure.isSome then d else d.after (sink.write line d.state)

def deliverAll (sink : Sink σ) (d : Delivery σ) (events : List Event) : Delivery σ :=
  events.foldl (deliver sink) d

def close (sink : Sink σ) (d : Delivery σ) : Delivery σ :=
  if d.failure.isSome then d else d.after (sink.close d.state)

end Delivery

structure Output (σ : Type) where
  emitter : Emitter := {}
  delivery : Delivery σ

namespace Output

variable {σ : Type}

def step (layout : Layout) (sink : Sink σ) (out : Output σ) (op : Op) :
    Except Fault (Output σ) :=
  match out.emitter.step layout op with
  | .error fault => .error fault
  | .ok (emitter, events) => .ok { emitter, delivery := out.delivery.deliverAll sink events }

def finish (layout : Layout) (sink : Sink σ) (out : Output σ) : Delivery σ :=
  (out.delivery.deliverAll sink (out.emitter.flush layout).2).close sink

end Output

def joinLines (lines : List String) : String :=
  String.join (lines.map (· ++ "\n"))

structure Buffer where
  target : Option String := none
  lines : List String := []
  deriving DecidableEq

def Buffer.contents (b : Buffer) : String :=
  joinLines b.lines

/-- The sink that keeps lines in memory. A new unit takes the place of the last one. -/
def bufferSink : Sink Buffer where
  start target _ := ({ target := some target, lines := [] }, none)
  write line b := ({ b with lines := b.lines ++ [line] }, none)
  close b := (b, none)

/-- The sink that echoes every line as soon as it arrives. Its state is all that was echoed. -/
def consoleSink : Sink String where
  start _ text := (text, none)
  write line text := (text ++ line ++ "\n", none)
  close text := (text, none)

structure PendingFile where
  tree : FileTree
  buffer : String := ""

/-- The sink that writes a file at the end of a unit, and touches nothing before. -/
def fileSink (path : String) : Sink PendingFile where
  start _ f := ({ f with buffer := "" }, none)
  write line f := ({ f with buffer := f.buffer ++ line ++ "\n" }, none)
  close f :=
    match f.tree.ensureParent path with
    | .error e => (f, some e)
    | .ok tree =>
      match tree.write path f.buffer with
      | .error e => ({ tree, buffer := "" }, some e)
      | .ok tree => ({ tree, buffer := "" }, none)

end Zephir
