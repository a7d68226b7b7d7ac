import Zephir.Compile
import Zephir.Emit.Sink
import Zephir.Php.Declaration
import Zephir.Syntax.Encode

/-!
Rendering a unit as PHP: its script, run through the emitter under a layout and delivered to a
sink.
-/

namespace Zephir

/-- Why a unit was not rendered: the layout left the emitter below level zero, a node cannot be
written, or the sink failed. -/
inductive RenderError
  | fault (fault : Fault)
  | refused (refusal : Refusal)
  | file (error : FileError)

/-- Renders a unit into a sink, which is told the name of the target. Returns the state of the
sink also if rendering fails; a unit that fails never closes the sink. -/
def renderInto {σ : Type} (layout : Layout) (sink : Sink σ) (state : σ) (target : String)
    (unit : List Node) : σ × Except RenderError Unit :=
  let script := Php.unit unit
  let outcome := Emitter.run layout {} (.start target :: script.ops)
  let delivery := Delivery.deliverAll sink { state } outcome.events
  match outcome.fault, script.failure with
  | some fault, _ => (delivery.state, .error (.fault fault))
  | none, some d => (delivery.state, .error (.refused (.single d)))
  | none, none =>
    let closed := Output.finish layout sink { emitter := outcome.emitter, delivery }
    match closed.failure with
    | some e => (closed.state, .error (.file e))
    | none => (closed.state, .ok ())

def renderPhp (layout : Layout) (unit : List Node) : Except RenderError String :=
  match renderInto layout bufferSink {} "<memory>" unit with
  | (buffer, .ok ()) => .ok buffer.contents
  | (_, .error e) => .error e

end Zephir
