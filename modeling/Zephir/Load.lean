import Zephir.Diagnostic.Basic
import Zephir.Syntax.Decode
import Zephir.Text.Blank

/-!
Loading the parser's output. A parsed source is a list of top-level nodes; a source that does not
parse is a single record that says where the parser stopped.
-/

namespace Zephir

/-- Why a text could not be loaded: it is no syntax tree at all, or it reports a problem. -/
inductive LoadError
  | unreadable
  | refused (d : Diagnostic)

structure ParserRecord where
  kind : String
  message : String
  pos : Position

namespace ParserRecord

def ofJson? (json : Json) : Option ParserRecord := do
  let fields ← json.object?
  let kind ← fields.required "type" Json.string?
  let message ← fields.withDefault "message" "" Json.string?
  let pos ← Position.ofFields? fields
  return { kind, message, pos }

def diagnostic (record : ParserRecord) : Diagnostic :=
  if record.kind = "error" then (Cause.parser record.message).at record.pos
  else
    (Cause.malformedNode ("expected a list of declarations, found a single `" ++ record.kind ++
      "` record")).at record.pos

end ParserRecord

def load (text : String) : Except LoadError (List Node) :=
  match Json.parse? text with
  | none => .error .unreadable
  | some json =>
    if (Text.dropBlank text.toList).head? = some '{' then
      match ParserRecord.ofJson? json with
      | none => .error .unreadable
      | some record => .error (.refused record.diagnostic)
    else
      match unitOfJson? json with
      | none => .error .unreadable
      | some unit => .ok unit

end Zephir
