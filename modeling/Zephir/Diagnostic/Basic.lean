import Zephir.Diagnostic.Cause
import Zephir.Syntax.Position

/-!
Diagnostics: a message with the places it speaks of. Errors stop a unit; warnings are collected and
ride along with the result.
-/

namespace Zephir

inductive Severity
  | warning
  | error
  deriving DecidableEq

namespace Severity

def text : Severity → String
  | .warning => "warning"
  | .error => "error"

def max : Severity → Severity → Severity
  | .warning, .warning => .warning
  | _, _ => .error

end Severity

/-- A note at a place. A primary label marks the offender, any other one something related. -/
structure Label where
  pos : Position
  message : String
  primary : Bool
  deriving DecidableEq

structure Diagnostic where
  severity : Severity
  code : Option ErrorCode := none
  message : String
  labels : List Label := []
  help : Option String := none
  cause : Option Cause := none
  deriving DecidableEq

namespace Diagnostic

def error (message : String) : Diagnostic :=
  { severity := .error, message }

def warning (message : String) : Diagnostic :=
  { severity := .warning, message }

def withLabel (d : Diagnostic) (pos : Position) (message : String) : Diagnostic :=
  { d with labels := d.labels ++ [{ pos, message, primary := true }] }

def withContext (d : Diagnostic) (pos : Position) (message : String) : Diagnostic :=
  { d with labels := d.labels ++ [{ pos, message, primary := false }] }

def primaryPos? (d : Diagnostic) : Option Position :=
  (d.labels.find? (·.primary)).map (·.pos)

def text (d : Diagnostic) : String :=
  d.severity.text ++
    (match d.code with
    | some code => "[" ++ code.text ++ "]"
    | none => "") ++
    ": " ++ d.message ++
    (match d.primaryPos? with
    | some pos => " at " ++ pos.text
    | none => "")

end Diagnostic

def Cause.at (cause : Cause) (pos : Position) : Diagnostic :=
  { severity := .error
    code := some cause.code
    message := cause.message
    labels := [{ pos, message := cause.note, primary := true }]
    help := cause.help?
    cause := some cause }

structure Refusal where
  diagnostics : List Diagnostic
  deriving DecidableEq

namespace Refusal

def single (d : Diagnostic) : Refusal :=
  ⟨[d]⟩

def firstError? (r : Refusal) : Option Diagnostic :=
  r.diagnostics.find? (·.severity == .error)

def text (r : Refusal) : String :=
  match r.firstError? <|> r.diagnostics.head? with
  | none => "translation failed"
  | some lead =>
    if r.diagnostics.length ≤ 1 then lead.text
    else lead.text ++ " (+" ++ toString (r.diagnostics.length - 1) ++ " more)"

end Refusal

structure Collector where
  diagnostics : List Diagnostic := []

namespace Collector

def emit (c : Collector) (d : Diagnostic) : Collector :=
  ⟨c.diagnostics ++ [d]⟩

def size (c : Collector) : Nat :=
  c.diagnostics.length

def isEmpty (c : Collector) : Bool :=
  c.diagnostics.isEmpty

/-- Hands back the warnings, or refuses with everything if there is an error among it. -/
def finish (c : Collector) : Except Refusal (List Diagnostic) :=
  if c.diagnostics.any (·.severity == .error) then .error ⟨c.diagnostics⟩
  else .ok c.diagnostics

end Collector

end Zephir
