import Zephir.Diagnostic.Basic
import Zephir.Emit.Emitter

/-!
A script is what generating PHP from a tree comes to: the operations for the emitter, in order,
and the diagnostic at which generation stopped, if it did. It depends on the tree alone and not on
the layout.
-/

namespace Zephir

/-- Operations for the emitter, up to the end or to a failure. -/
structure Script where
  ops : List Op := []
  failure : Option Diagnostic := none

namespace Script

def empty : Script := {}

def of (ops : List Op) : Script :=
  { ops }

def fail (d : Diagnostic) : Script :=
  { failure := some d }

def append (first second : Script) : Script :=
  match first.failure with
  | some _ => first
  | none => { ops := first.ops ++ second.ops, failure := second.failure }

instance : Append Script := ⟨append⟩

def join : List Script → Script
  | [] => empty
  | s :: rest => s ++ join rest

def op (text : String) : Script :=
  of [.operator text none]

def opIn (text context : String) : Script :=
  of [.operator text (some context)]

def text (text : String) : Script :=
  of [.emit text]

def word (word : String) : Script :=
  of [.keyword word]

def semicolon : Script :=
  of [.endOfStatement none]

def commas : List Script → Script
  | [] => empty
  | s :: rest => s ++ join (rest.map (op "," ++ ·))

def grouped (inner : Script) : Script :=
  of [.token "(" none (some false)] ++ inner ++ of [.token ")" (some false) none]

def braced (inner : Script) : Script :=
  of [.token "\x7b" (some false) (some false)] ++ inner ++ of [.token "\x7d" (some false) none]

def indexed (inner : Script) : Script :=
  opIn "[" "index" ++ inner ++ op "]"

def arguments (arguments : List Script) : Script :=
  opIn "(" "call" ++ commas arguments ++ op ")"

def call (function : String) (args : List Script) : Script :=
  text function ++ arguments args

def condition (inner : Script) : Script :=
  opIn "(" "control" ++ inner ++ op ")"

def unhandled (kind : String) (pos : Position) : Script :=
  fail ((Cause.unhandledNodeKind kind).at pos)

def malformed (message : String) (pos : Position) : Script :=
  fail ((Cause.malformedNode message).at pos)

end Script

end Zephir
