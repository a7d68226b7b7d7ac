import Zephir.Layout

/-!
The emitter gathers tokens into a line, and asks the layout whether a blank or a line break belongs
around each of them. A finished line is indented and handed on as an event. The emitter never looks
at what becomes of its events.
-/

namespace Zephir

inductive Event
  | start (target : String)
  | write (line : String)
  deriving DecidableEq

inductive Op
  /-- Opens a unit. -/
  | start (target : String)
  /-- Raw text, glued to the token before unless that one asked for a blank. -/
  | emit (text : String)
  /-- A word with a blank on either side, unless a neighbour asks otherwise. -/
  | keyword (word : String)
  /-- Text with a blank or not on either side; no opinion leaves it to the neighbour. -/
  | token (text : String) (before after : Option Bool)
  /-- An operator, spaced as the layout says. -/
  | operator (op : String) (context : Option String)
  /-- The semicolon that ends a statement. -/
  | endOfStatement (context : Option String)
  /-- A line of its own. -/
  | line (text : String)
  /-- Ends the line, if there is one. -/
  | flush
  /-- Ends the line and leaves an empty one, unless there is one already. -/
  | blankLine
  /-- A blank line if the layout's flag for the path is on. -/
  | blankLineIf (path : String)
  /-- One level deeper, between lines only. -/
  | indent
  /-- One level back, between lines only. -/
  | unindent
  /-- Remembers the level. -/
  | pushIndent
  /-- Goes back to the level that was remembered last. -/
  | popIndent
  deriving DecidableEq

inductive Fault
  | unindentBelowZero
  | popWithoutPush
  deriving DecidableEq

def Fault.message : Fault → String
  | .unindentBelowZero => "unindent below indentation level zero"
  | .popWithoutPush => "pop_indent without a saved indentation level"

/-- The state of the emitter: the level of indentation, the remembered levels, the line so far,
whether a blank should follow it, whether any line was written, and whether the last one was
empty. -/
structure Emitter where
  level : Nat := 0
  saved : List Nat := []
  line : String := ""
  pending : Option Bool := none
  written : Bool := false
  lastBlank : Bool := false
  deriving DecidableEq

namespace Emitter

/-- Appends text to the line, after a blank if the text or else the token before asks for one, or
`fallback` says so when neither has an opinion. No blank opens a line or follows another. -/
def push (e : Emitter) (text : String) (before after : Option Bool) (fallback : Bool) : Emitter :=
  let space := (before <|> e.pending).getD fallback
  let gap := !e.line.isEmpty && space && e.line.toList.getLast? != some ' '
  { e with line := (if gap then e.line ++ " " else e.line) ++ text, pending := after }

def indentation (layout : Layout) (level : Nat) : String :=
  let shown :=
    match layout.maxLevels? with
    | some limit => min level limit
    | none => level
  String.join (List.replicate shown layout.indentUnit)

def flush (layout : Layout) (e : Emitter) : Emitter × List Event :=
  if e.line.isEmpty then (e, [])
  else
    ({ e with line := "", pending := none, written := true, lastBlank := false },
      [.write (indentation layout e.level ++ Text.trimEnd e.line)])

/-- Pushes an operator, and breaks the line on its sides as the layout says. -/
def operator (layout : Layout) (e : Emitter) (op : String) (context : Option String) :
    Emitter × List Event :=
  let spacing := layout.spacing op context
  let (e, first) := if spacing.newlineBefore then e.flush layout else (e, [])
  let before := if spacing.newlineBefore then none else spacing.spaceBefore
  let e := e.push op before spacing.spaceAfter false
  let (e, second) := if spacing.newlineAfter then e.flush layout else (e, [])
  (e, first ++ second)

def blankLine (layout : Layout) (e : Emitter) : Emitter × List Event :=
  let (e, events) := e.flush layout
  if e.written && !e.lastBlank then ({ e with lastBlank := true }, events ++ [.write ""])
  else (e, events)

def statementContext (context : Option String) : String :=
  match context with
  | some context => "statement." ++ context
  | none => "statement"

def step (layout : Layout) (e : Emitter) : Op → Except Fault (Emitter × List Event)
  | .start target => .ok (e, [.start target])
  | .emit text => .ok (e.push text none none false, [])
  | .keyword word => .ok (e.push word none (some true) true, [])
  | .token text before after => .ok (e.push text before after false, [])
  | .operator op context => .ok (e.operator layout op context)
  | .endOfStatement context => .ok (e.operator layout ";" (some (statementContext context)))
  | .line text =>
    let (e, first) := e.flush layout
    let (e, second) := (e.push text none none false).flush layout
    .ok (e, first ++ second)
  | .flush => .ok (e.flush layout)
  | .blankLine => .ok (e.blankLine layout)
  | .blankLineIf path =>
    if (layout.flag? path).getD false then .ok (e.blankLine layout) else .ok (e, [])
  | .indent => .ok (if e.line.isEmpty then { e with level := e.level + 1 } else e, [])
  | .unindent =>
    if e.line.isEmpty then
      match e.level with
      | 0 => .error .unindentBelowZero
      | level + 1 => .ok ({ e with level }, [])
    else .ok (e, [])
  | .pushIndent => .ok ({ e with saved := e.level :: e.saved }, [])
  | .popIndent =>
    match e.saved with
    | [] => .error .popWithoutPush
    | level :: saved => .ok ({ e with level, saved }, [])

/-- What a run of operations leaves: the emitter, the events on the way, and the fault that stopped
the run, if one did. -/
structure Outcome where
  emitter : Emitter
  events : List Event
  fault : Option Fault

def run (layout : Layout) (e : Emitter) : List Op → Outcome
  | [] => ⟨e, [], none⟩
  | op :: rest =>
    match e.step layout op with
    | .error fault => ⟨e, [], some fault⟩
    | .ok (e, events) =>
      let outcome := e.run layout rest
      { outcome with events := events ++ outcome.events }

end Emitter

end Zephir
