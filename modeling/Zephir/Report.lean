import Zephir.Diagnostic.Basic
import Zephir.FileTree

/-!
Reports: a diagnostic together with the text that it points into. Places are lines and columns of
characters; a report turns them into spans of bytes. The text is the source file that the first
primary label names, or the input itself if the label names no file. Without a text the place is
told in the message.
-/

namespace Zephir

structure Span where
  offset : Nat
  length : Nat
  deriving DecidableEq

namespace Span

def byteCount : List Char → Nat
  | [] => 0
  | c :: rest => c.utf8Size + byteCount rest

def content (line : List Char) : List Char :=
  (line.reverse.dropWhile fun c => c == '\n' || c == '\r').reverse

def inLine (offset : Nat) (line : List Char) (skip : Nat) : Span where
  offset := offset + byteCount ((content line).take skip)
  length := byteCount (((content line).drop skip).take 1)

def inLines (offset : Nat) (lines : List (List Char)) (line column : Nat) : Span :=
  match lines with
  | [] => ⟨offset, 0⟩
  | first :: rest =>
    if line = 1 then inLine offset first (column - 1)
    else inLines (offset + byteCount first) rest (line - 1) column

/-- The character of a text at a line and column, which count from one. A column past the end of
its line stands for the end of the line, and a line past the end of the text for the end of the
text. -/
def ofPlace (text : String) (line column : Nat) : Span :=
  inLines 0 (Text.linesKept text.toList) line column

end Span

structure MarkedLabel where
  message : String
  span : Span
  primary : Bool
  deriving DecidableEq

structure Report where
  message : String
  code : Option String := none
  severity : Option Severity := none
  help : Option String := none
  source : Option String := none
  labels : List MarkedLabel := []
  deriving DecidableEq

/-- The text that places in a file point into. Places without a file are in the input. -/
def sourceText? (tree : FileTree) (input : Option String) (file : String) : Option String :=
  if file.isEmpty then input
  else
    match tree.read file with
    | .ok text => some text
    | .error _ => none

namespace Diagnostic

def marks (d : Diagnostic) (file text : String) : List MarkedLabel :=
  (d.labels.filter fun label => label.pos.file == file && !label.pos.isUnknown).map fun label =>
    { message := label.message
      span := .ofPlace text label.pos.line.toNat label.pos.column.toNat
      primary := label.primary }

/-- The report of a diagnostic, for source files in a tree and an input if there is one. -/
def report (tree : FileTree) (input : Option String) (d : Diagnostic) : Report :=
  let bare : Report :=
    { message := d.message
      code := d.code.map ErrorCode.text
      severity := some d.severity
      help := d.help }
  match d.primaryPos? with
  | none => bare
  | some pos =>
    match sourceText? tree input pos.file with
    | none => { bare with message := d.message ++ " at " ++ pos.text }
    | some text =>
      { bare with
        source := some (if pos.file.isEmpty then "<input>" else pos.file)
        labels := d.marks pos.file text }

end Diagnostic

end Zephir
