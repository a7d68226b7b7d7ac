/-!
Places in the source, and the comments that are attached to declarations and statements.
-/

namespace Zephir

/-- A place in a source file. Lines and columns count from one; line zero means that the parser
reported no place. -/
structure Position where
  file : String := ""
  line : UInt32 := 0
  column : UInt32 := 0
  deriving DecidableEq, Inhabited

namespace Position

def isUnknown (pos : Position) : Bool :=
  pos.line == 0

def text (pos : Position) : String :=
  (if pos.file.isEmpty then "<input>" else pos.file) ++ ":" ++
    toString pos.line.toNat ++ ":" ++ toString pos.column.toNat

end Position

inductive DocLines
  | one (line : String)
  | many (lines : List String)
  deriving DecidableEq

def DocLines.toList : DocLines → List String
  | .one line => [line]
  | .many lines => lines

/-- A comment in front of a declaration or statement. A `document` comment opens with two stars. -/
structure Docblock where
  lines : DocLines
  multiLine : Bool
  document : Bool
  pos : Position
  deriving DecidableEq

end Zephir
