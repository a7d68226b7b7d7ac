/-!
Cutting a text at a separator character, and taking one character off an end.
-/

namespace Zephir.Text

/-- The pieces between the separators; a text without one is a single piece. -/
def pieces (separator : Char) : List Char → List (List Char)
  | [] => [[]]
  | c :: rest =>
    if c = separator then [] :: pieces separator rest
    else
      match pieces separator rest with
      | [] => [[c]]
      | piece :: more => (c :: piece) :: more

def split (separator : Char) (text : String) : List String :=
  (pieces separator text.toList).map String.ofList

def cutAt (separator : Char) : List Char → Option (List Char × List Char)
  | [] => none
  | c :: rest =>
    if c = separator then some ([], rest)
    else (cutAt separator rest).map fun (before, after) => (c :: before, after)

def stripFirst (c : Char) (text : String) : String :=
  match text.toList with
  | first :: rest => if first = c then String.ofList rest else text
  | [] => text

def beforeLast? (c : Char) (chars : List Char) : Option (List Char) :=
  match chars.reverse with
  | last :: rest => if last = c then some rest.reverse else none
  | [] => none

def linesKept : List Char → List (List Char)
  | [] => []
  | c :: rest =>
    if c = '\n' then [c] :: linesKept rest
    else
      match linesKept rest with
      | [] => [[c]]
      | line :: more => (c :: line) :: more

/-- A line without its newline, nor the carriage return in front of that newline. -/
def withoutNewline (line : List Char) : List Char :=
  match beforeLast? '\n' line with
  | none => line
  | some content => (beforeLast? '\r' content).getD content

def lines (text : String) : List String :=
  (linesKept text.toList).map fun line => String.ofList (withoutNewline line)

end Zephir.Text
