import Zephir.Toml.Scalar

/-!
TOML documents. Reading gives the lines of a document, which are headers and pairs of a key and a
value; the lines then build the table of the whole document, and a line that would define
something twice is refused.
-/

namespace Zephir

inductive TomlLine
  | pair (key : List String) (value : Toml)
  | tableHeader (path : List String)
  | listHeader (path : List String)

namespace TomlReader

def plainLineEnds : List Char → List Char
  | '\r' :: '\n' :: rest => '\n' :: plainLineEnds rest
  | c :: rest => c :: plainLineEnds rest
  | [] => []

/-- Drops blanks, line ends and comments; `comment` says whether the text starts inside of one. -/
def skipLines (comment : Bool) : List Char → Option (List Char)
  | [] => some []
  | '\n' :: rest => skipLines false rest
  | c :: rest =>
    if comment then if isControl c then none else skipLines true rest
    else if isGap c then skipLines false rest
    else if c = '#' then skipLines true rest
    else some (c :: rest)

def endLine (text : List Char) : Option (List Char) :=
  match skipBlanks text with
  | [] => some []
  | '\n' :: rest => skipLines false rest
  | '#' :: rest => skipLines true rest
  | _ => none

def keyLimit : Nat := 80

def depthLimit : Nat := 80

mutual

/-- Reads one value; `depth` is how many more brackets may open around a value, and `fuel` bounds
the number of nested calls. -/
def readValue (depth fuel : Nat) (text : List Char) : Option (Toml × List Char) :=
  match fuel with
  | 0 => none
  | fuel + 1 =>
    match depth, text with
    | depth + 1, '[' :: rest => do
      let (items, rest) ← readItems depth fuel (← skipLines false rest)
      return (.array items, rest)
    | depth + 1, '{' :: rest => do
      let (pairs, rest) ← readPairs depth fuel (← skipLines false rest)
      let entries ← TomlEntries.ofPairs? pairs
      return (.table .inline entries, rest)
    | _, text => do
      match ← readText text with
      | some (found, rest) => return (.string found, rest)
      | none =>
        let (word, rest) := takeWord text
        return (← wordValue? word, rest)

def readItems (depth fuel : Nat) (text : List Char) : Option (List Toml × List Char) :=
  match fuel, text with
  | 0, _ => none
  | _ + 1, ']' :: rest => some ([], rest)
  | fuel + 1, text => do
    let (item, rest) ← readValue depth fuel text
    match ← skipLines false rest with
    | ',' :: rest =>
      let (items, rest) ← readItems depth fuel (← skipLines false rest)
      return (item :: items, rest)
    | ']' :: rest => return ([item], rest)
    | _ => none

def readPairs (depth fuel : Nat) (text : List Char) :
    Option (List (List String × Toml) × List Char) :=
  match fuel, text with
  | 0, _ => none
  | _ + 1, '}' :: rest => some ([], rest)
  | fuel + 1, text => do
    let (key, value, rest) ← readPair depth fuel text
    match ← skipLines false rest with
    | ',' :: rest =>
      let (pairs, rest) ← readPairs depth fuel (← skipLines false rest)
      return ((key, value) :: pairs, rest)
    | '}' :: rest => return ([(key, value)], rest)
    | _ => none

def readPair (depth fuel : Nat) (text : List Char) :
    Option (List String × Toml × List Char) :=
  match fuel with
  | 0 => none
  | fuel + 1 => do
    let (key, rest) ← readKey keyLimit text
    match ← skipLines false rest with
    | '=' :: rest =>
      let (value, rest) ← readValue depth fuel (← skipLines false rest)
      return (key, value, rest)
    | _ => none

end

def readHeader (text : List Char) : Option (TomlLine × List Char) :=
  match text with
  | '[' :: '[' :: rest => do
    let (path, rest) ← readKey keyLimit rest
    match rest with
    | ']' :: ']' :: rest => return (.listHeader path, rest)
    | _ => none
  | '[' :: rest => do
    let (path, rest) ← readKey keyLimit rest
    match rest with
    | ']' :: rest => return (.tableHeader path, rest)
    | _ => none
  | _ => none

def readLine (text : List Char) : Option (TomlLine × List Char) :=
  match text with
  | '[' :: _ => readHeader text
  | _ => do
    let (key, rest) ← readKey keyLimit text
    match rest with
    | '=' :: rest =>
      let (value, rest) ← readValue depthLimit (2 * rest.length + 2) (skipBlanks rest)
      return (.pair key value, rest)
    | _ => none

def readLines (fuel : Nat) (text : List Char) : Option (List TomlLine) :=
  match fuel, text with
  | _, [] => some []
  | 0, _ => none
  | fuel + 1, text => do
    let (line, rest) ← readLine text
    let lines ← readLines fuel (← endLine rest)
    return line :: lines

end TomlReader

namespace Toml

/-- The table of a document with the lines; `path` is that of the header above them. -/
def build? (path : List String) (entries : TomlEntries) : List TomlLine → Option TomlEntries
  | [] => some entries
  | .pair key value :: rest => do
    build? path (← entries.within? (TomlEntries.assign? value key) path) rest
  | .tableHeader header :: rest => do
    let name ← header.getLast?
    build? header (← entries.within? (TomlEntries.openTable? name) header.dropLast) rest
  | .listHeader header :: rest => do
    let name ← header.getLast?
    build? header (← entries.within? (TomlEntries.openNext? name) header.dropLast) rest

def parse? (text : String) : Option TomlEntries := do
  let chars :=
    match TomlReader.plainLineEnds text.toList with
    | '\ufeff' :: rest => rest
    | chars => chars
  let lines ← TomlReader.readLines (chars.length + 1) (← TomlReader.skipLines false chars)
  build? [] [] lines

end Toml

end Zephir
