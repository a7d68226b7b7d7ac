/-!
Texts and keys of a TOML document. A text stands between quotes; between double quotes a backslash
starts an escape, between single quotes everything stands for itself. Between three quotes a text
may go on over several lines. Line ends are newlines here.
-/

namespace Zephir

namespace TomlReader

def isControl (c : Char) : Bool :=
  (c.toNat < 0x20 && c != '\t') || c.toNat == 0x7f

def isGap (c : Char) : Bool :=
  c == ' ' || c == '\t'

def skipBlanks (text : List Char) : List Char :=
  text.dropWhile isGap

def hexValue? (c : Char) : Option Nat :=
  if c.isDigit then some (c.toNat - '0'.toNat)
  else if 'a' ≤ c ∧ c ≤ 'f' then some (c.toNat - 'a'.toNat + 10)
  else if 'A' ≤ c ∧ c ≤ 'F' then some (c.toNat - 'A'.toNat + 10)
  else none

def digitsValue? (base : Nat) (digits : List Char) : Option Nat :=
  digits.foldlM (fun value c => do
    let digit ← hexValue? c
    if digit < base then some (value * base + digit) else none) 0

def codePoint? (digits : List Char) : Option Char := do
  let code ← digitsValue? 16 digits
  if code.isValidChar then some (Char.ofNat code) else none

def escaped? (c : Char) : Option Char :=
  match c with
  | '"' => some '"'
  | '\\' => some '\\'
  | 'b' => some '\x08'
  | 'e' => some '\x1b'
  | 'f' => some '\x0c'
  | 'n' => some '\n'
  | 'r' => some '\r'
  | 't' => some '\t'
  | _ => none

def readEscape? : List Char → Option (Char × List Char)
  | 'x' :: a :: b :: rest => (codePoint? [a, b]).map (·, rest)
  | 'u' :: a :: b :: c :: d :: rest => (codePoint? [a, b, c, d]).map (·, rest)
  | 'U' :: a :: b :: c :: d :: e :: f :: g :: h :: rest =>
    (codePoint? [a, b, c, d, e, f, g, h]).map (·, rest)
  | c :: rest => (escaped? c).map (·, rest)
  | [] => none

def consText (c : Char) (found : List Char × List Char) : List Char × List Char :=
  (c :: found.1, found.2)

def readQuoted (fuel : Nat) (text : List Char) : Option (List Char × List Char) :=
  match fuel, text with
  | 0, _ => none
  | _ + 1, [] => none
  | _ + 1, '"' :: rest => some ([], rest)
  | fuel + 1, '\\' :: rest => do
    let (c, rest) ← readEscape? rest
    (readQuoted fuel rest).map (consText c)
  | fuel + 1, c :: rest =>
    if isControl c then none else (readQuoted fuel rest).map (consText c)

def readLiteral : List Char → Option (List Char × List Char)
  | [] => none
  | '\'' :: rest => some ([], rest)
  | c :: rest => if isControl c then none else (readLiteral rest).map (consText c)

def skipHiddenEnd? (text : List Char) : Option (List Char) :=
  match skipBlanks text with
  | '\n' :: rest => some (rest.dropWhile fun c => isGap c || c == '\n')
  | _ => none

/-- Reads a text of at most `fuel` characters up to three closing double quotes. Up to two more
quotes in front of them belong to the text. -/
def readLongQuoted (fuel : Nat) (text : List Char) : Option (List Char × List Char) :=
  match fuel, text with
  | 0, _ => none
  | _ + 1, [] => none
  | _ + 1, '"' :: '"' :: '"' :: '"' :: '"' :: rest => some (['"', '"'], rest)
  | _ + 1, '"' :: '"' :: '"' :: '"' :: rest => some (['"'], rest)
  | _ + 1, '"' :: '"' :: '"' :: rest => some ([], rest)
  | fuel + 1, '\\' :: rest =>
    match skipHiddenEnd? rest with
    | some rest => readLongQuoted fuel rest
    | none => do
      let (c, rest) ← readEscape? rest
      (readLongQuoted fuel rest).map (consText c)
  | fuel + 1, c :: rest =>
    if isControl c && c != '\n' then none else (readLongQuoted fuel rest).map (consText c)

def readLongLiteral : List Char → Option (List Char × List Char)
  | [] => none
  | '\'' :: '\'' :: '\'' :: '\'' :: '\'' :: rest => some (['\'', '\''], rest)
  | '\'' :: '\'' :: '\'' :: '\'' :: rest => some (['\''], rest)
  | '\'' :: '\'' :: '\'' :: rest => some ([], rest)
  | c :: rest =>
    if isControl c && c != '\n' then none else (readLongLiteral rest).map (consText c)

def skipFirstEnd : List Char → List Char
  | '\n' :: rest => rest
  | text => text

/-- Reads the text that starts with the quotes at hand; `none` inside says that there are none. -/
def readText (text : List Char) : Option (Option (String × List Char)) :=
  let found :=
    match text with
    | '"' :: '"' :: '"' :: rest => some (readLongQuoted text.length (skipFirstEnd rest))
    | '\'' :: '\'' :: '\'' :: rest => some (readLongLiteral (skipFirstEnd rest))
    | '"' :: rest => some (readQuoted text.length rest)
    | '\'' :: rest => some (readLiteral rest)
    | _ => none
  match found with
  | none => some none
  | some none => none
  | some (some (chars, rest)) => some (some (String.ofList chars, rest))

def isBare (c : Char) : Bool :=
  c.isAlphanum || c == '_' || c == '-'

def readKeyPart (text : List Char) : Option (String × List Char) :=
  match text with
  | '"' :: rest =>
    (readQuoted text.length rest).map fun found => (String.ofList found.1, found.2)
  | '\'' :: rest => (readLiteral rest).map fun found => (String.ofList found.1, found.2)
  | text =>
    match text.span isBare with
    | ([], _) => none
    | (name, rest) => some (String.ofList name, rest)

def readKey (limit : Nat) (text : List Char) : Option (List String × List Char) :=
  match limit with
  | 0 => none
  | limit + 1 => do
    let (part, rest) ← readKeyPart (skipBlanks text)
    match skipBlanks rest with
    | '.' :: rest =>
      let (parts, rest) ← readKey limit rest
      return (part :: parts, rest)
    | rest => return ([part], rest)

end TomlReader

end Zephir
