import Zephir.Json.Number

/-!
Reading JSON text. The reader checks the grammar and yields a draft, in which numbers keep their
digits and strings keep their hexadecimal escapes. A draft becomes a value when every number has a
value, every string spells a text, and arrays and objects are nested at most 127 deep. A reader
that skips a part of a document asks for no more than its draft.
-/

namespace Zephir

inductive StringPiece
  | char (c : Char)
  | unit (code : Nat)

inductive JsonDraft
  | null
  | bool (value : Bool)
  | number (written : WrittenNumber)
  | string (pieces : List StringPiece)
  | array (items : List JsonDraft)
  | object (fields : List (List StringPiece × JsonDraft))

namespace StringPiece

/-- The text that the pieces spell. Units of a surrogate pair make one character; a surrogate
outside a pair spells nothing. -/
def text? : List StringPiece → Option (List Char)
  | [] => some []
  | .char c :: rest => (text? rest).map (c :: ·)
  | .unit high :: .unit low :: rest =>
    if 0xD800 ≤ high ∧ high ≤ 0xDBFF then
      if 0xDC00 ≤ low ∧ low ≤ 0xDFFF then
        let code := 0x10000 + (high - 0xD800) * 0x400 + (low - 0xDC00)
        (text? rest).map (Char.ofNat code :: ·)
      else none
    else if 0xDC00 ≤ high ∧ high ≤ 0xDFFF then none
    else (text? (.unit low :: rest)).map (Char.ofNat high :: ·)
  | .unit code :: rest =>
    if 0xD800 ≤ code ∧ code ≤ 0xDFFF then none else (text? rest).map (Char.ofNat code :: ·)

end StringPiece

namespace JsonDraft

def isSpace (c : Char) : Bool :=
  c == ' ' || c == '\n' || c == '\t' || c == '\r'

def skipSpace (text : List Char) : List Char :=
  text.dropWhile isSpace

def hexDigit? (c : Char) : Option Nat :=
  if '0' ≤ c ∧ c ≤ '9' then some (c.toNat - '0'.toNat)
  else if 'a' ≤ c ∧ c ≤ 'f' then some (c.toNat - 'a'.toNat + 10)
  else if 'A' ≤ c ∧ c ≤ 'F' then some (c.toNat - 'A'.toNat + 10)
  else none

def hexUnit? (a b c d : Char) : Option Nat := do
  let a ← hexDigit? a
  let b ← hexDigit? b
  let c ← hexDigit? c
  let d ← hexDigit? d
  return ((a * 16 + b) * 16 + c) * 16 + d

def escaped? (c : Char) : Option Char :=
  match c with
  | '"' => some '"'
  | '\\' => some '\\'
  | '/' => some '/'
  | 'b' => some '\x08'
  | 'f' => some '\x0c'
  | 'n' => some '\n'
  | 'r' => some '\r'
  | 't' => some '\t'
  | _ => none

def readString : List Char → Option (List StringPiece × List Char)
  | [] => none
  | '"' :: rest => some ([], rest)
  | '\\' :: 'u' :: a :: b :: c :: d :: rest => do
    let code ← hexUnit? a b c d
    let (pieces, rest) ← readString rest
    return (.unit code :: pieces, rest)
  | '\\' :: c :: rest => do
    let c ← escaped? c
    let (pieces, rest) ← readString rest
    return (.char c :: pieces, rest)
  | c :: rest => do
    if c = '\\' ∨ c.toNat < 0x20 then none
    let (pieces, rest) ← readString rest
    return (.char c :: pieces, rest)

def readDigits (text : List Char) : List Char × List Char :=
  text.span Char.isDigit

def readDigits? (text : List Char) : Option (List Char × List Char) :=
  match readDigits text with
  | ([], _) => none
  | found => some found

def readWhole (text : List Char) : Option (List Char × List Char) := do
  let (digits, rest) ← readDigits? text
  match digits with
  | '0' :: _ :: _ => none
  | _ => return (digits, rest)

def readFraction (text : List Char) : Option (List Char × List Char) :=
  match text with
  | '.' :: rest => readDigits? rest
  | rest => some ([], rest)

def readExponentDigits (negative : Bool) (text : List Char) :
    Option (Option WrittenExponent × List Char) := do
  let (digits, rest) ← readDigits? text
  return (some ⟨negative, digits⟩, rest)

def readSignedExponent (text : List Char) : Option (Option WrittenExponent × List Char) :=
  match text with
  | '+' :: rest => readExponentDigits false rest
  | '-' :: rest => readExponentDigits true rest
  | rest => readExponentDigits false rest

def readExponent (text : List Char) : Option (Option WrittenExponent × List Char) :=
  match text with
  | 'e' :: rest => readSignedExponent rest
  | 'E' :: rest => readSignedExponent rest
  | rest => some (none, rest)

def readUnsigned (negative : Bool) (text : List Char) : Option (WrittenNumber × List Char) := do
  let (whole, rest) ← readWhole text
  let (fraction, rest) ← readFraction rest
  let (exponent, rest) ← readExponent rest
  return (⟨negative, whole, fraction, exponent⟩, rest)

def readNumber (text : List Char) : Option (WrittenNumber × List Char) :=
  match text with
  | '-' :: rest => readUnsigned true rest
  | rest => readUnsigned false rest

def readName (text : List Char) : Option (List StringPiece × List Char) := do
  match skipSpace text with
  | '"' :: rest =>
    let (name, rest) ← readString rest
    match skipSpace rest with
    | ':' :: rest => return (name, rest)
    | _ => none
  | _ => none

mutual

/-- Reads one value; `fuel` bounds the number of nested calls. -/
def readValue (fuel : Nat) (text : List Char) : Option (JsonDraft × List Char) :=
  match fuel with
  | 0 => none
  | fuel + 1 =>
    match skipSpace text with
    | 'n' :: 'u' :: 'l' :: 'l' :: rest => some (.null, rest)
    | 't' :: 'r' :: 'u' :: 'e' :: rest => some (.bool true, rest)
    | 'f' :: 'a' :: 'l' :: 's' :: 'e' :: rest => some (.bool false, rest)
    | '"' :: rest => do
      let (pieces, rest) ← readString rest
      return (.string pieces, rest)
    | '[' :: rest =>
      match skipSpace rest with
      | ']' :: rest => some (.array [], rest)
      | rest => do
        let (items, rest) ← readItems fuel rest
        return (.array items, rest)
    | '{' :: rest =>
      match skipSpace rest with
      | '}' :: rest => some (.object [], rest)
      | rest => do
        let (fields, rest) ← readFields fuel rest
        return (.object fields, rest)
    | rest => do
      let (written, rest) ← readNumber rest
      return (.number written, rest)

def readItems (fuel : Nat) (text : List Char) : Option (List JsonDraft × List Char) :=
  match fuel with
  | 0 => none
  | fuel + 1 => do
    let (item, rest) ← readValue fuel text
    match skipSpace rest with
    | ',' :: rest =>
      let (items, rest) ← readItems fuel rest
      return (item :: items, rest)
    | ']' :: rest => return ([item], rest)
    | _ => none

def readFields (fuel : Nat) (text : List Char) :
    Option (List (List StringPiece × JsonDraft) × List Char) :=
  match fuel with
  | 0 => none
  | fuel + 1 => do
    let (name, rest) ← readName text
    let (value, rest) ← readValue fuel rest
    match skipSpace rest with
    | ',' :: rest =>
      let (fields, rest) ← readFields fuel rest
      return ((name, value) :: fields, rest)
    | '}' :: rest => return ([(name, value)], rest)
    | _ => none

end

/-- Reads a whole document: one value with nothing but space around it. A value of `n` characters
takes fewer than `2 * n` nested calls. -/
def parse? (text : String) : Option JsonDraft := do
  let chars := text.toList
  let (draft, rest) ← readValue (2 * chars.length + 2) chars
  if (skipSpace rest).isEmpty then some draft else none

mutual

def depth : JsonDraft → Nat
  | .array items => depthOfItems items + 1
  | .object fields => depthOfFields fields + 1
  | _ => 0

def depthOfItems : List JsonDraft → Nat
  | [] => 0
  | item :: rest => max item.depth (depthOfItems rest)

def depthOfFields : List (List StringPiece × JsonDraft) → Nat
  | [] => 0
  | (_, value) :: rest => max value.depth (depthOfFields rest)

end

def text? (pieces : List StringPiece) : Option String :=
  (StringPiece.text? pieces).map String.ofList

mutual

def value? : JsonDraft → Option Json
  | .null => some .null
  | .bool value => some (.bool value)
  | .number written => written.value?.map .number
  | .string pieces => (text? pieces).map .string
  | .array items => (values? items).map .array
  | .object fields => (fieldValues? fields).map .object

def values? : List JsonDraft → Option (List Json)
  | [] => some []
  | item :: rest => do
    let value ← item.value?
    let values ← values? rest
    return value :: values

def fieldValues? : List (List StringPiece × JsonDraft) → Option (List (String × Json))
  | [] => some []
  | (name, draft) :: rest => do
    let name ← text? name
    let value ← draft.value?
    let fields ← fieldValues? rest
    return (name, value) :: fields

end

end JsonDraft

def Json.depthLimit : Nat := 127

def Json.ofDraft? (draft : JsonDraft) : Option Json :=
  if draft.depth ≤ Json.depthLimit then draft.value? else none

def Json.parse? (text : String) : Option Json := do
  Json.ofDraft? (← JsonDraft.parse? text)

end Zephir
