import Zephir.Json.Value
import Zephir.Decimal.Shortest

/-!
JSON text for people: one item or field to a line, two blanks of indentation to a level, and
nothing between the brackets of an empty array or object. Only quotes, backslashes and control
characters are escaped in strings.
-/

namespace Zephir.Json

def hexDigit (n : Nat) : Char :=
  Char.ofNat (if n < 10 then '0'.toNat + n else 'a'.toNat + (n - 10))

def escapeChar (c : Char) : List Char :=
  if c = '"' then ['\\', '"']
  else if c = '\\' then ['\\', '\\']
  else if c = '\x08' then ['\\', 'b']
  else if c = '\x0c' then ['\\', 'f']
  else if c = '\n' then ['\\', 'n']
  else if c = '\r' then ['\\', 'r']
  else if c = '\t' then ['\\', 't']
  else if c.toNat < 0x20 then
    ['\\', 'u', '0', '0', hexDigit (c.toNat / 16), hexDigit (c.toNat % 16)]
  else [c]

def quoted (text : String) : List Char :=
  '"' :: text.toList.flatMap escapeChar ++ ['"']

def numberText : JsonNumber → List Char
  | .int value =>
    if value < 0 then '-' :: Nat.toDigits 10 value.natAbs else Nat.toDigits 10 value.natAbs
  | .real value => (Decimal.text value).toList

def newline (level : Nat) : List Char :=
  '\n' :: List.replicate (2 * level) ' '

mutual

def prettyAt (level : Nat) : Json → List Char
  | .null => ['n', 'u', 'l', 'l']
  | .bool true => ['t', 'r', 'u', 'e']
  | .bool false => ['f', 'a', 'l', 's', 'e']
  | .number value => numberText value
  | .string value => quoted value
  | .array items =>
    match items with
    | [] => ['[', ']']
    | item :: rest =>
      '[' :: newline (level + 1) ++ prettyAt (level + 1) item ++
        prettyItems (level + 1) rest ++ newline level ++ [']']
  | .object fields =>
    match fields with
    | [] => ['{', '}']
    | (name, value) :: rest =>
      '{' :: newline (level + 1) ++ quoted name ++ [':', ' '] ++ prettyAt (level + 1) value ++
        prettyFields (level + 1) rest ++ newline level ++ ['}']

def prettyItems (level : Nat) : List Json → List Char
  | [] => []
  | item :: rest => ',' :: newline level ++ prettyAt level item ++ prettyItems level rest

def prettyFields (level : Nat) : List (String × Json) → List Char
  | [] => []
  | (name, value) :: rest =>
    ',' :: newline level ++ quoted name ++ [':', ' '] ++ prettyAt level value ++
      prettyFields level rest

end

def pretty (value : Json) : String :=
  String.ofList (prettyAt 0 value)

end Zephir.Json
