import Zephir.Text.Split
import Zephir.Toml.Quoted
import Zephir.Toml.Value

/-!
Booleans, numbers and moments of a TOML document: everything that is a single word. A number may
have underscores between its digits. A moment may have a blank between its date and its time, and
is the only word with a blank in it.
-/

namespace Zephir

namespace TomlReader

def plainDigits? (chars : List Char) : Option (List Char) :=
  let groups := Text.pieces '_' chars
  if groups.all fun group => !group.isEmpty then some groups.flatten else none

def decimal? (chars : List Char) : Option (Nat × Nat) := do
  let digits ← plainDigits? chars
  return (← digitsValue? 10 digits, digits.length)

def isPadded (chars : List Char) : Bool :=
  chars.head? == some '0' && chars.length != 1

def withoutSign (word : List Char) : Bool × List Char :=
  match word with
  | '-' :: rest => (true, rest)
  | '+' :: rest => (false, rest)
  | word => (false, word)

def signed (negative : Bool) (value : Nat) : Int :=
  if negative then -value else value

def based? (base : Nat) (chars : List Char) : Option Int := do
  let value ← digitsValue? base (← plainDigits? chars)
  return value

def integer? (word : List Char) : Option Int :=
  match word with
  | '0' :: 'x' :: digits => based? 16 digits
  | '0' :: 'o' :: digits => based? 8 digits
  | '0' :: 'b' :: digits => based? 2 digits
  | word => do
    let (negative, digits) := withoutSign word
    if isPadded digits then none
    let (value, _) ← decimal? digits
    return signed negative value

def exponent? (chars : List Char) : Option Int := do
  let (negative, digits) := withoutSign chars
  let (value, _) ← decimal? digits
  return signed negative value

def cutExponent (chars : List Char) : List Char × Option (List Char) :=
  match chars.span fun c => c != 'e' && c != 'E' with
  | (mantissa, _ :: exponent) => (mantissa, some exponent)
  | (mantissa, []) => (mantissa, none)

def point? (word : List Char) : Option Decimal.Point := do
  let (mantissa, mark) := cutExponent word
  match Text.cutAt '.' mantissa, mark with
  | some (whole, fraction), mark =>
    if isPadded whole then none
    let (front, _) ← decimal? whole
    let (back, places) ← decimal? fraction
    let exponent ← (mark.map exponent?).getD (some 0)
    return ⟨front * Nat.pow 10 places + back, exponent - places⟩
  | none, some mark =>
    if isPadded mantissa then none
    let (front, _) ← decimal? mantissa
    return ⟨front, ← exponent? mark⟩
  | none, none => none

def real? (word : List Char) : Option TomlReal :=
  let (negative, number) := withoutSign word
  if number = ['i', 'n', 'f'] then some (.infinite negative)
  else if number = ['n', 'a', 'n'] then some .notANumber
  else (point? number).map (.decimal negative)

def isWordChar (c : Char) : Bool :=
  c.isAlphanum || c == '_' || c == '+' || c == '-' || c == '.' || c == ':'

/-- Takes the word that a text starts with. A word right after a single blank belongs to it. -/
def takeWord (text : List Char) : List Char × List Char :=
  match text.span isWordChar with
  | (word, ' ' :: c :: rest) =>
    if isWordChar c then
      let (more, rest) := (c :: rest).span isWordChar
      (word ++ ' ' :: more, rest)
    else (word, ' ' :: c :: rest)
  | found => found

def wordValue? (word : List Char) : Option Toml :=
  if word = "true".toList then some (.bool true)
  else if word = "false".toList then some (.bool false)
  else
    (integer? word).map .int <|> (real? word).map .real <|> (Moment.ofChars? word).map .moment

end TomlReader

end Zephir
