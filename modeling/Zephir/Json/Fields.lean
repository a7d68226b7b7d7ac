import Zephir.Json.Draft
import Zephir.Decimal.Shortest
import Zephir.Word

/-!
Reading typed data out of JSON. A field that a record knows may stand in it once at most; fields
that it does not know are left alone. Every reader answers `none` for data of the wrong shape.
-/

namespace Zephir

abbrev Fields := List (String × Json)

namespace Fields

variable {α : Type}

def named (fields : Fields) (name : String) : List Json :=
  fields.filterMap fun field => if field.1 = name then some field.2 else none

def required (fields : Fields) (name : String) (read : Json → Option α) : Option α :=
  match fields.named name with
  | [value] => read value
  | _ => none

def withDefault (fields : Fields) (name : String) (fallback : α) (read : Json → Option α) :
    Option α :=
  match fields.named name with
  | [] => some fallback
  | [value] => read value
  | _ => none

def optional (fields : Fields) (name : String) (read : Json → Option α) : Option (Option α) :=
  match fields.named name with
  | [] => some none
  | [.null] => some none
  | [value] => (read value).map some
  | _ => none

end Fields

namespace Json

variable {α : Type}

def string? : Json → Option String
  | .string value => some value
  | _ => none

def bool? : Json → Option Bool
  | .bool value => some value
  | _ => none

def int64? : Json → Option Int
  | .number (.int value) => if fitsInt64 value then some value else none
  | _ => none

def natBelow? (bound : Nat) : Json → Option Nat
  | .number (.int value) => if 0 ≤ value ∧ value < bound then some value.toNat else none
  | _ => none

def word32? (json : Json) : Option UInt32 :=
  (json.natBelow? UInt32.size).map UInt32.ofNat

def word8? (json : Json) : Option UInt8 :=
  (json.natBelow? UInt8.size).map UInt8.ofNat

/-- A flag: a boolean, an integer that is zero or not, or a text. The texts for false are the
empty one, `0` and `false`. -/
def flag? (json : Json) : Option Bool :=
  match json with
  | .bool value => some value
  | .string value => some (!(value == "" || value == "0" || value == "false"))
  | json => json.int64?.map (· != 0)

/-- The text of a scalar: a text itself, or a number or boolean in its usual spelling. An integer
beyond 64 signed bits is first rounded to a double. -/
def scalarText? (json : Json) : Option String :=
  match json with
  | .string value => some value
  | .bool value => some (if value then "true" else "false")
  | .number (.real value) => some (Decimal.text value)
  | .number (.int value) =>
    match json.int64? with
    | some value => some (toString value)
    | none => some (Decimal.text value.toNat.toUInt64.toFloat)
  | _ => none

def list? (read : Json → Option α) : Json → Option (List α)
  | .array items => items.mapM read
  | _ => none

def object? : Json → Option Fields
  | .object fields => some fields
  | _ => none

/-- An object, or an array that gives its fields in order and may stop early. -/
def record? (names : List String) : Json → Option Fields
  | .object fields => some fields
  | .array items => if items.length ≤ names.length then some (names.zip items) else none
  | _ => none

def map? (read : Json → Option α) : Json → Option (List (String × α))
  | .object fields => fields.mapM fun field => (read field.2).map (field.1, ·)
  | _ => none

def choice? (all : List α) (names : α → List String) : Json → Option α
  | .string name => all.find? fun choice => (names choice).contains name
  | .number (.int place) => if 0 ≤ place then all[place.toNat]? else none
  | _ => none

/-- A choice out of a list by its name, which may also be the only name of an object that holds
nothing under it. -/
def constant? (all : List α) (name : α → String) : Json → Option α
  | .string given => all.find? fun choice => name choice == given
  | .object [(given, .null)] => all.find? fun choice => name choice == given
  | .object [(given, .object [])] => all.find? fun choice => name choice == given
  | _ => none

end Json

end Zephir
