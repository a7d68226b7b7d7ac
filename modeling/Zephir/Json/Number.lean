import Zephir.Json.Value

/-!
Numbers as JSON writes them, and the values they stand for. Digits are gathered in a 64-bit
significand; once it is full, further digits only count towards the power of ten. Numbers with a
fraction, an exponent or too many digits are doubles, computed by one multiplication or division
with a power of ten. A number above the largest double has no value.
-/

namespace Zephir

structure WrittenExponent where
  negative : Bool
  digits : List Char

/-- A number as it is written; `fraction` is empty without a decimal point. -/
structure WrittenNumber where
  negative : Bool
  whole : List Char
  fraction : List Char
  exponent : Option WrittenExponent

namespace WrittenNumber

def digit (c : Char) : Nat :=
  c.toNat - '0'.toNat

def significandLimit : Nat := 18446744073709551615

/-- Takes in digits as long as the significand has room; returns it with the digits left out. -/
def gather (significand : Nat) : List Char → Nat × List Char
  | [] => (significand, [])
  | c :: rest =>
    let next := significand * 10 + digit c
    if next ≤ significandLimit then gather next rest else (significand, c :: rest)

def exponentLimit : Nat := 2147483647

def exponentValue? (digits : List Char) : Option Nat :=
  digits.foldl (fun value c => do
    let next := (← value) * 10 + digit c
    if next ≤ exponentLimit then some next else none) (some 0)

def clampExponent (e : Int) : Int :=
  max (-2147483648) (min e 2147483647)

def powerOfTen (n : Nat) : Float :=
  Float.ofScientific 1 false n

/-- Divides by `10 ^ 308` as often as it fits into the exponent, then by the rest. -/
def shrink (x : Float) (exponent : Nat) : Float :=
  if exponent ≤ 308 then x / powerOfTen exponent
  else if x == 0 then x
  else shrink (x / powerOfTen 308) (exponent - 308)
termination_by exponent

def scale? (significand : Nat) (exponent : Int) : Option Float :=
  let x := significand.toUInt64.toFloat
  if exponent < 0 then some (shrink x (-exponent).toNat)
  else if exponent ≤ 308 then
    let scaled := x * powerOfTen exponent.toNat
    if scaled.isInf then none else some scaled
  else if x == 0 then some x else none

def withExponent? (significand : Nat) (power : Int) : Option WrittenExponent → Option Float
  | none => scale? significand power
  | some exponent =>
    match exponentValue? exponent.digits with
    | some value =>
      scale? significand
        (clampExponent (if exponent.negative then power - value else power + value))
    | none => if significand ≠ 0 ∧ ¬ exponent.negative then none else some 0

/-- The integer, if it fits 64 bits; zero with a minus sign is no integer. -/
def integer? (negative : Bool) (magnitude : Nat) : Option Int :=
  if negative then
    if magnitude ≠ 0 ∧ magnitude ≤ 9223372036854775808 then some (-magnitude) else none
  else some magnitude

def value? (number : WrittenNumber) : Option JsonNumber :=
  let signed (x : Float) : JsonNumber := .real (if number.negative then -x else x)
  let (significand, skipped) := gather 0 number.whole
  if number.fraction.isEmpty && number.exponent.isNone && skipped.isEmpty then
    match integer? number.negative significand with
    | some value => some (.int value)
    | none => some (signed significand.toUInt64.toFloat)
  else
    let (significand, rest) := gather significand number.fraction
    let power := (skipped.length : Int) + rest.length - number.fraction.length
    (withExponent? significand power number.exponent).map signed

end WrittenNumber

end Zephir
