/-!
The fewest decimal digits that still name a given binary fraction. A binary fraction
`m * 2 ^ q` is read back from every decimal in the interval halfway to its two neighbours; the
ends belong to the interval when `m` is even. Grids of one, two, ... up to seventeen digits are
tried in turn, and on the first grid with a point in the interval the point nearest to the value
wins. A tie goes to the larger one.
-/

namespace Zephir.Decimal

structure Ratio where
  num : Nat
  den : Nat

def Ratio.scaled (n : Nat) (e : Int) : Ratio :=
  if e ≥ 0 then ⟨n * Nat.pow 2 e.toNat, 1⟩ else ⟨n, Nat.pow 2 (-e).toNat⟩

structure Point where
  digits : Nat
  exponent : Int
  deriving DecidableEq

def Point.compare (p : Point) (r : Ratio) : Ordering :=
  if p.exponent ≥ 0 then Ord.compare (p.digits * Nat.pow 10 p.exponent.toNat * r.den) r.num
  else Ord.compare (p.digits * r.den) (r.num * Nat.pow 10 (-p.exponent).toNat)

/-- A binary fraction `mantissa * 2 ^ exponent`; `narrowBelow` says that its lower neighbour is
only half as far away as its upper one. -/
structure Fraction where
  mantissa : Nat
  exponent : Int
  narrowBelow : Bool

def Fraction.value (x : Fraction) : Ratio :=
  .scaled (4 * x.mantissa) (x.exponent - 2)

def Fraction.low (x : Fraction) : Ratio :=
  .scaled (4 * x.mantissa - (if x.narrowBelow then 1 else 2)) (x.exponent - 2)

def Fraction.high (x : Fraction) : Ratio :=
  .scaled (4 * x.mantissa + 2) (x.exponent - 2)

def Fraction.names (x : Fraction) (p : Point) : Bool :=
  match p.compare x.low, p.compare x.high with
  | .gt, .lt => true
  | .eq, _ | _, .eq => x.mantissa % 2 == 0
  | _, _ => false

def tensToOne (r : Ratio) : Nat → Nat
  | 0 => 0
  | bound + 1 => if r.num ≥ r.den then 0 else tensToOne ⟨r.num * 10, r.den⟩ bound + 1

def magnitude (r : Ratio) : Int :=
  if r.num ≥ r.den then ((Nat.toDigits 10 (r.num / r.den)).length : Int)
  else 1 - (tensToOne r 400 : Int)

/-- The grid point at or below the rational on the grid of multiples of `10 ^ exponent`. -/
def below (r : Ratio) (exponent : Int) : Point :=
  if exponent ≥ 0 then ⟨r.num / (r.den * Nat.pow 10 exponent.toNat), exponent⟩
  else ⟨r.num * Nat.pow 10 (-exponent).toNat / r.den, exponent⟩

def nextIsNearer (p : Point) (r : Ratio) : Bool :=
  (⟨20 * p.digits + 10, p.exponent - 1⟩ : Point).compare ⟨2 * r.num, r.den⟩ != .gt

/-- The nearest point that names the fraction among its two neighbours on a grid. -/
def onGrid (x : Fraction) (exponent : Int) : Option Point :=
  let down := below x.value exponent
  let up : Point := ⟨down.digits + 1, exponent⟩
  match x.names down, x.names up with
  | true, true => some (if nextIsNearer down x.value then up else down)
  | true, false => some down
  | false, true => some up
  | false, false => none

def Point.coarser (p : Point) : Point :=
  if p.digits % 10 = 0 then ⟨p.digits / 10, p.exponent + 1⟩ else p

def firstGrid (x : Fraction) (count : Nat) : Nat → Point
  | 0 => below x.value (magnitude x.value - count)
  | more + 1 =>
    match onGrid x (magnitude x.value - count) with
    | some point => point
    | none => firstGrid x (count + 1) more

/-- The shortest decimal that names the fraction. Only the one-digit grid can end in a zero, when
the point above nine is the nearest. -/
def shortest (x : Fraction) : Point :=
  (firstGrid x 1 17).coarser

def Point.positional (p : Point) : String :=
  let digits := Nat.toDigits 10 p.digits
  if p.exponent ≥ 0 then String.ofList (digits ++ List.replicate p.exponent.toNat '0')
  else
    let places := (-p.exponent).toNat
    let padded := List.replicate (places + 1 - digits.length) '0' ++ digits
    let whole := padded.length - places
    String.ofList (padded.take whole ++ '.' :: padded.drop whole)

def Fraction.ofBits (bits : UInt64) : Fraction :=
  let fraction := (bits &&& 0xFFFFFFFFFFFFF).toNat
  let power := ((bits >>> 52) &&& 0x7FF).toNat
  if power = 0 then ⟨fraction, -1074, false⟩
  else ⟨fraction + 4503599627370496, (power : Int) - 1075, fraction == 0 && power != 1⟩

/-- A finite double as the shortest positional decimal that reads back as the same double. -/
def text (x : Float) : String :=
  let bits := x.toBits
  let sign := if bits >>> 63 == 1 then "-" else ""
  let size := bits &&& 0x7FFFFFFFFFFFFFFF
  if size == 0 then sign ++ "0" else sign ++ (shortest (.ofBits size)).positional

end Zephir.Decimal
