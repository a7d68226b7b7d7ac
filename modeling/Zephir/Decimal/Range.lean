import Zephir.Decimal.Shortest

/-!
The range of double precision. A decimal rounds to a finite double if it stays below the point
halfway between the largest double and the power of two above it.
-/

namespace Zephir.Decimal

def overflowPoint : Nat :=
  Nat.pow 2 1024 - Nat.pow 2 970

/-- Whether the decimal rounds to a finite double. Only a decimal with 309 digits in front of its
point needs a closer look. -/
def Point.isFinite (p : Point) : Bool :=
  let size := ((Nat.toDigits 10 p.digits).length : Int) + p.exponent
  p.digits == 0 || size < 309 || (size == 309 && p.compare ⟨overflowPoint, 1⟩ == .lt)

end Zephir.Decimal
