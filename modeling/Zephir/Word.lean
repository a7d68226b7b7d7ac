/-!
Integers of a fixed width.
-/

namespace Zephir

def fitsInt64 (value : Int) : Bool :=
  -9223372036854775808 ≤ value && value ≤ 9223372036854775807

end Zephir
