/-!
JSON values. The fields of an object keep their written order and may repeat a name; whoever reads
an object decides what a repeated name means.
-/

namespace Zephir

/-- A number: an integer of at most 64 bits, or else the double nearest to what was written. -/
inductive JsonNumber
  | int (value : Int)
  | real (value : Float)

inductive Json
  | null
  | bool (value : Bool)
  | number (value : JsonNumber)
  | string (value : String)
  | array (items : List Json)
  | object (fields : List (String × Json))

namespace Json

mutual

def depth : Json → Nat
  | .array items => depthOfItems items + 1
  | .object fields => depthOfFields fields + 1
  | _ => 0

def depthOfItems : List Json → Nat
  | [] => 0
  | item :: rest => max item.depth (depthOfItems rest)

def depthOfFields : List (String × Json) → Nat
  | [] => 0
  | (_, value) :: rest => max value.depth (depthOfFields rest)

end

def ofNat (n : Nat) : Json :=
  .number (.int n)

end Json

end Zephir
