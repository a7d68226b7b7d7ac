import Zephir.Decimal.Range
import Zephir.Toml.Moment

/-!
TOML values. A table remembers how it came about, since that decides who may still add to it: a
header opens a table once, a dotted key may add to tables that no header opened, and nothing adds
to an inline table.
-/

namespace Zephir

inductive TableOrigin
  /-- On the way to a table with a header of its own. -/
  | implied
  /-- By its own header. -/
  | header
  /-- By a dotted key. -/
  | dotted
  /-- Between braces. -/
  | inline
  deriving DecidableEq

inductive TomlReal
  | decimal (negative : Bool) (value : Decimal.Point)
  | infinite (negative : Bool)
  | notANumber
  deriving DecidableEq

inductive Toml
  | bool (value : Bool)
  | int (value : Int)
  | real (value : TomlReal)
  | moment (value : Moment)
  | string (value : String)
  | array (items : List Toml)
  | table (origin : TableOrigin) (entries : List (String × Toml))
  | tables (items : List (List (String × Toml)))

abbrev TomlEntries := List (String × Toml)

def TomlReal.inRange : TomlReal → Bool
  | .decimal _ value => value.isFinite
  | .infinite _ => true
  | .notANumber => true

namespace Toml

def fitsWidest (value : Int) : Bool :=
  -170141183460469231731687303715884105728 ≤ value &&
    value ≤ 340282366920938463463374607431768211455

mutual

def inRange : Toml → Bool
  | .int value => fitsWidest value
  | .real value => value.inRange
  | .array items => itemsInRange items
  | .table _ entries => entriesInRange entries
  | .tables items => tablesInRange items
  | .bool _ | .moment _ | .string _ => true

def itemsInRange : List Toml → Bool
  | [] => true
  | item :: rest => item.inRange && itemsInRange rest

def entriesInRange : List (String × Toml) → Bool
  | [] => true
  | (_, value) :: rest => value.inRange && entriesInRange rest

def tablesInRange : List (List (String × Toml)) → Bool
  | [] => true
  | entries :: rest => entriesInRange entries && tablesInRange rest

end

end Toml

namespace TomlEntries

def update? (name : String) (change : Option Toml → Option Toml) :
    TomlEntries → Option TomlEntries
  | [] => (change none).map fun value => [(name, value)]
  | (other, value) :: rest =>
    if other = name then (change (some value)).map fun value => (name, value) :: rest
    else (update? name change rest).map ((other, value) :: ·)

/-- Makes an entry under a dotted key, whose parts but the last lead through tables that no header
opened; through a list of tables they lead to its last one. The table of the entry itself is in no
list, and a header may not open it any more. -/
def assign? (value : Toml) : List String → TomlEntries → Option TomlEntries
  | [], _ => none
  | [name], entries =>
    update? name (fun old => if old.isSome then none else some value) entries
  | [name, last], entries =>
    update? name (fun old =>
      match old with
      | none => (assign? value [last] []).map (.table .dotted)
      | some (.table .dotted inner) | some (.table .implied inner) =>
        (assign? value [last] inner).map (.table .dotted)
      | some _ => none) entries
  | name :: rest, entries =>
    update? name (fun old =>
      match old with
      | none => (assign? value rest []).map (.table .dotted)
      | some (.table .dotted inner) => (assign? value rest inner).map (.table .dotted)
      | some (.table .implied inner) => (assign? value rest inner).map (.table .implied)
      | some (.tables items) =>
        (assign? value rest (items.getLast?.getD [])).map fun last =>
          .tables (items.dropLast ++ [last])
      | some _ => none) entries

def ofPairs? (pairs : List (List String × Toml)) : Option TomlEntries :=
  pairs.foldlM (fun entries pair => assign? pair.2 pair.1 entries) []

/-- Changes the table that a header path leads to. Tables on the way that are missing are implied;
of a list of tables the last one counts. -/
def within? (change : TomlEntries → Option TomlEntries) :
    List String → TomlEntries → Option TomlEntries
  | [], entries => change entries
  | name :: rest, entries =>
    update? name (fun old =>
      match old with
      | none => (within? change rest []).map (.table .implied)
      | some (.table .inline _) => none
      | some (.table origin inner) => (within? change rest inner).map (.table origin)
      | some (.tables items) =>
        (within? change rest (items.getLast?.getD [])).map fun last =>
          .tables (items.dropLast ++ [last])
      | some _ => none) entries

def openTable? (name : String) : TomlEntries → Option TomlEntries :=
  update? name fun old =>
    match old with
    | none => some (.table .header [])
    | some (.table .implied inner) => some (.table .header inner)
    | some _ => none

def openNext? (name : String) : TomlEntries → Option TomlEntries :=
  update? name fun old =>
    match old with
    | none => some (.tables [[]])
    | some (.tables items) => some (.tables (items ++ [[]]))
    | some _ => none

end TomlEntries

end Zephir
