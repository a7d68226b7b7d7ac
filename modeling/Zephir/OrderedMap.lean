/-!
Maps from names to values that remember the order in which the names first arrived. Writing a
name that is already there replaces its value and keeps its place. No name occurs twice, which is
part of the type.
-/

namespace Zephir

universe u v

/-- A map from names to values, in order of first insertion. -/
structure OrderedMap (β : Type u) where
  entries : List (String × β)
  distinct : (entries.map Prod.fst).Nodup

namespace OrderedMap

variable {β : Type u} {γ : Type v}

def put (name : String) (value : β) : List (String × β) → List (String × β)
  | [] => [(name, value)]
  | (other, old) :: rest =>
    if other = name then (name, value) :: rest else (other, old) :: put name value rest

theorem map_fst_put (name : String) (value : β) (entries : List (String × β)) :
    (put name value entries).map Prod.fst =
      if name ∈ entries.map Prod.fst then entries.map Prod.fst
      else entries.map Prod.fst ++ [name] := by
  induction entries with
  | nil => simp [put]
  | cons entry rest ih =>
    obtain ⟨other, old⟩ := entry
    by_cases same : other = name
    · simp [put, same]
    · have differs : ¬ name = other := fun h => same h.symm
      simp only [put, same, if_false, List.map_cons, ih, List.mem_cons, differs, false_or]
      split <;> simp

theorem nodup_put (name : String) (value : β) {entries : List (String × β)}
    (distinct : (entries.map Prod.fst).Nodup) :
    ((put name value entries).map Prod.fst).Nodup := by
  rw [map_fst_put]
  split
  · exact distinct
  · rename_i absent
    rw [List.nodup_append]
    refine ⟨distinct, by simp, ?_⟩
    intro a present b last
    rw [List.mem_singleton.mp last]
    exact fun equal => absent (equal ▸ present)

def empty : OrderedMap β := ⟨[], List.nodup_nil⟩

instance : Inhabited (OrderedMap β) := ⟨empty⟩

/-- Sets the value of `name`: in its place if it is there, at the end otherwise. -/
def insert (map : OrderedMap β) (name : String) (value : β) : OrderedMap β :=
  ⟨put name value map.entries, nodup_put name value map.distinct⟩

def get? (map : OrderedMap β) (name : String) : Option β :=
  map.entries.lookup name

def contains (map : OrderedMap β) (name : String) : Bool :=
  map.entries.any (·.1 == name)

def keys (map : OrderedMap β) : List String :=
  map.entries.map Prod.fst

def values (map : OrderedMap β) : List β :=
  map.entries.map Prod.snd

def isEmpty (map : OrderedMap β) : Bool :=
  map.entries.isEmpty

def insertAll (map : OrderedMap β) (entries : List (String × β)) : OrderedMap β :=
  entries.foldl (fun map entry => map.insert entry.1 entry.2) map

/-- The map of the entries; of a repeated name the first place and the last value count. -/
def ofList (entries : List (String × β)) : OrderedMap β :=
  empty.insertAll entries

def mapValues (f : β → γ) (map : OrderedMap β) : OrderedMap γ :=
  ⟨map.entries.map fun entry => (entry.1, f entry.2), by
    simpa [List.map_map, Function.comp_def] using map.distinct⟩

def valuesByName (map : OrderedMap β) : List β :=
  (map.entries.mergeSort fun a b => decide (a.1 ≤ b.1)).map Prod.snd

end OrderedMap

end Zephir
