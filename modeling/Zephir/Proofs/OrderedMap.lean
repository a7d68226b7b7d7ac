import Zephir.OrderedMap

/-!
Maps with an order. A lookup finds the entry of a name wherever it stands, since no name occurs
twice; an insertion changes the answer for its own name only, keeps the order of the names that
were there and puts a new name last. Of inserted lists the last entry of a name counts.
-/

namespace Zephir

namespace OrderedMap

variable {α β : Type} {map map' : OrderedMap α} {entries rest : List (String × α)}
  {name other : String} {value : α} {property : α → Prop}

theorem eq_of_entries (same : map.entries = map'.entries) : map = map' := by
  cases map
  cases map'
  cases same
  rfl

/-! ## Lookups -/

theorem contains_eq_true_iff : map.contains name = true ↔ name ∈ map.keys := by
  simp [contains, keys, List.any_eq_true]

theorem lookup_eq_some_iff_mem (distinct : (entries.map Prod.fst).Nodup) :
    entries.lookup name = some value ↔ (name, value) ∈ entries := by
  induction entries with
  | nil => simp
  | cons entry rest ih =>
      obtain ⟨other, first⟩ := entry
      rw [List.map_cons, List.nodup_cons] at distinct
      rw [List.lookup_cons, List.mem_cons]
      by_cases same : name = other
      · subst same
        have absent : (name, value) ∉ rest := fun among =>
          distinct.1 (List.mem_map.mpr ⟨_, among, rfl⟩)
        simp [absent, eq_comm]
      · simp [same, beq_false_of_ne same, ih distinct.2]

theorem get?_eq_some_iff : map.get? name = some value ↔ (name, value) ∈ map.entries :=
  lookup_eq_some_iff_mem map.distinct

theorem mem_values_of_get? (found : map.get? name = some value) : value ∈ map.values :=
  List.mem_map_of_mem (get?_eq_some_iff.mp found)

theorem notMem_keys_of_get? (missing : map.get? name = none) : name ∉ map.keys := by
  intro present
  obtain ⟨⟨other, value⟩, entry, rfl⟩ := List.mem_map.mp present
  simp only [get?, List.lookup_eq_none_iff] at missing
  simpa using missing _ entry

theorem get?_of_entries (follows : map'.entries = map.entries ++ (name, value) :: rest) :
    map.get? name = none := by
  rw [get?, List.lookup_eq_none_iff]
  intro entry present
  have distinct := map'.distinct
  rw [follows, List.map_append, List.nodup_append] at distinct
  have differs : entry.1 ≠ name :=
    distinct.2.2 entry.1 (List.mem_map_of_mem present) name (by simp)
  simpa using fun same => differs same.symm

/-! ## One insertion -/

theorem lookup_put (name other : String) (value : α) (entries : List (String × α)) :
    (put name value entries).lookup other =
      if other = name then some value else entries.lookup other := by
  induction entries with
  | nil =>
      by_cases same : other = name
      · simp [put, same]
      · simp [put, List.lookup_cons, same, beq_false_of_ne same]
  | cons entry rest ih =>
      obtain ⟨first, old⟩ := entry
      by_cases found : first = name
      · subst found
        by_cases same : other = first
        · simp [put, same]
        · simp [put, List.lookup_cons, same, beq_false_of_ne same]
      · by_cases same : other = first
        · subst same
          simp [put, found]
        · simp [put, found, List.lookup_cons, beq_false_of_ne same, ih]

theorem get?_insert_self (map : OrderedMap α) (name : String) (value : α) :
    (map.insert name value).get? name = some value := by
  simp [get?, insert, lookup_put]

theorem get?_insert_of_ne (map : OrderedMap α) (value : α) (differs : other ≠ name) :
    (map.insert name value).get? other = map.get? other := by
  simp [get?, insert, lookup_put, differs]

theorem keys_insert (map : OrderedMap α) (name : String) (value : α) :
    (map.insert name value).keys =
      if name ∈ map.keys then map.keys else map.keys ++ [name] :=
  map_fst_put name value map.entries

theorem keys_prefix_insert (map : OrderedMap α) (name : String) (value : α) :
    map.keys <+: (map.insert name value).keys := by
  rw [keys_insert]
  split
  · exact List.prefix_refl _
  · exact List.prefix_append _ _

theorem mem_keys_insert_iff :
    other ∈ (map.insert name value).keys ↔ other = name ∨ other ∈ map.keys := by
  rw [keys_insert]
  split
  · rename_i present
    exact ⟨.inr, fun among => among.elim (fun same => same ▸ present) id⟩
  · rw [List.mem_append, List.mem_singleton, or_comm]

theorem mem_keys_insert (map : OrderedMap α) (name : String) (value : α) :
    name ∈ (map.insert name value).keys :=
  mem_keys_insert_iff.mpr (.inl rfl)

theorem put_of_notMem (absent : name ∉ entries.map Prod.fst) :
    put name value entries = entries ++ [(name, value)] := by
  induction entries with
  | nil => rfl
  | cons entry rest ih =>
      obtain ⟨other, old⟩ := entry
      rw [List.map_cons, List.mem_cons, not_or] at absent
      rw [put, if_neg (Ne.symm absent.1), ih absent.2, List.cons_append]

theorem entries_insert_of_notMem (absent : name ∉ map.keys) :
    (map.insert name value).entries = map.entries ++ [(name, value)] :=
  put_of_notMem absent

@[simp] theorem keys_insert_of_notMem (absent : name ∉ map.keys) :
    (map.insert name value).keys = map.keys ++ [name] := by
  simp [keys, entries_insert_of_notMem absent]

@[simp] theorem values_insert_of_notMem (absent : name ∉ map.keys) :
    (map.insert name value).values = map.values ++ [value] := by
  simp [values, entries_insert_of_notMem absent]

/-! ## A list of insertions -/

/-- Of the entries of a name the last inserted one counts, and all of them come before the map's. -/
theorem get?_insertAll_last (map : OrderedMap α) (entries : List (String × α)) (name : String) :
    (map.insertAll entries).get? name = (entries.reverse.lookup name).or (map.get? name) := by
  induction entries generalizing map with
  | nil => rfl
  | cons entry rest ih =>
      obtain ⟨other, first⟩ := entry
      rw [insertAll, List.foldl_cons, ← insertAll, ih, List.reverse_cons, List.lookup_append,
        Option.or_assoc]
      congr 1
      by_cases same : name = other
      · subst same
        simp [get?_insert_self]
      · rw [get?_insert_of_ne map first same]
        simp [List.lookup_cons, beq_false_of_ne same]

theorem lookup_reverse (distinct : (entries.map Prod.fst).Nodup) :
    entries.reverse.lookup name = entries.lookup name := by
  have turned : (entries.reverse.map Prod.fst).Nodup := by
    rw [List.map_reverse]
    exact List.pairwise_reverse.mpr (distinct.imp Ne.symm)
  ext value
  rw [lookup_eq_some_iff_mem turned, lookup_eq_some_iff_mem distinct, List.mem_reverse]

theorem get?_insertAll (distinct : (entries.map Prod.fst).Nodup) :
    (map.insertAll entries).get? name = (entries.lookup name).or (map.get? name) := by
  rw [get?_insertAll_last, lookup_reverse distinct]

theorem get?_ofList (distinct : (entries.map Prod.fst).Nodup) :
    (ofList entries).get? name = entries.lookup name := by
  rw [ofList, get?_insertAll distinct]
  simp [empty, get?]

theorem insertAll_entries (entries : List (String × α)) (map : OrderedMap α)
    (distinct : ((map.entries ++ entries).map Prod.fst).Nodup) :
    (map.insertAll entries).entries = map.entries ++ entries := by
  induction entries generalizing map with
  | nil => simp [insertAll]
  | cons entry rest ih =>
      -- The name of the entry is new, so it goes to the end.
      have new : entry.1 ∉ map.keys := by
        intro old
        simp only [List.map_append, List.map_cons, List.nodup_append] at distinct
        exact distinct.2.2 _ old _ List.mem_cons_self rfl
      have grown : (map.insert entry.1 entry.2).entries = map.entries ++ [entry] :=
        entries_insert_of_notMem new
      have step := ih (map.insert entry.1 entry.2) (by simpa [grown] using distinct)
      simpa [insertAll, grown] using step

theorem ofList_entries (map : OrderedMap α) : ofList map.entries = map :=
  eq_of_entries (insertAll_entries map.entries .empty map.distinct)

/-! ## What holds of all values -/

theorem values_mapValues (map : OrderedMap α) (f : α → β) :
    (map.mapValues f).values = map.values.map f := by
  simp [mapValues, values]

theorem forall_values_empty : ∀ value ∈ (empty : OrderedMap α).values, property value := by
  simp [empty, values]

theorem forall_map_snd_put (all : ∀ held ∈ entries.map Prod.snd, property held)
    (new : property value) : ∀ held ∈ (put name value entries).map Prod.snd, property held := by
  induction entries with
  | nil => simpa [put] using new
  | cons entry rest ih =>
      obtain ⟨other, old⟩ := entry
      rw [List.map_cons, List.forall_mem_cons] at all
      rw [put]
      split
      · rw [List.map_cons, List.forall_mem_cons]
        exact ⟨new, all.2⟩
      · rw [List.map_cons, List.forall_mem_cons]
        exact ⟨all.1, ih all.2⟩

theorem forall_values_insert (all : ∀ held ∈ map.values, property held) (new : property value) :
    ∀ held ∈ (map.insert name value).values, property held :=
  forall_map_snd_put all new

theorem forall_values_insertAll (all : ∀ held ∈ map.values, property held)
    (new : ∀ entry ∈ entries, property entry.2) :
    ∀ held ∈ (map.insertAll entries).values, property held := by
  induction entries generalizing map with
  | nil => exact all
  | cons entry rest ih =>
      rw [List.forall_mem_cons] at new
      exact ih (forall_values_insert all new.1) new.2

end OrderedMap

end Zephir
