import Zephir.Proofs.Compile.Refinement

/-!
Shortcuts of a property become methods of its class. This succeeds exactly if the shortcuts are
known and differ, and the names that are derived from them differ from each other and from those of
the methods that are there. No method is ever replaced, whatever properties are expanded one after
the other and whether or not some of them fail.
-/

namespace Zephir

/-! ## What a shortcut stands for -/

def Method.Returns (m : Method) (p : Property) : Prop :=
  m.parameters = [] ∧
    m.body = [{
      kind := .ret (some (.plain (.access .property (.var "this" m.pos) (.var p.name m.pos)) m.pos))
      pos := m.pos }]

def Method.Assigns (m : Method) (p : Property) : Prop :=
  ∃ parameter, m.parameters = [parameter] ∧
    m.body = [{
      kind := .lets [{
        assign := {
          target := .objectProperty
          operator := some .assign
          base := "this"
          property := some p.name
          index := []
          value := some (.var parameter.name m.pos) }
        pos := m.pos }]
      pos := m.pos }]

/-- The method is the one that a shortcut of a property stands for. -/
structure IsAccessor (p : Property) (shortcut : Shortcut) (m : Method) : Prop where
  visibility : m.visibility = ["public"]
  records : m.shortcut = some p.name
  pos : m.pos = shortcut.pos
  form :
    (shortcut.name = "get" ∧ m.name = "get" ++ upperCamel p.name ∧ m.Returns p) ∨
    (shortcut.name = "set" ∧ m.name = "set" ++ upperCamel p.name ∧ m.Assigns p) ∨
    ((shortcut.name = "toString" ∨ shortcut.name = "__toString") ∧ m.name = "__toString" ∧
      m.Returns p)

def KnownShortcut (name : String) : Prop :=
  name ∈ ["get", "set", "toString", "__toString"]

theorem ofShortcut?_eq_some {name : String} {accessor : Accessor} :
    Accessor.ofShortcut? name = some accessor ↔
      (name = "get" ∧ accessor = .get) ∨ (name = "set" ∧ accessor = .set) ∨
        ((name = "toString" ∨ name = "__toString") ∧ accessor = .toText) := by
  unfold Accessor.ofShortcut?
  split
  · simp [eq_comm]
  · simp [eq_comm]
  · simp [eq_comm]
  · simp [eq_comm]
  · rename_i notGet notSet notText notMagic
    constructor
    · intro unknown
      contradiction
    · rintro (⟨rfl, -⟩ | ⟨rfl, -⟩ | ⟨rfl | rfl, -⟩)
      · exact (notGet rfl).elim
      · exact (notSet rfl).elim
      · exact (notText rfl).elim
      · exact (notMagic rfl).elim

theorem knownShortcut_iff {name : String} :
    KnownShortcut name ↔ ∃ accessor, Accessor.ofShortcut? name = some accessor := by
  simp only [ofShortcut?_eq_some, KnownShortcut, List.mem_cons, List.not_mem_nil, or_false]
  constructor
  · rintro (rfl | rfl | rfl | rfl) <;> simp
  · rintro ⟨accessor, ⟨rfl, -⟩ | ⟨rfl, -⟩ | ⟨rfl | rfl, -⟩⟩ <;> simp

theorem isAccessor_method {p : Property} {shortcut : Shortcut} {accessor : Accessor}
    (known : Accessor.ofShortcut? shortcut.name = some accessor) :
    IsAccessor p shortcut (accessor.method p.name shortcut.pos) := by
  obtain ⟨named, rfl⟩ | ⟨named, rfl⟩ | ⟨named, rfl⟩ := ofShortcut?_eq_some.mp known
  · exact ⟨rfl, rfl, rfl, .inl ⟨named, rfl, rfl, rfl⟩⟩
  · exact ⟨rfl, rfl, rfl, .inr (.inl ⟨named, rfl, _, rfl, rfl⟩)⟩
  · exact ⟨rfl, rfl, rfl, .inr (.inr ⟨named, rfl, rfl, rfl⟩)⟩

/-! ## When accessors are made -/

def MadeFrom (property : String) (shortcut : Shortcut) (out : Method × Shortcut) : Prop :=
  ∃ accessor, Accessor.ofShortcut? shortcut.name = some accessor ∧
    out = (accessor.method property shortcut.pos, shortcut)

/-- Accessors are made exactly if the shortcuts are known, differ, and have not been seen. -/
theorem accessors_eq_ok_iff {property : String} {shortcuts : List Shortcut} {seen : List String}
    {made : List (Method × Shortcut)} :
    accessors property seen shortcuts = .ok made ↔
      (shortcuts.map (·.name)).Nodup ∧ (∀ shortcut ∈ shortcuts, shortcut.name ∉ seen) ∧
        List.Forall₂ (MadeFrom property) shortcuts made := by
  induction shortcuts generalizing seen made with
  | nil =>
      rw [accessors, List.forall₂_nil_left_iff]
      simp [eq_comm]
  | cons shortcut rest ih =>
      rw [accessors, List.map_cons, List.nodup_cons, List.forall_mem_cons,
        List.forall₂_cons_left_iff]
      constructor
      · intro ran
        split at ran
        · contradiction
        · rename_i fresh
          split at ran
          · contradiction
          · rename_i accessor known
            obtain ⟨others, ranRest, built⟩ := except_bind_ok ran
            cases built
            obtain ⟨distinct, unseen, all⟩ := ih.mp ranRest
            have differ : ∀ other ∈ rest, other.name ∉ seen ∧ other.name ≠ shortcut.name := by
              simpa [not_or] using unseen
            have unseen : ∀ other ∈ rest, other.name ∉ seen :=
              fun other among => (differ other among).1
            refine ⟨⟨?_, distinct⟩, ⟨by simpa using fresh, unseen⟩,
              _, others, ⟨accessor, known, rfl⟩, all, rfl⟩
            intro repeated
            obtain ⟨other, among, same⟩ := List.mem_map.mp repeated
            exact (differ other among).2 same
      · rintro ⟨⟨absent, distinct⟩, ⟨fresh, unseen⟩, out, others, ⟨accessor, known, rfl⟩, all, rfl⟩
        have unseenRest : ∀ other ∈ rest, other.name ∉ seen ++ [shortcut.name] := by
          intro other among
          rw [List.mem_append, List.mem_singleton, not_or]
          exact ⟨unseen other among, fun same => absent (List.mem_map.mpr ⟨other, among, same⟩)⟩
        have ranRest := ih.mpr ⟨distinct, unseenRest, all⟩
        have notSeen : seen.contains shortcut.name = false := by simpa using fresh
        simp only [notSeen, known, ranRest]
        rfl

theorem exists_madeFrom_iff {property : String} {shortcuts : List Shortcut} :
    (∃ made, List.Forall₂ (MadeFrom property) shortcuts made) ↔
      ∀ shortcut ∈ shortcuts, KnownShortcut shortcut.name := by
  induction shortcuts with
  | nil => simp
  | cons shortcut rest ih =>
      rw [List.forall_mem_cons, ← ih, knownShortcut_iff]
      constructor
      · rintro ⟨made, all⟩
        obtain ⟨out, others, ⟨accessor, known, -⟩, all, -⟩ := List.forall₂_cons_left_iff.mp all
        exact ⟨⟨accessor, known⟩, others, all⟩
      · rintro ⟨⟨accessor, known⟩, others, all⟩
        exact ⟨_, .cons ⟨accessor, known, rfl⟩ all⟩

def Method.entry (m : Method) : String × Method :=
  (m.name, m)

theorem Members.exists_gains_iff {owner : Members} {added : List Method} :
    (∃ grown, owner.Gains (added.map Method.entry) grown) ↔
      (added.map (·.name)).Nodup ∧ ∀ m ∈ added, m.name ∉ owner.methods.keys := by
  have names : (added.map Method.entry).map Prod.fst = added.map (·.name) := by
    rw [List.map_map]
    rfl
  constructor
  · rintro ⟨grown, gains⟩
    have distinct := grown.methods.distinct
    rw [gains.methods, List.map_append, List.nodup_append, names] at distinct
    exact ⟨distinct.2.1, fun m among old => distinct.2.2 _ old _ (List.mem_map_of_mem among) rfl⟩
  · rintro ⟨differ, apart⟩
    have distinct : ((owner.methods.entries ++ added.map Method.entry).map Prod.fst).Nodup := by
      rw [List.map_append, List.nodup_append, names]
      refine ⟨owner.methods.distinct, differ, ?_⟩
      rintro name old _ among rfl
      obtain ⟨m, inAdded, rfl⟩ := List.mem_map.mp among
      exact apart m inAdded old
    exact ⟨{ owner with methods := ⟨_, distinct⟩ }, rfl, rfl, rfl, rfl⟩

/-! ## Expansion in place -/

/-- Adding accessors to methods that are still there after a failure. -/
def addInPlace (property : String) (methods : OrderedMap Method) :
    List (Method × Shortcut) → Except Diagnostic Unit × OrderedMap Method
  | [] => (.ok (), methods)
  | (method, shortcut) :: rest =>
    match methods.get? method.name with
    | some existing =>
      (.error (((Cause.methodCollision method.name property existing.shortcut).at
        shortcut.pos).withContext existing.pos "existing method"), methods)
    | none => addInPlace property (methods.insert method.name method) rest

/-- Expansion with an owner that is still there after a failure. Nothing is added before all
accessors are made, so only a name that is taken leaves some of them. -/
def expandInPlace (owner : Members) (p : Property) : Except Diagnostic Property × Members :=
  match accessors p.name [] p.shortcuts with
  | .error d => (.error d, owner)
  | .ok accessors =>
    let (result, methods) := addInPlace p.name owner.methods accessors
    (result.map fun _ => { p with shortcuts := [] }, { owner with methods })

/-- The owner after the properties are expanded in place one after the other, failed ones too. -/
def expandAll (owner : Members) (properties : List Property) : Members :=
  properties.foldl (fun owner p => (expandInPlace owner p).2) owner

theorem addAccessors_eq_addInPlace (property : String) (methods : OrderedMap Method)
    (added : List (Method × Shortcut)) :
    addAccessors property methods added =
      (addInPlace property methods added).1.map fun _ => (addInPlace property methods added).2 := by
  induction added generalizing methods with
  | nil => rfl
  | cons accessor rest ih =>
      rw [addAccessors, addInPlace]
      cases methods.get? accessor.1.name with
      | some existing => rfl
      | none => exact ih _

theorem expandShortcuts_eq_expandInPlace (owner : Members) (p : Property) :
    expandShortcuts owner p =
      (expandInPlace owner p).1.map fun made => (made, (expandInPlace owner p).2) := by
  rw [expandShortcuts, expandInPlace]
  cases accessors p.name [] p.shortcuts with
  | error d => rfl
  | ok made =>
      simp only [bind, Except.bind, addAccessors_eq_addInPlace]
      cases (addInPlace p.name owner.methods made).1 <;> rfl

/-- Whatever comes of it, some of the accessors are behind the old methods. -/
theorem addInPlace_entries (property : String) (methods : OrderedMap Method)
    (added : List (Method × Shortcut)) :
    ∃ front, front <+: added ∧
      (addInPlace property methods added).2.entries =
        methods.entries ++ front.map accessorEntry := by
  induction added generalizing methods with
  | nil => exact ⟨[], List.prefix_rfl, by simp [addInPlace]⟩
  | cons accessor rest ih =>
      rw [addInPlace]
      split
      · exact ⟨[], List.nil_prefix, by simp⟩
      · rename_i missing
        obtain ⟨front, isFront, entries⟩ := ih (methods.insert accessor.1.name accessor.1)
        have absent := OrderedMap.notMem_keys_of_get? missing
        refine ⟨accessor :: front, List.cons_prefix_cons.mpr ⟨rfl, isFront⟩, ?_⟩
        rw [entries, OrderedMap.entries_insert_of_notMem absent, List.append_assoc, List.map_cons,
          List.singleton_append, accessorEntry]

theorem isAccessor_of_madeFrom {p : Property} {shortcuts : List Shortcut}
    {made : List (Method × Shortcut)} (all : List.Forall₂ (MadeFrom p.name) shortcuts made) :
    List.Forall₂ (IsAccessor p) shortcuts (made.map Prod.fst) := by
  rw [List.forall₂_map_right_iff]
  refine all.imp ?_
  rintro shortcut _ ⟨accessor, known, rfl⟩
  exact isAccessor_method known

theorem exists_of_mem_right {α β : Type} {related : α → β → Prop} {first : List α} {second : List β}
    (all : List.Forall₂ related first second) : ∀ b ∈ second, ∃ a ∈ first, related a b := by
  induction all with
  | nil => simp
  | cons head _ ih =>
      rw [List.forall_mem_cons]
      refine ⟨⟨_, List.mem_cons_self, head⟩, fun b among => ?_⟩
      obtain ⟨a, inFirst, holds⟩ := ih b among
      exact ⟨a, List.mem_cons_of_mem _ inFirst, holds⟩

theorem expandInPlace_gains (owner : Members) (p : Property) :
    ∃ added : List Method, owner.Gains (added.map Method.entry) (expandInPlace owner p).2 ∧
      ∀ m ∈ added, ∃ shortcut ∈ p.shortcuts, IsAccessor p shortcut m := by
  rw [expandInPlace]
  cases made : accessors p.name [] p.shortcuts with
  | error d => exact ⟨[], Members.gains_nil_iff.mpr rfl, by simp⟩
  | ok accessors =>
      obtain ⟨front, isFront, entries⟩ := addInPlace_entries p.name owner.methods accessors
      obtain ⟨-, -, all⟩ := accessors_eq_ok_iff.mp made
      refine ⟨front.map Prod.fst, ⟨rfl, rfl, rfl, ?_⟩, ?_⟩
      · rw [List.map_map]
        exact entries
      · intro m among
        have isMade : m ∈ accessors.map Prod.fst := List.map_subset _ isFront.subset among
        exact exists_of_mem_right (isAccessor_of_madeFrom all) m isMade

theorem expandAll_gains (owner : Members) (properties : List Property) :
    ∃ added : List Method, owner.Gains (added.map Method.entry) (expandAll owner properties) ∧
      ∀ m ∈ added, ∃ p ∈ properties, ∃ shortcut ∈ p.shortcuts, IsAccessor p shortcut m := by
  induction properties generalizing owner with
  | nil => exact ⟨[], Members.gains_nil_iff.mpr rfl, by simp⟩
  | cons p rest ih =>
      obtain ⟨first, gains, fromFirst⟩ := expandInPlace_gains owner p
      obtain ⟨others, gainsRest, fromRest⟩ := ih (expandInPlace owner p).2
      refine ⟨first ++ others, ?_, ?_⟩
      · rw [List.map_append]
        exact Members.gains_append_iff.mpr ⟨_, gains, gainsRest⟩
      · intro m among
        obtain inFirst | inRest := List.mem_append.mp among
        · exact ⟨p, List.mem_cons_self, fromFirst m inFirst⟩
        · obtain ⟨other, isOther, made⟩ := fromRest m inRest
          exact ⟨other, List.mem_cons_of_mem p isOther, made⟩

theorem entries_of_accessors {p : Property} {made : List (Method × Shortcut)}
    (ran : accessors p.name [] p.shortcuts = .ok made) :
    made.map accessorEntry = p.accessorMethods.map Method.entry := by
  rw [Property.accessorMethods, ← (accessors_eq_ok ran).2, List.map_map]
  rfl

theorem expandShortcuts_isOk_iff (owner : Members) (p : Property) :
    (∃ made grown, expandShortcuts owner p = .ok (made, grown)) ↔
      (p.shortcuts.map (·.name)).Nodup ∧ (∀ shortcut ∈ p.shortcuts, KnownShortcut shortcut.name) ∧
      (p.accessorMethods.map (·.name)).Nodup ∧
        ∀ m ∈ p.accessorMethods, m.name ∉ owner.methods.keys := by
  simp only [expandShortcuts_eq_ok_iff]
  constructor
  · rintro ⟨made, grown, -, added, ran, gains⟩
    obtain ⟨distinct, -, all⟩ := accessors_eq_ok_iff.mp ran
    rw [entries_of_accessors ran] at gains
    exact ⟨distinct, exists_madeFrom_iff.mp ⟨added, all⟩,
      Members.exists_gains_iff.mp ⟨grown, gains⟩⟩
  · rintro ⟨distinct, known, apart⟩
    obtain ⟨added, all⟩ := exists_madeFrom_iff.mpr known
    have ran : accessors p.name [] p.shortcuts = .ok added :=
      accessors_eq_ok_iff.mpr ⟨distinct, by simp, all⟩
    obtain ⟨grown, gains⟩ := Members.exists_gains_iff.mpr apart
    rw [← entries_of_accessors ran] at gains
    exact ⟨_, grown, rfl, added, ran, gains⟩

/-- Expansion of a property's shortcuts succeeds exactly if they are known and differ, and the names
of the accessors differ from each other and from those of the owner's methods. Then the property
only loses its shortcuts, and the owner only gains the accessors, in the order of the shortcuts.
With a repeated or unknown shortcut the owner stays as it was. However many properties are expanded
in the same owner, and even if some of them fail, the methods that were there stay in front, and the
names of all accessors differ from theirs and from each other. -/
theorem expandShortcuts_exact (owner : Members) (p : Property) :
    ((∃ made grown, expandShortcuts owner p = .ok (made, grown)) ↔
      (p.shortcuts.map (·.name)).Nodup ∧ (∀ shortcut ∈ p.shortcuts, KnownShortcut shortcut.name) ∧
      (p.accessorMethods.map (·.name)).Nodup ∧
        ∀ m ∈ p.accessorMethods, m.name ∉ owner.methods.keys) ∧
    (∀ made grown, expandShortcuts owner p = .ok (made, grown) →
      made = { p with shortcuts := [] } ∧
        List.Forall₂ (IsAccessor p) p.shortcuts p.accessorMethods ∧
        owner.Gains (p.accessorMethods.map Method.entry) grown) ∧
    (expandShortcuts owner p =
      (expandInPlace owner p).1.map fun made => (made, (expandInPlace owner p).2)) ∧
    (¬(p.shortcuts.map (·.name)).Nodup ∨ (∃ shortcut ∈ p.shortcuts, ¬KnownShortcut shortcut.name) →
      ∃ d, expandInPlace owner p = (.error d, owner)) ∧
    ∀ properties : List Property, ∃ added : List Method,
      owner.Gains (added.map Method.entry) (expandAll owner properties) ∧
      (added.map (·.name)).Nodup ∧ (∀ m ∈ added, m.name ∉ owner.methods.keys) ∧
      ∀ m ∈ added, ∃ other ∈ properties, ∃ shortcut ∈ other.shortcuts,
        IsAccessor other shortcut m := by
  refine ⟨expandShortcuts_isOk_iff owner p, ?_, expandShortcuts_eq_expandInPlace owner p, ?_, ?_⟩
  · intro made grown ran
    obtain ⟨rfl, added, ranAccessors, gains⟩ := expandShortcuts_eq_ok_iff.mp ran
    obtain ⟨-, -, all⟩ := accessors_eq_ok_iff.mp ranAccessors
    have listed : added.map Prod.fst = p.accessorMethods := (accessors_eq_ok ranAccessors).2
    rw [entries_of_accessors ranAccessors] at gains
    rw [← listed] at gains ⊢
    exact ⟨rfl, isAccessor_of_madeFrom all, gains⟩
  · intro wrong
    rw [expandInPlace]
    cases made : accessors p.name [] p.shortcuts with
    | error d => exact ⟨d, rfl⟩
    | ok added =>
        obtain ⟨distinct, -, all⟩ := accessors_eq_ok_iff.mp made
        obtain repeated | ⟨shortcut, among, unknown⟩ := wrong
        · exact absurd distinct repeated
        · exact absurd (exists_madeFrom_iff.mp ⟨added, all⟩ shortcut among) unknown
  · intro properties
    obtain ⟨added, gains, made⟩ := expandAll_gains owner properties
    obtain ⟨differ, apart⟩ := Members.exists_gains_iff.mp ⟨_, gains⟩
    exact ⟨added, gains, differ, apart, made⟩

end Zephir
