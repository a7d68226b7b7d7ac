import Mathlib.Data.List.Induction
import Zephir.Proofs.Phase.Visits
import Zephir.Proofs.Syntax.Blocks

/-!
What compaction makes of members and bodies. Members go into maps by name unless a name repeats, and
the first repetition is what compaction fails for. In a body, C blocks go and each `declare` gives way
to its initial values, in all blocks at every depth; what is declared anywhere in the body ends up
among its locals, the later declaration of a name replacing the earlier one.
-/

namespace Zephir

/-! ## Repeated names -/

section Repeated

variable {α : Type} {group : MemberSection} {name : α → String} {pos : α → Position}
  {added : List α} {map : OrderedMap α} {d : Diagnostic}

/-- A list of members in which a name repeats, and the error that is placed at the first member
whose name an earlier one has, and then at that one. -/
inductive NameRepeats (group : MemberSection) (name : α → String) (pos : α → Position) :
    List α → Diagnostic → Prop
  | mk {before after : List α} {again first : α} (distinct : (before.map name).Nodup)
      (among : first ∈ before) (same : name first = name again) :
      NameRepeats group name pos (before ++ again :: after)
        (((Cause.duplicateDefinition group (name again)).at (pos again)).withContext (pos first)
          "first defined here")

theorem addMembers_append (before after : List α) :
    addMembers group name pos map (before ++ after) =
      addMembers group name pos map before >>= fun grown =>
        addMembers group name pos grown after := by
  induction before generalizing map with
  | nil => rfl
  | cons member rest ih =>
      rw [List.cons_append, addMembers, addMembers]
      split
      · rfl
      · exact ih

theorem nodup_of_addMembers (ran : addMembers group name pos .empty added = .ok map) :
    (added.map name).Nodup := by
  have listed : map.entries = added.map fun member => (name member, member) :=
    addMembers_eq_ok_iff.mp ran
  have distinct := map.distinct
  rwa [listed, List.map_map] at distinct

theorem addMembers_of_nodup (group : MemberSection) (pos : α → Position)
    (distinct : (added.map name).Nodup) :
    ∃ made, addMembers group name pos .empty added = .ok made := by
  have keys : ((added.map fun member => (name member, member)).map Prod.fst).Nodup := by
    rwa [List.map_map]
  exact ⟨⟨_, keys⟩, addMembers_eq_ok_iff.mpr rfl⟩

theorem NameRepeats.addMembers_eq (repeated : NameRepeats group name pos added d) :
    addMembers group name pos .empty added = .error d := by
  cases repeated with
  | @mk before after again first distinct among same =>
      obtain ⟨made, ran⟩ := addMembers_of_nodup group pos distinct
      have listed : made.entries = before.map fun member => (name member, member) :=
        addMembers_eq_ok_iff.mp ran
      have found : made.get? (name again) = some first := by
        rw [OrderedMap.get?_eq_some_iff, listed, ← same]
        exact List.mem_map_of_mem among
      rw [addMembers_append, ran]
      change addMembers group name pos made (again :: after) = _
      rw [addMembers, found]
      rfl

theorem nodup_or_nameRepeats (group : MemberSection) (name : α → String) (pos : α → Position)
    (added : List α) :
    (added.map name).Nodup ∨ ∃ d, NameRepeats group name pos added d := by
  induction added using List.reverseRecOn with
  | nil => exact .inl List.nodup_nil
  | append_singleton before again ih =>
      rcases ih with distinct | ⟨d, repeated⟩
      · by_cases among : name again ∈ before.map name
        · obtain ⟨first, listed, same⟩ := List.mem_map.mp among
          exact .inr ⟨_, .mk distinct listed same⟩
        · refine .inl ?_
          rw [List.map_append, List.map_singleton]
          exact (List.nodup_append.mpr ⟨distinct, by simp, by simpa using among⟩)
      · cases repeated with
        | @mk front after again' first distinct among same =>
            rw [List.append_assoc, List.cons_append]
            exact .inr ⟨_, .mk distinct among same⟩

theorem addMembers_eq_error_iff :
    addMembers group name pos .empty added = .error d ↔ NameRepeats group name pos added d := by
  refine ⟨fun ran => ?_, NameRepeats.addMembers_eq⟩
  rcases nodup_or_nameRepeats group name pos added with distinct | ⟨other, repeated⟩
  · obtain ⟨made, succeeds⟩ := addMembers_of_nodup group pos distinct
    rw [succeeds] at ran
    contradiction
  · have failed := repeated.addMembers_eq
    rw [failed, Except.error.injEq] at ran
    exact ran ▸ repeated

end Repeated

structure Definition.Distinct (raw : Definition) : Prop where
  constants : (raw.constants.map Constant.name).Nodup
  properties : (raw.properties.map Property.name).Nodup
  methods : (raw.methods.map Method.name).Nodup

/-- The error for the first name that repeats: constants come before properties, and these before
methods. -/
inductive Definition.FirstRepeat (raw : Definition) (d : Diagnostic) : Prop
  | constant (repeated : NameRepeats .constant Constant.name Constant.pos raw.constants d)
  | property (constants : (raw.constants.map Constant.name).Nodup)
      (repeated : NameRepeats .property Property.name Property.pos raw.properties d)
  | method (constants : (raw.constants.map Constant.name).Nodup)
      (properties : (raw.properties.map Property.name).Nodup)
      (repeated : NameRepeats .method Method.name Method.pos raw.methods d)

/-! ## Bodies -/

def GivesInitial (v : DeclaredVariable) (s : Statement) : Prop :=
  ∃ value, v.value = some value ∧
    s = { kind := .lets [{ assign := .set v.name value, pos := v.pos }], pos := v.pos }

/-- A block, and what is left of it. -/
inductive Compacted : List Statement → List Statement → Prop
  | nil : Compacted [] []
  | cblock {text : String} {pos : Position} {docblocks : List Docblock} {rest out : List Statement}
      (others : Compacted rest out) : Compacted (⟨.cblock text, pos, docblocks⟩ :: rest) out
  | declare {dataType : String} {declared : List DeclaredVariable} {pos : Position}
      {docblocks : List Docblock} {rest out lets : List Statement}
      (initial : List.Forall₂ GivesInitial (declared.filter (·.value.isSome)) lets)
      (others : Compacted rest out) :
      Compacted (⟨.declare dataType declared, pos, docblocks⟩ :: rest) (lets ++ out)
  | keep {s : Statement} {kind : StatementKind} {rest out : List Statement}
      (noCblock : ∀ text, s.kind ≠ .cblock text)
      (noDeclare : ∀ dataType declared, s.kind ≠ .declare dataType declared)
      (alike : kind.skeleton = s.kind.skeleton)
      (inner : List.Forall₂ Compacted s.kind.blocks kind.blocks) (others : Compacted rest out) :
      Compacted (s :: rest) ({ s with kind } :: out)

theorem compactElseIfs_eq (elseIfs : List ElseIf) :
    compactElseIfs elseIfs =
      elseIfs.map fun clause => { clause with body := compactBlock clause.body } := by
  induction elseIfs with
  | nil => rfl
  | cons clause rest ih =>
      obtain ⟨condition, body, pos⟩ := clause
      rw [compactElseIfs, ih, List.map_cons]

theorem compactClauses_eq (clauses : List SwitchClause) :
    compactClauses clauses =
      clauses.map fun clause => { clause with body := compactBlock clause.body } := by
  induction clauses with
  | nil => rfl
  | cons clause rest ih =>
      obtain ⟨test, body⟩ := clause
      rw [compactClauses, ih, List.map_cons]

theorem compactCatches_eq (catches : List Catch) :
    compactCatches catches =
      catches.map fun clause => { clause with body := compactBlock clause.body } := by
  induction catches with
  | nil => rfl
  | cons clause rest ih =>
      obtain ⟨classes, binding, body, pos⟩ := clause
      rw [compactCatches, ih, List.map_cons]

theorem compactKind_eq (kind : StatementKind) : compactKind kind = kind.mapBlocks compactBlock := by
  cases kind with
  | branch condition body elseIfs otherwise =>
      cases otherwise <;> rw [compactKind, compactElseIfs_eq] <;> rfl
  | switch subject clauses => rw [compactKind, compactClauses_eq, StatementKind.mapBlocks]
  | tryCatch body catches => rw [compactKind, compactCatches_eq, StatementKind.mapBlocks]
  | whileLoop | loop | forLoop => rw [compactKind, StatementKind.mapBlocks]
  | _ => rfl

variable {s : Statement} {body rest out lets : List Statement} {declared : List DeclaredVariable}

theorem compactBlock_keep (noCblock : ∀ text, s.kind ≠ .cblock text)
    (noDeclare : ∀ dataType declared, s.kind ≠ .declare dataType declared) :
    compactBlock (s :: rest) =
      ⟨s.kind.mapBlocks compactBlock, s.pos, s.docblocks⟩ :: compactBlock rest := by
  obtain ⟨kind, pos, docblocks⟩ := s
  rw [compactBlock, compactKind_eq]
  · exact noCblock
  · exact noDeclare

theorem givesInitial_iff :
    List.Forall₂ GivesInitial (declared.filter (·.value.isSome)) lets ↔
      lets = initialLets declared := by
  induction declared generalizing lets with
  | nil => simp [initialLets]
  | cons v rest ih =>
      obtain ⟨name, value, pos⟩ := v
      cases value with
      | none => simpa [initialLets, DeclaredVariable.initialAssignment?] using ih
      | some value =>
          have listed : initialLets (⟨name, some value, pos⟩ :: rest) =
              { kind := .lets [{ assign := .set name value, pos }], pos } :: initialLets rest :=
            rfl
          rw [List.filter_cons_of_pos rfl, List.forall₂_cons_left_iff, listed]
          constructor
          · rintro ⟨first, others, ⟨_, ⟨rfl⟩, rfl⟩, initial, rfl⟩
            rw [ih.mp initial]
          · rintro rfl
            exact ⟨_, _, ⟨value, rfl, rfl⟩, ih.mpr rfl, rfl⟩

theorem compacted_keep_iff (noCblock : ∀ text, s.kind ≠ .cblock text)
    (noDeclare : ∀ dataType declared, s.kind ≠ .declare dataType declared)
    (inside : ∀ block ∈ s.kind.blocks, ∀ out, Compacted block out ↔ out = compactBlock block)
    (later : ∀ out, Compacted rest out ↔ out = compactBlock rest) :
    Compacted (s :: rest) out ↔ out = compactBlock (s :: rest) := by
  rw [compactBlock_keep noCblock noDeclare]
  constructor
  · intro compacted
    cases compacted with
    | cblock => exact absurd rfl (noCblock _)
    | declare => exact absurd rfl (noDeclare _ _)
    | @keep _ kind _ others _ _ alike inner compactedRest =>
        have blocks : kind.blocks = s.kind.blocks.map compactBlock :=
          eq_map_of_forall₂ inner fun block among made => (inside block among made).mp
        have sameKind : kind = s.kind.mapBlocks compactBlock :=
          StatementKind.eq_of_skeleton_of_blocks (by simpa using alike) (by simpa using blocks)
        rw [sameKind, (later others).mp compactedRest]
  · rintro rfl
    refine .keep noCblock noDeclare StatementKind.skeleton_mapBlocks ?_ ((later _).mpr rfl)
    rw [StatementKind.blocks_mapBlocks, List.forall₂_map_right_iff, List.forall₂_same]
    exact fun block among => (inside block among _).mpr rfl

theorem compacted_iff : Compacted body out ↔ out = compactBlock body := by
  induction body using block_induction generalizing out with
  | nil =>
      rw [compactBlock]
      constructor
      · rintro ⟨⟩
        rfl
      · rintro rfl
        exact .nil
  | cons s rest inside ih =>
      obtain ⟨kind, pos, docblocks⟩ := s
      cases kind with
      | cblock text =>
          rw [compactBlock]
          constructor
          · intro compacted
            cases compacted with
            | cblock others => exact ih.mp others
            | keep noCblock => exact absurd rfl (noCblock _)
          · rintro rfl
            exact .cblock (ih.mpr rfl)
      | declare dataType declared =>
          rw [compactBlock]
          constructor
          · intro compacted
            cases compacted with
            | declare initial others => rw [givesInitial_iff.mp initial, ih.mp others]
            | keep _ noDeclare => exact absurd rfl (noDeclare _ _)
          · rintro rfl
            exact .declare (givesInitial_iff.mpr rfl) (ih.mpr rfl)
      | _ =>
          exact compacted_keep_iff (by simp) (by simp) (fun block among _ => inside block among)
            fun _ => ih

/-! ## Locals -/

def Statement.declares (s : Statement) : List (String × Local) :=
  match s.kind with
  | .declare dataType declared => declared.map fun v => (v.name, { dataType, pos := v.pos })
  | _ => []

/-- What is declared in a body at any depth, in source order. -/
def declaredIn (body : List Statement) : List (String × Local) :=
  (statementsIn body).flatMap Statement.declares

theorem elseIfsLocals_eq (elseIfs : List ElseIf) :
    elseIfsLocals elseIfs = (elseIfs.map (·.body)).flatMap blockLocals := by
  induction elseIfs with
  | nil => rfl
  | cons clause rest ih =>
      obtain ⟨condition, body, pos⟩ := clause
      rw [elseIfsLocals, ih, List.map_cons, List.flatMap_cons]

theorem clausesLocals_eq (clauses : List SwitchClause) :
    clausesLocals clauses = (clauses.map (·.body)).flatMap blockLocals := by
  induction clauses with
  | nil => rfl
  | cons clause rest ih =>
      obtain ⟨test, body⟩ := clause
      rw [clausesLocals, ih, List.map_cons, List.flatMap_cons]

theorem catchesLocals_eq (catches : List Catch) :
    catchesLocals catches = (catches.map (·.body)).flatMap blockLocals := by
  induction catches with
  | nil => rfl
  | cons clause rest ih =>
      obtain ⟨classes, binding, body, pos⟩ := clause
      rw [catchesLocals, ih, List.map_cons, List.flatMap_cons]

theorem kindLocals_eq (kind : StatementKind) :
    kindLocals kind = kind.blocks.flatMap blockLocals := by
  cases kind with
  | branch condition body elseIfs otherwise =>
      cases otherwise <;>
        simp [kindLocals, elseIfsLocals_eq, StatementKind.blocks]
  | switch subject clauses => rw [kindLocals, clausesLocals_eq, StatementKind.blocks]
  | tryCatch body catches =>
      rw [kindLocals, catchesLocals_eq, StatementKind.blocks, List.flatMap_cons]
  | whileLoop | loop | forLoop => simp [kindLocals, StatementKind.blocks]
  | _ => rfl

theorem blockLocals_eq (body : List Statement) : blockLocals body = declaredIn body := by
  induction body using block_induction with
  | nil => rw [blockLocals, declaredIn, statementsIn_nil, List.flatMap_nil]
  | cons s rest inside ih =>
      have inner : s.kind.blocks.flatMap blockLocals =
          (s.kind.blocks.flatMap statementsIn).flatMap Statement.declares := by
        rw [List.flatMap_assoc]
        exact List.flatMap_congr inside
      have split : declaredIn (s :: rest) =
          s.declares ++ (s.kind.blocks.flatMap blockLocals ++ declaredIn rest) := by
        rw [declaredIn, statementsIn_cons, List.flatMap_cons, List.flatMap_append, inner,
          declaredIn]
      rw [split, ← kindLocals_eq, ← ih]
      obtain ⟨kind, pos, docblocks⟩ := s
      cases kind with
      | declare dataType declared =>
          rw [blockLocals]
          rfl
      | _ =>
          rw [blockLocals]
          · rfl
          · simp

structure BodyCompacts (locals : Locals) (body : List Statement) (locals' : Locals)
    (body' : List Statement) : Prop where
  block : Compacted body body'
  inserted : locals' = locals.insertAll (declaredIn body)
  found : ∀ name,
    locals'.get? name = ((declaredIn body).reverse.lookup name).or (locals.get? name)

theorem bodyCompacts (locals : Locals) (body : List Statement) :
    BodyCompacts locals body (locals.insertAll (blockLocals body)) (compactBlock body) := by
  rw [blockLocals_eq]
  exact ⟨compacted_iff.mpr rfl, rfl, OrderedMap.get?_insertAll_last locals (declaredIn body)⟩

/-! ## Members -/

/-- A method, and what becomes of it: it changes in its body and its locals only. -/
structure Method.Compacts (m made : Method) : Prop where
  inner : BodyCompacts m.locals m.body made.locals made.body
  others : made = { m with body := made.body, locals := made.locals }

structure Function.Compacts (f made : Function) : Prop where
  inner : BodyCompacts f.locals f.body made.locals made.body
  others : made = { f with body := made.body, locals := made.locals }

structure Definition.Compacts (raw : Definition) (made : Members) : Prop where
  definition : made.definition = none
  constants : made.constants.entries = raw.constants.map fun c => (c.name, c)
  properties : made.properties.entries = raw.properties.map fun p => (p.name, p)
  methods : List.Forall₂ (fun m entry => entry.1 = m.name ∧ m.Compacts entry.2) raw.methods
    made.methods.entries

inductive Members.Compacts : Members → Members → Prop
  | raw {m made : Members} {raw : Definition} (listed : m.definition = some raw)
      (inner : raw.Compacts made) : Compacts m made
  | done {m : Members} (unlisted : m.definition = none) : Compacts m m

theorem except_bind_eq_error_iff {α β : Type} {x : Except Diagnostic α}
    {f : α → Except Diagnostic β} {d : Diagnostic} :
    x >>= f = .error d ↔ x = .error d ∨ ∃ a, x = .ok a ∧ f a = .error d := by
  cases x with
  | error e =>
      change Except.error e = .error d ↔ _
      simp
  | ok a =>
      change f a = .error d ↔ _
      simp

variable {m made : Members} {raw : Definition} {d : Diagnostic} {dropped : List Position}

theorem members_compact_eq_error_iff :
    m.compact = .error d ↔ ∃ raw, m.definition = some raw ∧ raw.FirstRepeat d := by
  obtain ⟨definition, constants, properties, methods⟩ := m
  cases definition with
  | none => simp [Members.compact]
  | some raw =>
      simp only [Members.compact, except_bind_eq_error_iff, addMembers_eq_error_iff,
        Option.some.injEq, exists_eq_left']
      constructor
      · rintro (repeated | ⟨constants, ranConstants, repeated | ⟨properties, ranProperties,
          repeated | ⟨methods, -, failed⟩⟩⟩)
        · exact .constant repeated
        · exact .property (nodup_of_addMembers ranConstants) repeated
        · exact .method (nodup_of_addMembers ranConstants) (nodup_of_addMembers ranProperties)
            repeated
        · contradiction
      · rintro (repeated | ⟨constants, repeated⟩ | ⟨constants, properties, repeated⟩)
        · exact .inl repeated
        · obtain ⟨_, ranConstants⟩ := addMembers_of_nodup .constant Constant.pos constants
          exact .inr ⟨_, ranConstants, .inl repeated⟩
        · obtain ⟨_, ranConstants⟩ := addMembers_of_nodup .constant Constant.pos constants
          obtain ⟨_, ranProperties⟩ := addMembers_of_nodup .property Property.pos properties
          exact .inr ⟨_, ranConstants, .inr ⟨_, ranProperties, .inl repeated⟩⟩

theorem members_compact_ok_iff :
    (∃ result, m.compact = .ok result) ↔ ∀ raw ∈ m.definition, raw.Distinct := by
  obtain ⟨definition, constants, properties, methods⟩ := m
  cases definition with
  | none => simp [Members.compact]
  | some raw =>
      simp only [Option.mem_def, Option.some.injEq, forall_eq']
      constructor
      · rintro ⟨result, ran⟩
        obtain ⟨_, ranConstants, ran⟩ := except_bind_ok ran
        obtain ⟨_, ranProperties, ran⟩ := except_bind_ok ran
        obtain ⟨_, ranMethods, -⟩ := except_bind_ok ran
        exact ⟨nodup_of_addMembers ranConstants, nodup_of_addMembers ranProperties,
          nodup_of_addMembers ranMethods⟩
      · rintro ⟨constants, properties, methods⟩
        obtain ⟨_, ranConstants⟩ := addMembers_of_nodup .constant Constant.pos constants
        obtain ⟨_, ranProperties⟩ := addMembers_of_nodup .property Property.pos properties
        obtain ⟨_, ranMethods⟩ := addMembers_of_nodup .method Method.pos methods
        simp only [Members.compact, ranConstants, ranProperties, ranMethods]
        exact ⟨_, rfl⟩

theorem members_compacts (ran : m.compact = .ok (made, dropped)) : m.Compacts made := by
  obtain ⟨definition, constants, properties, methods⟩ := m
  cases definition with
  | none =>
      cases ran
      exact .done rfl
  | some raw =>
      obtain ⟨constants', ranConstants, ran⟩ := except_bind_ok ran
      obtain ⟨properties', ranProperties, ran⟩ := except_bind_ok ran
      obtain ⟨methods', ranMethods, built⟩ := except_bind_ok ran
      cases built
      have listed : methods'.entries = raw.methods.map fun m => (m.name, m) :=
        addMembers_eq_ok_iff.mp ranMethods
      refine .raw rfl ⟨rfl, addMembers_eq_ok_iff.mp ranConstants,
        addMembers_eq_ok_iff.mp ranProperties, ?_⟩
      change List.Forall₂ _ raw.methods
        (methods'.entries.map fun entry => (entry.1, entry.2.compact))
      rw [listed, List.map_map, List.forall₂_map_right_iff, List.forall₂_same]
      exact fun m _ => ⟨rfl, bodyCompacts m.locals m.body, rfl⟩

/-! ## Units -/

def Node.raw? (n : Node) : Option Definition :=
  match n.kind with
  | .classDecl decl => decl.members.definition
  | .interfaceDecl decl => decl.members.definition
  | _ => none

def Node.isCblock (n : Node) : Bool :=
  match n.kind with
  | .cblock _ => true
  | _ => false

inductive Node.Compacts : Node → Node → Prop
  | functionDecl {decl made : Function} {pos : Position} {docblocks : List Docblock}
      (inner : decl.Compacts made) :
      Compacts ⟨.functionDecl decl, pos, docblocks⟩ ⟨.functionDecl made, pos, docblocks⟩
  | classDecl {decl : Class} {members : Members} {pos : Position} {docblocks : List Docblock}
      (inner : decl.members.Compacts members) :
      Compacts ⟨.classDecl decl, pos, docblocks⟩ ⟨.classDecl { decl with members }, pos, docblocks⟩
  | interfaceDecl {decl : Interface} {members : Members} {pos : Position}
      {docblocks : List Docblock} (inner : decl.members.Compacts members) :
      Compacts ⟨.interfaceDecl decl, pos, docblocks⟩
        ⟨.interfaceDecl { decl with members }, pos, docblocks⟩
  | namespaceDecl {name : String} {pos : Position} {docblocks : List Docblock} :
      Compacts ⟨.namespaceDecl name, pos, docblocks⟩ ⟨.namespaceDecl name, pos, docblocks⟩
  | useDecl {aliases : List UseAlias} {pos : Position} {docblocks : List Docblock} :
      Compacts ⟨.useDecl aliases, pos, docblocks⟩ ⟨.useDecl aliases, pos, docblocks⟩
  | require {e : Expr} {pos : Position} {docblocks : List Docblock} :
      Compacts ⟨.require e, pos, docblocks⟩ ⟨.require e, pos, docblocks⟩
  | comment {text : String} {pos : Position} {docblocks : List Docblock} :
      Compacts ⟨.comment text, pos, docblocks⟩ ⟨.comment text, pos, docblocks⟩

/-- The first node in which a name repeats decides the error of a unit. -/
inductive FirstRepeatIn : List Node → Diagnostic → Prop
  | here {n : Node} {rest : List Node} {raw : Definition} {d : Diagnostic}
      (listed : n.raw? = some raw) (repeated : raw.FirstRepeat d) : FirstRepeatIn (n :: rest) d
  | later {n : Node} {rest : List Node} {d : Diagnostic}
      (distinct : ∀ raw ∈ n.raw?, raw.Distinct) (others : FirstRepeatIn rest d) :
      FirstRepeatIn (n :: rest) d

theorem node_compact_eq_error_iff {n : Node} :
    n.compact = .error d ↔ ∃ raw, n.raw? = some raw ∧ raw.FirstRepeat d := by
  obtain ⟨kind, pos, docblocks⟩ := n
  cases kind with
  | classDecl decl | interfaceDecl decl =>
      rw [Node.raw?, ← members_compact_eq_error_iff]
      exact except_bind_eq_error_iff.trans (by simp [pure, Except.pure])
  | _ => simp [Node.compact, Node.raw?]

theorem node_compact_ok_iff {n : Node} :
    (∃ result, n.compact = .ok result) ↔ ∀ raw ∈ n.raw?, raw.Distinct := by
  obtain ⟨kind, pos, docblocks⟩ := n
  cases kind with
  | classDecl decl | interfaceDecl decl =>
      rw [Node.raw?, ← members_compact_ok_iff]
      constructor
      · rintro ⟨result, ran⟩
        obtain ⟨inner, ranMembers, -⟩ := except_bind_ok ran
        exact ⟨inner, ranMembers⟩
      · rintro ⟨inner, ranMembers⟩
        simp only [Node.compact, ranMembers]
        exact ⟨_, rfl⟩
  | _ => simp [Node.compact, Node.raw?]

theorem node_compacts {n : Node} {out : Option Node} (ran : n.compact = .ok (out, dropped)) :
    List.Forall₂ Node.Compacts ([n].filter (!·.isCblock)) out.toList := by
  obtain ⟨kind, pos, docblocks⟩ := n
  cases kind with
  | cblock text =>
      cases ran
      exact .nil
  | functionDecl decl =>
      cases ran
      exact .cons (.functionDecl ⟨bodyCompacts decl.locals decl.body, rfl⟩) .nil
  | classDecl decl =>
      obtain ⟨⟨members, places⟩, ranMembers, built⟩ := except_bind_ok ran
      cases built
      exact .cons (.classDecl (members_compacts ranMembers)) .nil
  | interfaceDecl decl =>
      obtain ⟨⟨members, places⟩, ranMembers, built⟩ := except_bind_ok ran
      cases built
      exact .cons (.interfaceDecl (members_compacts ranMembers)) .nil
  | namespaceDecl name =>
      cases ran
      exact .cons .namespaceDecl .nil
  | useDecl aliases =>
      cases ran
      exact .cons .useDecl .nil
  | require e =>
      cases ran
      exact .cons .require .nil
  | comment text =>
      cases ran
      exact .cons .comment .nil

theorem compact_eq_error_iff {unit : List Node} {collector : Collector} :
    compact unit collector = .error d ↔ FirstRepeatIn unit d := by
  induction unit generalizing collector with
  | nil =>
      constructor
      · intro failed
        cases failed
      · intro repeated
        cases repeated
  | cons n rest ih =>
      rw [compact, except_bind_eq_error_iff]
      constructor
      · rintro (failed | ⟨⟨out, dropped⟩, ran, failed⟩)
        · obtain ⟨raw, listed, repeated⟩ := node_compact_eq_error_iff.mp failed
          exact .here listed repeated
        · rcases except_bind_eq_error_iff.mp failed with failed | ⟨_, -, built⟩
          · exact .later (node_compact_ok_iff.mp ⟨_, ran⟩) (ih.mp failed)
          · contradiction
      · rintro (⟨listed, repeated⟩ | ⟨distinct, others⟩)
        · exact .inl (node_compact_eq_error_iff.mpr ⟨_, listed, repeated⟩)
        · obtain ⟨⟨out, dropped⟩, ran⟩ := node_compact_ok_iff.mpr distinct
          exact .inr ⟨_, ran, except_bind_eq_error_iff.mpr (.inl (ih.mpr others))⟩

theorem compact_ok_iff {unit : List Node} {collector : Collector} :
    (∃ result, compact unit collector = .ok result) ↔
      ∀ n ∈ unit, ∀ raw ∈ n.raw?, raw.Distinct := by
  induction unit generalizing collector with
  | nil => simp [compact]
  | cons n rest ih =>
      rw [List.forall_mem_cons, compact, ← node_compact_ok_iff]
      constructor
      · rintro ⟨result, ran⟩
        obtain ⟨⟨out, dropped⟩, ranNode, ran⟩ := except_bind_ok ran
        obtain ⟨others, ranRest, -⟩ := except_bind_ok ran
        exact ⟨⟨_, ranNode⟩, ih.mp ⟨_, ranRest⟩⟩
      · rintro ⟨⟨⟨out, dropped⟩, ranNode⟩, distinct⟩
        obtain ⟨others, ranRest⟩ := ih.mpr distinct
        rw [ranNode]
        change ∃ result, (compact rest _ >>= _) = .ok result
        rw [ranRest]
        exact ⟨_, rfl⟩

theorem compact_compacts {unit made : List Node} {collector collector' : Collector}
    (ran : compact unit collector = .ok (made, collector')) :
    List.Forall₂ Node.Compacts (unit.filter (!·.isCblock)) made := by
  induction unit generalizing made collector with
  | nil =>
      cases ran
      exact .nil
  | cons n rest ih =>
      rw [compact] at ran
      obtain ⟨⟨out, dropped⟩, ranNode, ran⟩ := except_bind_ok ran
      obtain ⟨⟨others, collected⟩, ranRest, built⟩ := except_bind_ok ran
      cases built
      have first := node_compacts ranNode
      rw [← List.singleton_append, List.filter_append]
      exact List.rel_append first (ih ranRest)

/-- Compaction gives every class and interface its members by name, and fails for the first name
that repeats. In every body it drops the C blocks and turns declared variables into locals, with
their initial values in place. -/
theorem compact_meets_spec (unit : List Node) (collector : Collector) :
    ((∃ result, compact unit collector = .ok result) ↔
      ∀ n ∈ unit, ∀ raw ∈ n.raw?, raw.Distinct) ∧
    (∀ d, compact unit collector = .error d ↔ FirstRepeatIn unit d) ∧
    ∀ made collector', compact unit collector = .ok (made, collector') →
      List.Forall₂ Node.Compacts (unit.filter (!·.isCblock)) made :=
  ⟨compact_ok_iff, fun _ => compact_eq_error_iff, fun _ _ => compact_compacts⟩

def redeclaringBody : List Statement :=
  [{ kind := .declare "int" [⟨"i", some (.nullAt {}), {}⟩, ⟨"j", none, {}⟩], pos := {} },
    { kind := .loop [{ kind := .cblock "zval *x;", pos := {} },
      { kind := .declare "string" [⟨"i", none, { line := 4 }⟩], pos := {} }], pos := {} }]

def redeclaringSample : Node :=
  ⟨.functionDecl ⟨"f", [], redeclaringBody, .empty, none⟩, {}, []⟩

def repeatingSample : Node :=
  let methods := [Method.plain "m" { line := 7 }, Method.plain "m" { line := 8 }]
  ⟨.classDecl ⟨"A", false, false, none, [], none, ⟨some ⟨[], [], methods⟩, .empty, .empty,
    .empty⟩⟩, {}, []⟩

/-- The function is compacted, and with the class behind it compaction fails for the second
method. -/
theorem samples_meet_spec :
    (∃ made collector, compact [redeclaringSample] {} = .ok (made, collector) ∧
      List.Forall₂ Node.Compacts [redeclaringSample] made) ∧
    ∃ d, compact [redeclaringSample, repeatingSample] {} = .error d ∧
      d.labels.map (·.pos.line) = [8, 7] := by
  constructor
  · exact ⟨_, _, rfl, (compact_meets_spec [redeclaringSample] {}).2.2 _ _ rfl⟩
  · have repeated : NameRepeats .method Method.name Method.pos
        ([Method.plain "m" { line := 7 }] ++ Method.plain "m" { line := 8 } :: [])
        (duplicateMember .method "m" { line := 8 } { line := 7 }) :=
      .mk (by decide) List.mem_cons_self rfl
    have first : FirstRepeatIn [redeclaringSample, repeatingSample]
        (duplicateMember .method "m" { line := 8 } { line := 7 }) :=
      .later (by simp [redeclaringSample, Node.raw?])
        (.here rfl (.method List.nodup_nil List.nodup_nil repeated))
    exact ⟨_, ((compact_meets_spec _ _).2.1 _).mpr first, rfl⟩

end Zephir
