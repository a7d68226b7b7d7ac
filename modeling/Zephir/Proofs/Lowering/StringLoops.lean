import Zephir.Proofs.Syntax.Blocks
import Zephir.Proofs.Lowering.Scopes
import Zephir.Proofs.Lowering.Writes

/-!
Loops over strings. Lowering stores the string of such a loop in a temporary, measures it into
another one, and counts; a loop over anything else runs over the elements. The source of a loop is
lowered where its key and its value are locals already, so a parameter that the loop takes for one
of them has lost its type there.
-/

namespace Zephir

open Lowering

/-! ### Loops of the source -/

/-- A `for` of the source, the scope in which lowering comes to it, and the number of times that it
is copied: once for every class of a handler that it stands in. -/
structure ForSite where
  scope : Scope
  head : ForHead
  iterated : Expr
  body : List Statement
  pos : Position
  docblocks : List Docblock
  copies : Nat

def ForSite.times (count : Nat) (site : ForSite) : ForSite :=
  { site with copies := count * site.copies }

/-- The scope in which the source of a loop is lowered: its key and its value are locals there. -/
def ForSite.named (site : ForSite) : Scope :=
  (loopNames site.head site.pos).scopeAfter site.scope

def clauseCount (classes : List Expr) : Nat :=
  if classes.isEmpty then 1 else classes.length

mutual

/-- The `for` statements of a block that is lowered in the scope, in order, at any depth but not in
closures. -/
def blockLoops : List Statement → Scope → List ForSite
  | [], _ => []
  | ⟨kind, pos, docblocks⟩ :: rest, scope =>
    kindLoops pos docblocks kind scope ++
      blockLoops rest ((lowerStatement ⟨kind, pos, docblocks⟩).scopeAfter scope)

def kindLoops (pos : Position) (docblocks : List Docblock) :
    StatementKind → Scope → List ForSite
  | .branch condition body elseIfs otherwise, scope =>
    let mid := (lowerExpr condition).scopeAfter scope
    let last := (lowerBlock body).scopeAfter mid
    blockLoops body mid ++ elseIfLoops elseIfs last ++
      otherwiseLoops otherwise ((lowerElseIfs elseIfs).scopeAfter last)
  | .whileLoop _ condition body, scope =>
    blockLoops body ((lowerExpr condition).scopeAfter scope)
  | .loop body, scope => blockLoops body scope
  | .forLoop head iterated body, scope =>
    ⟨scope, head, iterated, body, pos, docblocks, 1⟩ ::
      blockLoops body ((loopOpening head iterated pos).scopeAfter scope)
  | .switch subject clauses, scope =>
    clauseLoops clauses ((lowerExpr subject).scopeAfter scope)
  | .tryCatch body catches, scope =>
    blockLoops body scope ++ catchLoops catches ((lowerBlock body).scopeAfter scope)
  | _, _ => []

def elseIfLoops : List ElseIf → Scope → List ForSite
  | [], _ => []
  | ⟨condition, body, _⟩ :: rest, scope =>
    let mid := (lowerExpr condition).scopeAfter scope
    blockLoops body mid ++ elseIfLoops rest ((lowerBlock body).scopeAfter mid)

def otherwiseLoops : Option (List Statement) → Scope → List ForSite
  | none, _ => []
  | some body, scope => blockLoops body scope

def clauseLoops : List SwitchClause → Scope → List ForSite
  | [], _ => []
  | ⟨test, body⟩ :: rest, scope =>
    let mid := (lowerOption test).scopeAfter scope
    blockLoops body mid ++ clauseLoops rest ((lowerBlock body).scopeAfter mid)

def catchLoops : List Catch → Scope → List ForSite
  | [], _ => []
  | ⟨classes, binding, body, pos⟩ :: rest, scope =>
    let mid := (lowerBlock body).scopeAfter scope
    (blockLoops body scope).map (·.times (clauseCount classes)) ++
      catchLoops rest ((catchBinding binding pos).scopeAfter mid)

end

/-! ### What a loop over a string becomes -/

/-- A lowered loop over a string: what was hoisted out of its source, the source itself, reversed if
the head asks for it, the variables of the loop, and the lowered body. -/
structure CountedLoop where
  before : List Statement
  iterated : Expr
  value : String
  index : String
  source : String
  size : String
  hasOwnIndex : Bool
  body : List Statement
  pos : Position

namespace CountedLoop

def stored (l : CountedLoop) : Expr :=
  (Expr.var l.source l.iterated.pos).withType "string"

def store (l : CountedLoop) : Statement :=
  .assignTo l.source l.iterated l.iterated.pos

def measure (l : CountedLoop) : Statement :=
  .assignTo l.size ((Expr.callOf "strlen" [l.stored] l.iterated.pos).withType "int")
    l.iterated.pos

def opening (l : CountedLoop) : Statement :=
  .assignTo l.value
    (.plain (.access .element l.stored ((Expr.var l.index l.pos).withType "int")) l.pos) l.pos

def kind (l : CountedLoop) : StatementKind :=
  .forLoop ⟨some l.index, some l.value, false, true, some l.size⟩ l.stored (l.opening :: l.body)

def stretch (l : CountedLoop) (docblocks : List Docblock) : List Statement :=
  headDocs docblocks (l.before ++ [l.store, l.measure, ⟨l.kind, l.pos, []⟩])

def temporaries (l : CountedLoop) : List (String × String) :=
  (l.source, "string") :: (l.size, "int") :: if l.hasOwnIndex then [(l.index, "int")] else []

def ownNames (l : CountedLoop) : List String :=
  l.temporaries.map Prod.fst

/-- The temporaries of the loop with the statements that write them. -/
def ownWrites (l : CountedLoop) : List (String × Writer) :=
  (l.source, .statement l.store.kind) :: (l.size, .statement l.measure.kind) ::
    if l.hasOwnIndex then [(l.index, .statement l.kind)] else []

def givenWrites (l : CountedLoop) : List (String × Writer) :=
  (l.value, .statement l.opening.kind) ::
    if l.hasOwnIndex then [] else [(l.index, .statement l.kind)]

theorem map_fst_ownWrites (l : CountedLoop) : l.ownWrites.map Prod.fst = l.ownNames := by
  cases own : l.hasOwnIndex <;> simp [ownWrites, ownNames, temporaries, own]

/-- The variables of the loop stay out of each other's way. Its body writes none of the temporaries,
nor an index that the head names unless the source does so. -/
structure Fits (l : CountedLoop) (site : ForSite) (key : Option String) : Prop where
  index : if l.hasOwnIndex then key = none else key = some l.index
  distinct : [l.source, l.size, l.index].Nodup
  valueApart : l.value ≠ l.source ∧ l.value ≠ l.size
  indexApart : (∀ name ∈ site.head.key, name ∉ site.head.value) → l.index ≠ l.value
  ownKept : ∀ name ∈ l.ownNames, name ∉ (blockWrites l.body).map Prod.fst
  indexKept : l.index ∉ blockSets site.body → l.index ∉ (blockWrites l.body).map Prod.fst

def filled (l : CountedLoop) (before body : List Statement) : CountedLoop :=
  { l with before, body }

theorem writes_perm (l : CountedLoop) :
    (l.givenWrites ++ blockWrites l.before ++ l.ownWrites ++ blockWrites l.body).Perm
      (blockWrites (l.before ++ [l.store, l.measure, ⟨l.kind, l.pos, []⟩])) := by
  classical
  have spelled : blockWrites [l.store, l.measure, ⟨l.kind, l.pos, []⟩] =
      (l.source, .statement l.store.kind) :: (l.size, .statement l.measure.kind) ::
        (l.index, .statement l.kind) :: (l.value, .statement l.opening.kind) ::
          blockWrites l.body := by
    simp [blockWrites, kindWrites, store, measure, kind, opening, Statement.assignTo, Assign.set,
      Assign.written, ForHead.written]
  rw [blockWrites_append, spelled]
  refine List.perm_iff_count.mpr fun write => ?_
  cases own : l.hasOwnIndex <;>
    simp only [ownWrites, givenWrites, own, List.count_append, List.count_cons, List.count_nil,
      if_true, if_false, Bool.false_eq_true] <;>
    omega

end CountedLoop

/-- Statements stand next to each other in a block or, at any depth, in a block inside it. -/
inductive StandsIn (stretch : List Statement) : List Statement → Prop
  | here {block} (within : stretch <:+: block) : StandsIn stretch block
  | inside {block s inner} (among : s ∈ block) (held : inner ∈ s.kind.blocks)
      (deeper : StandsIn stretch inner) : StandsIn stretch block

theorem StandsIn.of_infix {stretch block larger : List Statement} (within : block <:+: larger)
    (stands : StandsIn stretch block) : StandsIn stretch larger := by
  cases stands with
  | here first => exact .here (first.trans within)
  | inside among held deeper => exact .inside (within.subset among) held deeper

theorem StandsIn.node {stretch inner : List Statement} {kind : StatementKind}
    (held : inner ∈ kind.blocks) (stands : StandsIn stretch inner) (docblocks : List Docblock)
    (before : List Statement) (pos : Position) :
    StandsIn stretch (headDocs docblocks (before ++ [⟨kind, pos, []⟩])) := by
  cases before with
  | nil =>
      have among : Statement.prependDocs docblocks ⟨kind, pos, []⟩ ∈
          headDocs docblocks ([] ++ [⟨kind, pos, []⟩]) := List.mem_cons_self
      exact .inside among held stands
  | cons first rest =>
      have among : Statement.mk kind pos [] ∈
          headDocs docblocks (first :: rest ++ [⟨kind, pos, []⟩]) := by simp [headDocs]
      exact .inside among held stands

/-- What a `for` becomes: a counted loop if its source, lowered where the names of the loop are
declared, has the type of a string, and a loop over elements otherwise. -/
inductive ForSite.LowersTo (stands : List Statement → Prop) (site : ForSite) :
    Option CountedLoop → Prop
  | counted {mid last next : Scope} {key : Option String} {iterated : Expr} (l : CountedLoop)
      (names : (loopNames site.head site.pos).Runs site.scope [] (key, l.value) site.named)
      (lowered : LowersExpr site.iterated site.named l.before iterated mid)
      (string : iterated.dataType = some "string")
      (reverses : l.iterated = reversed site.head.reverse true iterated)
      (place : l.pos = site.pos)
      (opened : (loopOpening site.head site.iterated site.pos).scopeAfter site.scope = last)
      (loweredBody : LowersBlock site.body last l.body next)
      (fits : l.Fits site key) (standing : stands (l.stretch site.docblocks)) :
      LowersTo stands site (some l)
  | other {mid : Scope} {key : Option String} {value : String} {before : List Statement}
      {iterated : Expr}
      (names : (loopNames site.head site.pos).Runs site.scope [] (key, value) site.named)
      (lowered : LowersExpr site.iterated site.named before iterated mid)
      (noString : iterated.dataType ≠ some "string") : LowersTo stands site none

namespace ForSite.LowersTo

variable {stands weaker : List Statement → Prop} {site : ForSite} {loop : Option CountedLoop}

theorem imp (weakens : ∀ stretch, stands stretch → weaker stretch)
    (lowers : site.LowersTo stands loop) : site.LowersTo weaker loop := by
  cases lowers with
  | counted l names lowered string reverses place opened loweredBody fits standing =>
      exact .counted l names lowered string reverses place opened loweredBody fits
        (weakens _ standing)
  | other names lowered noString => exact .other names lowered noString

theorem times (lowers : site.LowersTo stands loop) (count : Nat) :
    (site.times count).LowersTo stands loop := by
  cases lowers with
  | counted l names lowered string reverses place opened loweredBody fits standing =>
      have same : l.Fits (site.times count) _ := ⟨fits.1, fits.2, fits.3, fits.4, fits.5, fits.6⟩
      exact .counted l names lowered string reverses place opened loweredBody same standing
  | other names lowered noString => exact .other names lowered noString

end ForSite.LowersTo

/-! ### The names and the start of a loop -/

section Start

variable {bound : String → Prop} {scope : Scope} {pos : Position}

/-- Some names, where they are new, are locals of no certain type. -/
structure Shadows (names : List String) (scope next : Scope) : Prop where
  keys : ∀ name, name ∈ next.locals.keys ↔ name ∈ names ∨ name ∈ scope.locals.keys
  typed : ∀ name, next.typeOf? name =
    if name ∈ names ∧ name ∉ scope.locals.keys then some "variable" else scope.typeOf? name

namespace Shadows

variable {mid next : Scope} {names later : List String} {name : String}

theorem nil (scope : Scope) : Shadows [] scope scope :=
  ⟨by simp, by simp⟩

theorem register (scope : Scope) (absent : name ∉ scope.locals.keys) (pos : Position) :
    Shadows [name] scope (scope.register name "variable" pos) := by
  refine ⟨fun other => ?_, fun other => ?_⟩
  · rw [Scope.register, OrderedMap.mem_keys_insert_iff, List.mem_singleton]
  · by_cases same : other = name
    · subst same
      simp [absent, Scope.typeOf?, Scope.register, OrderedMap.get?_insert_self]
    · simp [same, Scope.typeOf?, Scope.register, OrderedMap.get?_insert_of_ne _ _ same]

theorem declare (scope : Scope) (name : String) (pos : Position) :
    Shadows [name] scope (scope.declare name "variable" pos) := by
  unfold Scope.declare
  split
  · rename_i present
    have among := OrderedMap.contains_eq_true_iff.mp present
    exact ⟨by simp_all, by simp_all⟩
  · rename_i absent
    exact register scope (fun among => absent (OrderedMap.contains_eq_true_iff.mpr among)) pos

theorem temporary {pos : Position}
    (fresh : scope.temporary? "variable" pos = some (name, next)) : Shadows [name] scope next := by
  obtain ⟨mark, -, made⟩ := Option.map_eq_some_iff.mp fresh
  cases made
  have free := scope.isTaken_freshName mark
  have absent : scope.freshName mark ∉ scope.locals.keys := fun present => by
    simp [Scope.isTaken_iff.mpr (List.mem_append_left _ present)] at free
  have shadows := register scope absent pos
  exact ⟨shadows.keys, shadows.typed⟩

theorem trans (first : Shadows names scope mid) (second : Shadows later mid next) :
    Shadows (names ++ later) scope next := by
  refine ⟨fun name => ?_, fun name => ?_⟩
  · rw [second.keys, first.keys, List.mem_append]
    grind
  · simp only [second.typed, first.typed, first.keys, List.mem_append]
    grind

end Shadows

/-- The value of a loop is the one that the head names, or else a new temporary. Where its source is
lowered, its key and its value are locals. -/
theorem loopNames_value {head : ForHead} :
    (loopNames head pos).Ensures scope fun _ names next =>
      Grows bound scope next ∧ names.1 = head.key.filter (· != "_") ∧
        (head.value.filter (· != "_") = some names.2 ∨
          head.value.filter (· != "_") = none ∧ ∃ dataType, IsNew scope next names.2 dataType) ∧
        Shadows (names.1.toList ++ [names.2]) scope next := by
  unfold loopNames
  dsimp only
  split
  case' h_1 key given =>
    refine ensures_modifyScope.bind ?_
    rintro _ _ _ ⟨rfl, rfl⟩
    have first : Grows bound scope (scope.declare key "variable" pos) := .declare _ _
    have shadows : Shadows (head.key.filter (· != "_")).toList scope
        (scope.declare key "variable" pos) := given ▸ .declare _ _ _
  case' h_2 given =>
    have first : Grows bound scope scope := .refl scope
    have shadows : Shadows (head.key.filter (· != "_")).toList scope scope := given ▸ .nil scope
  all_goals
    split
    · rename_i value given
      refine ensures_modifyScope.andReturn ?_
      rintro _ _ _ ⟨-, rfl⟩
      exact ⟨first.trans (.declare _ _), rfl, .inl given, shadows.trans (.declare _ _ _)⟩
    · rename_i none
      refine ensures_temporary.andReturn ?_
      rintro _ name _ ⟨-, fresh⟩
      have new := (IsNew.temporary fresh).sooner first
      exact ⟨first.trans (.temporary fresh), rfl, .inr ⟨none, _, new⟩,
        shadows.trans (.temporary fresh)⟩

structure StartsCounting (bound : String → Prop) (scope : Scope) (key : Option String)
    (value : String) (iterated : Expr) (pos : Position) (before : List Statement)
    (start : LoopStart) (next : Scope) (l : CountedLoop) : Prop where
  same : l.value = value ∧ l.iterated = iterated ∧ l.pos = pos
  hoisted : before = [l.store, l.measure]
  started : start = {
    head := ⟨some l.index, some l.value, false, true, some l.size⟩
    iterated := l.stored
    opening := [l.opening] }
  index : if l.hasOwnIndex then key = none else key = some l.index
  grows : Grows bound scope next
  fresh : ∀ own ∈ l.temporaries, IsNew scope next own.1 own.2
  distinct : l.ownNames.Nodup

theorem stringLoop_starts {key : Option String} {value : String} {iterated : Expr}
    (named : ∀ name ∈ key, bound name) :
    (stringLoop key value iterated pos).Ensures scope fun before start next =>
      ∃ l, StartsCounting bound scope key value iterated pos before start next l := by
  have counted (index : String) (hasOwnIndex : Bool) {mid : Scope}
      (indexed : Grows bound scope mid)
      (given : if hasOwnIndex then key = none else key = some index)
      (new : hasOwnIndex = true → IsNew scope mid index "int") : (do
      let source ← temporary "string" iterated.pos
      hoist [.assignTo source iterated iterated.pos]
      let stored := (Expr.var source iterated.pos).withType "string"
      let size ← temporary "int" iterated.pos
      hoist [.assignTo size
        ((Expr.callOf "strlen" [stored] iterated.pos).withType "int") iterated.pos]
      let charAt := Expr.plain (.access .element stored ((Expr.var index pos).withType "int")) pos
      pure {
        head := { key := some index, value := some value, reverse := false, counted := true,
                  length := some size }
        iterated := stored
        opening := [.assignTo value charAt pos] } : Lowering LoopStart).Ensures mid
          fun before start next =>
            ∃ l, StartsCounting bound scope key value iterated pos before start next l := by
    refine ensures_temporary.bind ?_
    rintro _ source _ ⟨rfl, freshSource⟩
    refine ensures_hoist.bind ?_
    rintro _ _ afterSource ⟨rfl, rfl⟩
    refine ensures_temporary.bind ?_
    rintro _ size _ ⟨rfl, freshSize⟩
    refine ensures_hoist.andReturn ?_
    rintro _ _ last ⟨rfl, rfl⟩
    have newSource : IsNew mid afterSource source "string" := .temporary freshSource
    have newSize : IsNew afterSource last size "int" := .temporary freshSize
    have toSource : Grows bound mid afterSource := .temporary freshSource
    have toSize : Grows bound afterSource last := .temporary freshSize
    refine ⟨⟨[], iterated, value, index, source, size, hasOwnIndex, [], pos⟩, ⟨rfl, rfl, rfl⟩, rfl,
      rfl, given, (indexed.trans toSource).trans toSize, ?_, ?_⟩
    · have freshOwn : hasOwnIndex = true → IsNew scope last index "int" := fun own =>
        ((new own).later toSource).later toSize
      simp only [CountedLoop.temporaries, List.forall_mem_cons]
      refine ⟨(newSource.later toSize).sooner indexed, newSize.sooner (indexed.trans toSource), ?_⟩
      split
      · rename_i own
        simpa using freshOwn own
      · simp
    · have apart : source ≠ size := by
        rintro rfl
        exact newSource.not_again newSize
      have indexApart : hasOwnIndex = true → source ≠ index ∧ size ≠ index := by
        refine fun own => ⟨?_, ?_⟩
        · rintro rfl
          exact (new own).not_again newSource
        · rintro rfl
          exact ((new own).later toSource).not_again newSize
      cases hasOwnIndex with
      | false => simpa [CountedLoop.ownNames, CountedLoop.temporaries] using apart
      | true =>
          obtain ⟨first, second⟩ := indexApart rfl
          simp [CountedLoop.ownNames, CountedLoop.temporaries, apart, first, second]
  unfold stringLoop
  cases key with
  | none =>
      refine ensures_temporary.bind ?_
      rintro _ index _ ⟨rfl, fresh⟩
      exact counted index true (.temporary fresh) rfl fun _ => .temporary fresh
  | some index =>
      refine Ensures.bind ensures_modifyScope ?_
      rintro _ _ _ ⟨rfl, rfl⟩
      exact counted index false (.insert _ fun _ => named index rfl) rfl (by simp)

theorem loopStart_starts {head : ForHead} {key : Option String} {value : String}
    {iterated : Expr} (named : ∀ name ∈ key, bound name) :
    (loopStart head key value iterated pos).Ensures scope fun before start next =>
      (iterated.dataType = some "string" ∧ ∃ l, StartsCounting bound scope key value
        (reversed head.reverse true iterated) pos before start next l) ∨
      (iterated.dataType ≠ some "string" ∧ before = [] ∧ next = scope ∧ start = {
        head := ⟨key, some value, false, false, none⟩
        iterated := reversed head.reverse false iterated
        opening := [] }) := by
  unfold loopStart
  split
  · rename_i string
    exact (stringLoop_starts named).mono fun _ _ _ starts => .inl ⟨string, starts⟩
  · rename_i other
    exact ensures_pure (.inr ⟨other, rfl, rfl, rfl⟩)

end Start

end Zephir
