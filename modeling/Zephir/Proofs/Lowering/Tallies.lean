import Mathlib.Data.List.Flatten
import Zephir.Proofs.Lowering.StringLoops

/-!
Who writes the temporaries of a body. Those that a loop over a string makes belong to it: they are
new where it is lowered, and nothing else in the lowered body gives a value to them, however loops,
handlers and assignments follow or enclose each other.

A tally says of a part of a body which loops it holds, which temporaries these own, and who writes
them. Tallies of neighbours add up since a temporary is new only once.
-/

namespace Zephir

open Lowering

/-! ### Tallies -/

def ownedBy (loops : List (ForSite × Option CountedLoop)) : List String :=
  loops.flatMap fun entry => entry.2.toList.flatMap CountedLoop.ownNames

/-- What happens between two scopes: all writes go to names of the source or to new temporaries, and
each loop has become what it should. The temporaries of counted loops are new, all different, and
each of them is only written by the statement of its loop, in as many copies as there are of it. -/
structure Tally (bound : String → Prop) (lowersTo : ForSite → Option CountedLoop → Prop)
    (names : List String) (scope next : Scope) (writes : List (String × Writer))
    (sites : List ForSite) (loops : List (ForSite × Option CountedLoop)) : Prop extends
    Sets bound names scope next writes where
  plain : ∀ name ∈ names, ¬ IsTemporaryName name
  complete : loops.map Prod.fst = sites
  lowered : ∀ entry ∈ loops, lowersTo entry.1 entry.2
  fresh : ∀ entry ∈ loops, ∀ l ∈ entry.2, ∀ own ∈ l.temporaries, IsNew scope next own.1 own.2
  distinct : (ownedBy loops).Nodup
  written : ∀ entry ∈ loops, ∀ l ∈ entry.2, ∀ write ∈ l.ownWrites,
    writes.filter (·.1 == write.1) = List.replicate entry.1.copies write

namespace Tally

variable {bound : String → Prop} {lowersTo weaker : ForSite → Option CountedLoop → Prop}
  {names others : List String} {scope mid next : Scope} {writes later : List (String × Writer)}
  {sites more : List ForSite} {loops rest : List (ForSite × Option CountedLoop)}

theorem quiet (sets : Sets bound names scope next writes)
    (plain : ∀ name ∈ names, ¬ IsTemporaryName name) :
    Tally bound lowersTo names scope next writes [] [] where
  toSets := sets
  plain := plain
  complete := rfl
  lowered := by simp
  fresh := by simp
  distinct := List.nodup_nil
  written := by simp

theorem imp (weakens : ∀ site loop, lowersTo site loop → weaker site loop)
    (tally : Tally bound lowersTo names scope next writes sites loops) :
    Tally bound weaker names scope next writes sites loops :=
  { tally with lowered := fun entry among => weakens _ _ (tally.lowered entry among) }

theorem perm (tally : Tally bound lowersTo names scope next writes sites loops)
    (reordered : writes.Perm later) : Tally bound lowersTo names scope next later sites loops :=
  { tally with
    each := fun write among => tally.each write (reordered.mem_iff.mpr among)
    written := fun entry among l given write owns => by
      have same := (reordered.filter (·.1 == write.1)).symm
      rw [tally.written entry among l given write owns] at same
      exact List.perm_replicate.mp same }

/-- A temporary that is there before is not written. -/
theorem filter_of_taken (tally : Tally bound lowersTo names scope next writes sites loops)
    {name : String} (taken : scope.isTaken name = true) (form : IsTemporaryName name) :
    writes.filter (·.1 == name) = [] := by
  rw [List.filter_eq_nil_iff]
  intro write among same
  rw [beq_iff_eq] at same
  subst same
  rcases tally.each write among with named | ⟨dataType, new⟩
  · exact tally.plain _ named form
  · rw [new.free] at taken
    cases taken

/-- A temporary that is not there afterwards is not written. -/
theorem filter_of_free (tally : Tally bound lowersTo names scope next writes sites loops)
    {name : String} (free : next.isTaken name = false) (form : IsTemporaryName name) :
    writes.filter (·.1 == name) = [] := by
  rw [List.filter_eq_nil_iff]
  intro write among same
  rw [beq_iff_eq] at same
  subst same
  rcases tally.each write among with named | ⟨dataType, new⟩
  · exact tally.plain _ named form
  · rw [new.isTaken] at free
    cases free

theorem isNew_of_mem_ownedBy (tally : Tally bound lowersTo names scope next writes sites loops)
    {name : String} (among : name ∈ ownedBy loops) :
    ∃ dataType, IsNew scope next name dataType := by
  simp only [ownedBy, List.mem_flatMap, Option.mem_toList, CountedLoop.ownNames, List.mem_map]
    at among
  obtain ⟨entry, inside, l, given, own, owns, rfl⟩ := among
  exact ⟨_, tally.fresh entry inside l given own owns⟩

theorem isNew_of_mem_ownWrites (tally : Tally bound lowersTo names scope next writes sites loops)
    {entry : ForSite × Option CountedLoop} (among : entry ∈ loops) {l : CountedLoop}
    (given : l ∈ entry.2) {write : String × Writer} (owns : write ∈ l.ownWrites) :
    ∃ dataType, IsNew scope next write.1 dataType := by
  have named : write.1 ∈ l.ownNames := l.map_fst_ownWrites ▸ List.mem_map_of_mem owns
  obtain ⟨own, there, same⟩ := List.mem_map.mp named
  exact ⟨own.2, same ▸ tally.fresh entry among l given own there⟩

theorem append (first : Tally bound lowersTo names scope mid writes sites loops)
    (second : Tally bound lowersTo others mid next later more rest) :
    Tally bound lowersTo (names ++ others) scope next (writes ++ later) (sites ++ more)
      (loops ++ rest) where
  toSets := first.toSets.append second.toSets
  plain := by
    rw [List.forall_mem_append]
    exact ⟨first.plain, second.plain⟩
  complete := by rw [List.map_append, first.complete, second.complete]
  lowered := by
    rw [List.forall_mem_append]
    exact ⟨first.lowered, second.lowered⟩
  fresh := by
    rw [List.forall_mem_append]
    exact ⟨fun entry among l given own owns =>
        (first.fresh entry among l given own owns).later second.grows,
      fun entry among l given own owns =>
        (second.fresh entry among l given own owns).sooner first.grows⟩
  distinct := by
    rw [ownedBy, List.flatMap_append]
    refine List.Nodup.append first.distinct second.distinct ?_
    intro name early late
    obtain ⟨dataType, new⟩ := first.isNew_of_mem_ownedBy early
    obtain ⟨other, again⟩ := second.isNew_of_mem_ownedBy late
    exact new.not_again again
  written := by
    rw [List.forall_mem_append]
    refine ⟨fun entry among l given write owns => ?_, fun entry among l given write owns => ?_⟩
    · obtain ⟨_, new⟩ := first.isNew_of_mem_ownWrites among given owns
      rw [List.filter_append, first.written entry among l given write owns,
        second.filter_of_taken new.isTaken new.form, List.append_nil]
    · obtain ⟨_, new⟩ := second.isNew_of_mem_ownWrites among given owns
      rw [List.filter_append, second.written entry among l given write owns,
        first.filter_of_free new.free new.form, List.nil_append]

theorem times (tally : Tally bound lowersTo names scope next writes sites loops) (count : Nat)
    (copies : ∀ site loop, lowersTo site loop → lowersTo (site.times count) loop) :
    Tally bound lowersTo names scope next (List.replicate count writes).flatten
      (sites.map (·.times count)) (loops.map fun entry => (entry.1.times count, entry.2)) where
  toSets := by
    refine ⟨tally.grows, fun write among => ?_⟩
    simp only [List.mem_flatten, List.mem_replicate] at among
    obtain ⟨copy, ⟨-, rfl⟩, inside⟩ := among
    exact tally.each write inside
  plain := tally.plain
  complete := by rw [← tally.complete, List.map_map, List.map_map]; rfl
  lowered := by
    rw [List.forall_mem_map]
    exact fun entry among => copies _ _ (tally.lowered entry among)
  fresh := by
    rw [List.forall_mem_map]
    exact tally.fresh
  distinct := by
    have same : ownedBy (loops.map fun entry => (entry.1.times count, entry.2)) =
        ownedBy loops := by simp [ownedBy, List.flatMap_map]
    rw [same]
    exact tally.distinct
  written := by
    rw [List.forall_mem_map]
    intro entry among l given write owns
    rw [List.filter_flatten, List.map_replicate, tally.written entry among l given write owns,
      List.flatten_replicate_replicate]
    rfl

end Tally

/-! ### Whole bodies -/

theorem filter_of_nodup {β : Type} {entries : List (String × β)}
    (distinct : (entries.map Prod.fst).Nodup) {entry : String × β} (among : entry ∈ entries) :
    entries.filter (·.1 == entry.1) = [entry] := by
  induction entries with
  | nil => cases among
  | cons first rest ih =>
      rw [List.map_cons, List.nodup_cons] at distinct
      rcases List.mem_cons.mp among with rfl | later
      · have none : rest.filter (·.1 == entry.1) = [] := by
          rw [List.filter_eq_nil_iff]
          intro other inside same
          rw [beq_iff_eq] at same
          exact distinct.1 (same ▸ List.mem_map_of_mem inside)
        rw [List.filter_cons_of_pos (by simp), none]
      · have differs : ¬ (first.1 == entry.1) = true := by
          rw [beq_iff_eq]
          intro same
          exact distinct.1 (same ▸ List.mem_map_of_mem later)
        rw [List.filter_cons, if_neg differs, ih distinct.2 later]

section Bodies

variable {bound : String → Prop}

def LowersIn (block : List Statement) (site : ForSite) (loop : Option CountedLoop) : Prop :=
  site.LowersTo (StandsIn · block) loop

theorem LowersIn.of_infix {block larger : List Statement} {site : ForSite}
    {loop : Option CountedLoop} (within : block <:+: larger) (lowers : LowersIn block site loop) :
    LowersIn larger site loop :=
  lowers.imp fun _ stands => stands.of_infix within

theorem LowersIn.node {inner : List Statement} {site : ForSite} {loop : Option CountedLoop}
    {kind : StatementKind} (held : inner ∈ kind.blocks) (docblocks : List Docblock)
    (before : List Statement) (pos : Position) (lowers : LowersIn inner site loop) :
    LowersIn (headDocs docblocks (before ++ [⟨kind, pos, []⟩])) site loop :=
  lowers.imp fun _ stands => stands.node held docblocks before pos

namespace Tally

variable {lowersTo : ForSite → Option CountedLoop → Prop} {site : ForSite}
  {given names inner : List String} {scope named mid last next : Scope} {sites : List ForSite}
  {loops : List (ForSite × Option CountedLoop)}

/-- A counted loop adds its own temporaries to the tally of its parts. -/
theorem counted (l : CountedLoop)
    (header : Tally bound lowersTo given scope named l.givenWrites [] [])
    (hoisted : Tally bound lowersTo names named mid (blockWrites l.before) [] [])
    (grows : Grows bound mid last) (fresh : ∀ own ∈ l.temporaries, IsNew mid last own.1 own.2)
    (distinct : l.ownNames.Nodup) (once : site.copies = 1) (lowered : lowersTo site (some l))
    (deeper : Tally bound lowersTo inner last next (blockWrites l.body) sites loops) :
    Tally bound lowersTo (given ++ names ++ inner) scope next
      (blockWrites (l.before ++ [l.store, l.measure, ⟨l.kind, l.pos, []⟩])) (site :: sites)
      ((site, some l) :: loops) := by
  have own : Tally bound lowersTo [] mid last l.ownWrites [site] [(site, some l)] := by
    refine ⟨⟨grows, ?_⟩, by simp, rfl, by simpa using lowered, ?_, ?_, ?_⟩
    · intro write owns
      have named : write.1 ∈ l.ownNames := l.map_fst_ownWrites ▸ List.mem_map_of_mem owns
      obtain ⟨own, there, same⟩ := List.mem_map.mp named
      exact .inr ⟨own.2, same ▸ fresh own there⟩
    · simpa using fresh
    · simpa [ownedBy] using distinct
    · simp only [List.forall_mem_singleton, Option.mem_some_iff, forall_eq', once]
      exact fun write owns => filter_of_nodup (l.map_fst_ownWrites ▸ distinct) owns
  have whole := (((header.append hoisted).append own).append deeper).perm l.writes_perm
  rw [List.append_nil] at whole
  exact whole

theorem uncounted {first body : List Statement} {kind : StatementKind} {pos : Position}
    {written : List (String × Writer)}
    (header : Tally bound lowersTo given scope named written [] [])
    (hoisted : Tally bound lowersTo names named mid (blockWrites first) [] [])
    (spelled : kindWrites kind = written ++ blockWrites body) (lowered : lowersTo site none)
    (deeper : Tally bound lowersTo inner mid next (blockWrites body) sites loops) :
    Tally bound lowersTo (given ++ names ++ inner) scope next
      (blockWrites (first ++ [⟨kind, pos, []⟩])) (site :: sites) ((site, none) :: loops) := by
  have own : Tally bound lowersTo [] mid mid [] [site] [(site, none)] := by
    refine ⟨.none mid, by simp, rfl, by simpa using lowered, ?_, ?_, ?_⟩ <;> simp [ownedBy]
  have whole := ((header.append hoisted).append own).append deeper
  rw [List.append_nil] at whole
  refine whole.perm ?_
  rw [blockWrites_append, blockWrites, blockWrites, spelled]
  simp only [List.append_nil, ← List.append_assoc]
  exact List.perm_append_comm.append_right _

end Tally

def LowersAmong (blocks : List (List Statement)) (site : ForSite) (loop : Option CountedLoop) :
    Prop :=
  site.LowersTo (fun stretch => ∃ inner ∈ blocks, StandsIn stretch inner) loop

theorem LowersIn.among {inner : List Statement} {blocks : List (List Statement)} {site : ForSite}
    {loop : Option CountedLoop} (held : inner ∈ blocks) (lowers : LowersIn inner site loop) :
    LowersAmong blocks site loop :=
  lowers.imp fun _ stands => ⟨inner, held, stands⟩

theorem LowersAmong.subset {blocks more : List (List Statement)} {site : ForSite}
    {loop : Option CountedLoop} (among : blocks ⊆ more) (lowers : LowersAmong blocks site loop) :
    LowersAmong more site loop :=
  lowers.imp fun _ ⟨inner, held, stands⟩ => ⟨inner, among held, stands⟩

theorem LowersAmong.node {blocks : List (List Statement)} {site : ForSite}
    {loop : Option CountedLoop} {kind : StatementKind} (among : blocks ⊆ kind.blocks)
    (docblocks : List Docblock) (before : List Statement) (pos : Position)
    (lowers : LowersAmong blocks site loop) :
    LowersIn (headDocs docblocks (before ++ [⟨kind, pos, []⟩])) site loop :=
  lowers.imp fun _ ⟨_, held, stands⟩ => stands.node (among held) docblocks before pos

theorem CountedLoop.Fits.of_tally {l : CountedLoop} {site : ForSite} {key : Option String}
    {lowersTo : ForSite → Option CountedLoop → Prop} {mid last next : Scope}
    {sites : List ForSite} {loops : List (ForSite × Option CountedLoop)}
    (fresh : ∀ own ∈ l.temporaries, IsNew mid last own.1 own.2) (distinct : l.ownNames.Nodup)
    (index : if l.hasOwnIndex then key = none else key = some l.index)
    (keyGiven : ∀ name ∈ key, name ∈ site.head.key ∧ ¬ IsTemporaryName name)
    (valueGiven : l.value ∈ site.head.value ∨ IsTemporaryName l.value)
    (valueTaken : mid.isTaken l.value = true)
    (inner : Tally bound lowersTo (blockSets site.body) last next (blockWrites l.body) sites
      loops) : l.Fits site key := by
  have apart : ∀ own ∈ l.temporaries, l.value ≠ own.1 := by
    intro own owns same
    have free := (fresh own owns).free
    rw [← same, valueTaken] at free
    cases free
  have kept : ∀ name ∈ l.ownNames, name ∉ (blockWrites l.body).map Prod.fst := by
    intro name owns among
    obtain ⟨own, there, rfl⟩ := List.mem_map.mp owns
    obtain ⟨write, inside, same⟩ := List.mem_map.mp among
    have new := fresh own there
    have unwritten := inner.filter_of_taken new.isTaken new.form
    rw [List.filter_eq_nil_iff] at unwritten
    exact unwritten write inside (by simpa using same)
  have source : (l.source, "string") ∈ l.temporaries := List.mem_cons_self
  have size : (l.size, "int") ∈ l.temporaries := List.mem_cons_of_mem _ List.mem_cons_self
  cases own : l.hasOwnIndex with
  | true =>
      have indexOwn : (l.index, "int") ∈ l.temporaries := by simp [CountedLoop.temporaries, own]
      have names : l.ownNames = [l.source, l.size, l.index] := by
        simp [CountedLoop.ownNames, CountedLoop.temporaries, own]
      exact ⟨index, names ▸ distinct, ⟨apart _ source, apart _ size⟩,
        fun _ => (apart _ indexOwn).symm, kept, fun _ => kept l.index (by simp [names])⟩
  | false =>
      have given : key = some l.index := by simpa [own] using index
      obtain ⟨named, plain⟩ := keyGiven l.index given
      have other : ∀ own ∈ l.temporaries, own.1 ≠ l.index := fun own owns same =>
        plain (same ▸ (fresh own owns).form)
      have names : l.ownNames = [l.source, l.size] := by
        simp [CountedLoop.ownNames, CountedLoop.temporaries, own]
      rw [names] at distinct
      refine ⟨index, ?_, ⟨apart _ source, apart _ size⟩, ?_, kept, ?_⟩
      · simpa [other _ source, other _ size] using distinct
      · rintro differs same
        rw [← same] at valueGiven
        exact valueGiven.elim (differs l.index named) plain
      · intro unset among
        obtain ⟨write, inside, same⟩ := List.mem_map.mp among
        rcases inner.each write inside with set | ⟨_, new⟩
        · exact unset (same ▸ set)
        · exact plain (same ▸ new.form)

theorem tally_forLoop {pos : Position} {docblocks : List Docblock} {head : ForHead}
    {key : Option String} {value : String} {iterated iterated' : Expr} {start : LoopStart}
    {body body' first second : List Statement} {scope named mid last next : Scope}
    {loops : List (ForSite × Option CountedLoop)}
    (plain : ∀ name ∈ head.key.toList ++ head.value.toList ++ iterated.sets,
      ¬ IsTemporaryName name)
    (binds : ∀ name ∈ head.key, bound name)
    (names : (loopNames head pos).Runs scope [] (key, value) named)
    (loweredIterated : LowersExpr iterated named first iterated' mid)
    (starts : (loopStart head key value iterated' pos).Runs mid second start last)
    (loweredBody : LowersBlock body last body' next)
    (inner : Tally bound (LowersIn body') (blockSets body) last next (blockWrites body')
      (blockLoops body last) loops) :
    ∃ loop, Tally bound (LowersIn (headDocs docblocks (first ++ second ++
        [⟨.forLoop start.head start.iterated (start.opening ++ body'), pos, []⟩])))
      (head.key.toList ++ head.value.toList ++ iterated.sets ++ blockSets body) scope next
      (blockWrites (first ++ second ++
        [⟨.forLoop start.head start.iterated (start.opening ++ body'), pos, []⟩]))
      (⟨scope, head, iterated, body, pos, docblocks, 1⟩ :: blockLoops body last)
      ((⟨scope, head, iterated, body, pos, docblocks, 1⟩, loop) :: loops) := by
  have opened := (loopOpening_runs names loweredIterated.runs starts).scopeAfter
  obtain rfl := names.scopeAfter
  obtain ⟨-, grown, keyGiven, valueGiven, shadows⟩ := loopNames_value _ _ names
  have toNamed : Grows bound scope _ := grown
  dsimp only at keyGiven valueGiven shadows
  replace valueGiven : value ∈ head.value ∨ ∃ dataType, IsNew scope _ value dataType :=
    valueGiven.imp (fun given => (Option.mem_filter_iff.mp given).1) And.right
  have valueKept := (shadows.keys value).mpr (.inl (by simp))
  have toMid : Grows bound _ mid := loweredIterated.sets.grows
  have keyNamed : ∀ name ∈ key, name ∈ head.key := by
    intro name given
    rw [keyGiven] at given
    exact (Option.mem_filter_iff.mp given).1
  rw [List.forall_mem_append] at plain
  have header (writes : List (String × Writer))
      (given : ∀ write ∈ writes, write.1 = value ∨ write.1 ∈ key) :
      Sets bound (head.key.toList ++ head.value.toList) scope
        ((loopNames head pos).scopeAfter scope) writes := by
    refine ⟨toNamed, fun write among => ?_⟩
    rcases given write among with same | isKey
    · rw [same]
      exact valueGiven.imp_left fun named => by simpa using .inr named
    · exact .inl (by simpa using .inl (keyNamed _ isKey))
  have hoisted : Sets bound iterated.sets _ mid (blockWrites first) := loweredIterated.sets
  obtain ⟨-, ⟨string, l, starts⟩ | ⟨other, rfl, rfl, rfl⟩⟩ :=
    loopStart_starts (fun name given => binds name (keyNamed name given)) _ _ starts
  · obtain ⟨⟨rfl, reverses, rfl⟩, rfl, rfl, index, toLast, fresh, distinct⟩ := starts
    rw [List.append_assoc]
    have taken : mid.isTaken l.value = true :=
      Scope.isTaken_iff.mpr (List.mem_append_left _ (toMid.keys.subset valueKept))
    have keyPlain : ∀ name ∈ key, name ∈ head.key ∧ ¬ IsTemporaryName name := fun name given =>
      ⟨keyNamed name given,
        plain.1 name (List.mem_append_left _ (Option.mem_toList.mpr (keyNamed name given)))⟩
    have fits : (l.filled first body').Fits ⟨scope, head, iterated, body, l.pos, docblocks, 1⟩ key :=
      .of_tally fresh distinct index keyPlain (valueGiven.imp_right fun ⟨_, new⟩ => new.form) taken
        inner
    have within : StandsIn ((l.filled first body').stretch docblocks) (headDocs docblocks
        (first ++ [l.store, l.measure, ⟨(l.filled first body').kind, l.pos, []⟩])) :=
      .here List.infix_rfl
    refine ⟨some (l.filled first body'), Tally.counted (l.filled first body')
      (.quiet (header _ ?_) plain.1) (.quiet hoisted plain.2) toLast fresh distinct rfl ?_ ?_⟩
    · unfold CountedLoop.givenWrites CountedLoop.filled
      cases own : l.hasOwnIndex <;> simp [own] at index ⊢
      exact .inr index
    · exact .counted (l.filled first body') names loweredIterated string reverses rfl opened
        loweredBody fits within
    · have held : l.opening :: body' ∈ (l.filled first body').kind.blocks := List.mem_cons_self
      rw [← List.append_assoc]
      exact inner.imp fun _ _ lowers => (lowers.of_infix
        (List.suffix_append [l.opening] body').isInfix).node held docblocks _ l.pos
  · refine ⟨none, ?_⟩
    rw [List.append_nil, List.nil_append]
    let kind : StatementKind := .forLoop ⟨key, some value, false, false, none⟩
      (reversed head.reverse false iterated') body'
    have spelled : kindWrites kind =
        (key.toList ++ [value]).map (·, .statement kind) ++ blockWrites body' := by
      simp [kind, kindWrites, ForHead.written]
    have headed := header ((key.toList ++ [value]).map (·, .statement kind)) (by
      rw [List.forall_mem_map]
      intro name named
      simpa [or_comm] using named)
    refine .uncounted (.quiet headed plain.1) (.quiet hoisted plain.2) spelled
      (.other names loweredIterated other) ?_
    exact inner.imp fun _ _ lowers => lowers.node List.mem_cons_self docblocks first pos

namespace Tally

variable {lowersTo : ForSite → Option CountedLoop → Prop} {scope mid next : Scope}
  {names : List String}

theorem simple {before : List Statement} (sets : Sets bound names scope next (blockWrites before))
    (plainNames : ∀ name ∈ names, ¬ IsTemporaryName name) {kind : StatementKind}
    (silent : kindWrites kind = []) (pos : Position) :
    Tally bound lowersTo names scope next (blockWrites (before ++ [⟨kind, pos, []⟩])) [] [] := by
  have same : blockWrites (before ++ [⟨kind, pos, []⟩]) = blockWrites before := by
    simp [blockWrites, silent]
  rw [same]
  exact .quiet sets plainNames

end Tally

namespace Tally

variable {scope mid next : Scope} {writes : List (String × Writer)} {sites : List ForSite}
  {names : List String} {loops : List (ForSite × Option CountedLoop)}
  {blocks more : List (List Statement)}

theorem inside {inner : List Statement}
    (tally : Tally bound (LowersIn inner) names scope next writes sites loops)
    (held : inner ∈ blocks) : Tally bound (LowersAmong blocks) names scope next writes sites loops :=
  tally.imp fun _ _ lowers => lowers.among held

theorem widen
    (tally : Tally bound (LowersAmong blocks) names scope next writes sites loops)
    (among : blocks ⊆ more) : Tally bound (LowersAmong more) names scope next writes sites loops :=
  tally.imp fun _ _ lowers => lowers.subset among

theorem within {kind : StatementKind} {before : List Statement}
    (tally : Tally bound (LowersAmong kind.blocks) names scope next writes sites loops)
    (order : writes.Perm (blockWrites before ++ kindWrites kind)) (docblocks : List Docblock)
    (pos : Position) :
    ∃ loops, Tally bound (LowersIn (headDocs docblocks (before ++ [⟨kind, pos, []⟩]))) names scope
      next (blockWrites (before ++ [⟨kind, pos, []⟩])) sites loops := by
  refine ⟨loops, (tally.imp fun _ _ lowers => ?_).perm ?_⟩
  · exact lowers.node (List.Subset.refl _) docblocks before pos
  · rw [blockWrites_append]
    simpa [blockWrites] using order

/-- A handler: what its body does happens in every clause that it is split into. -/
theorem handler {binding : Option Expr} {binding' : Expr} {body' : List Statement} {pos : Position}
    (inner : Tally bound (LowersIn body') names scope mid (blockWrites body') sites loops)
    (binds : (catchBinding binding pos).Runs mid [] binding' next)
    (plain : ∀ name ∈ (binding.bind Expr.asVar?).toList, ¬ IsTemporaryName name)
    (classes : List Expr) :
    ∃ loops, Tally bound (LowersAmong
        ((splitCatch (if classes.isEmpty then [baseException pos] else classes) binding' body'
          pos).map (·.body)))
      (names ++ (binding.bind Expr.asVar?).toList) scope next (catchWrites (splitCatch
        (if classes.isEmpty then [baseException pos] else classes) binding' body' pos))
      (sites.map (·.times (clauseCount classes))) loops := by
  have counted : (if classes.isEmpty then [baseException pos] else classes).length =
      clauseCount classes := by
    unfold clauseCount
    split <;> rfl
  have some : (if classes.isEmpty then [baseException pos] else classes) ≠ [] := by
    cases classes <;> simp
  generalize (if classes.isEmpty then [baseException pos] else classes) = split at counted some
  have held : body' ∈ (splitCatch split binding' body' pos).map (·.body) := by
    obtain ⟨name, rest, rfl⟩ := List.exists_cons_of_ne_nil some
    exact List.mem_cons_self
  have copied := (inner.inside held).times (clauseCount classes)
    fun _ _ lowers => lowers.times _
  rw [← counted] at copied ⊢
  have whole := copied.append (.quiet (splitCatch_sets binds split body') plain)
  rw [List.append_nil] at whole
  exact ⟨_, whole.perm (catchWrites_splitCatch_perm split binding' body' pos).symm⟩

end Tally

mutual

theorem LowersBlock.tally {body body' : List Statement} {scope next : Scope}
    (plain : ∀ name ∈ blockSets body, ¬ IsTemporaryName name)
    (binds : ∀ name ∈ blockBinds body, bound name) : LowersBlock body scope body' next →
    ∃ loops, Tally bound (LowersIn body') (blockSets body) scope next (blockWrites body')
      (blockLoops body scope) loops
  | .nil => ⟨[], .quiet (.none scope) plain⟩
  | .cons (.mk lowered) loweredRest => by
      rw [blockSets, List.forall_mem_append] at plain
      rw [blockBinds, List.forall_mem_append] at binds
      obtain ⟨loops, first⟩ := lowered.tally _ plain.1 binds.1
      obtain ⟨others, second⟩ := loweredRest.tally plain.2 binds.2
      obtain ⟨_, _, ran, -⟩ := lowerStatement_runs lowered.runs
      refine ⟨loops ++ others, ?_⟩
      rw [blockWrites_append, blockWrites_headDocs, blockLoops, ran.scopeAfter]
      refine (first.imp fun _ _ lowers => ?_).append (second.imp fun _ _ lowers => ?_)
      · exact lowers.of_infix (List.prefix_append _ _).isInfix
      · exact lowers.of_infix (List.suffix_append _ _).isInfix

theorem LowersKind.tally {pos : Position} {kind : StatementKind} {kind' : Option StatementKind}
    {scope next : Scope} {before : List Statement} (docblocks : List Docblock)
    (plain : ∀ name ∈ kindSets kind, ¬ IsTemporaryName name)
    (binds : ∀ name ∈ kindBinds kind, bound name) :
    LowersKind pos kind scope before kind' next →
    ∃ loops, Tally bound (LowersIn (headDocs docblocks
        (before ++ (kind'.map fun kind => Statement.mk kind pos []).toList))) (kindSets kind) scope
      next (blockWrites (before ++ (kind'.map fun kind => Statement.mk kind pos []).toList))
      (kindLoops pos docblocks kind scope) loops
  | .lets lowered => ⟨[], .quiet (by simpa [kindSets] using lowered.sets) plain⟩
  | .declare lowered => by
      rw [Option.map_none, Option.toList_none, List.append_nil]
      exact ⟨[], .quiet (declare_sets binds lowered) plain⟩
  | .fetch named lowered => by
      rw [Option.map_none, Option.toList_none, List.append_nil]
      exact ⟨[], .quiet (fetch_sets named lowered _) plain⟩
  | .assign lowered => ⟨[], .quiet (assign_sets lowered _ pos) plain⟩
  | .echo lowered => ⟨[], .simple lowered.sets plain rfl pos⟩
  | .effect lowered _ => ⟨[], .quiet (effect_sets lowered pos) plain⟩
  | .effectCall lowered _ =>
      ⟨[], .simple (lowered.sets.mono (List.subset_append_left _ _)) plain rfl pos⟩
  | .ret lowered => ⟨[], .simple lowered.sets plain rfl pos⟩
  | .jump => ⟨[], .simple (.none scope) plain rfl pos⟩
  | .empty => ⟨[], .simple (.none scope) plain rfl pos⟩
  | .branch condition body elseIfs otherwise => by
      simp only [kindSets, List.forall_mem_append] at plain
      simp only [kindBinds, List.forall_mem_append] at binds
      obtain ⟨⟨⟨plainCondition, plainBody⟩, plainElseIfs⟩, plainOtherwise⟩ := plain
      obtain ⟨loops, first⟩ := body.tally plainBody binds.1.1
      obtain ⟨others, second⟩ := elseIfs.tally plainElseIfs binds.1.2
      obtain ⟨more, third⟩ := otherwise.tally plainOtherwise binds.2
      simp only [kindLoops, condition.runs.scopeAfter, body.runs.scopeAfter,
        elseIfs.runs.scopeAfter]
      refine Tally.within ((((Tally.quiet condition.sets plainCondition).append
        (first.inside ?_)).append (second.widen ?_)).append (third.widen ?_)) ?_ docblocks pos
      · simp [StatementKind.blocks]
      · simp [StatementKind.blocks]
      · simp [StatementKind.blocks]
      · classical
        refine List.perm_iff_count.mpr fun write => ?_
        simp only [blockWrites_append, kindWrites, List.count_append]
        omega
  | .whileLoop condition body => by
      simp only [kindSets, List.forall_mem_append] at plain
      obtain ⟨loops, inner⟩ := body.tally plain.2 binds
      rw [kindLoops, condition.runs.scopeAfter]
      exact Tally.within ((Tally.quiet condition.sets plain.1).append
        (inner.inside List.mem_cons_self)) (.refl _) docblocks pos
  | .loop body => by
      obtain ⟨loops, inner⟩ := body.tally plain binds
      exact Tally.within (inner.inside List.mem_cons_self) (.refl _) docblocks pos
  | .forLoop names iterated starts body => by
      simp only [kindSets] at plain
      rw [List.forall_mem_append] at plain
      simp only [kindBinds, List.forall_mem_append, Option.mem_toList] at binds
      obtain ⟨loops, inner⟩ := body.tally plain.2 binds.2
      obtain ⟨loop, tally⟩ := tally_forLoop plain.1 binds.1 names iterated starts body inner
      rw [kindLoops, (loopOpening_runs names iterated.runs starts).scopeAfter]
      exact ⟨_, tally⟩
  | .switch subject clauses => by
      simp only [kindSets, List.forall_mem_append] at plain
      obtain ⟨loops, inner⟩ := clauses.tally plain.2 binds
      rw [kindLoops, subject.runs.scopeAfter]
      refine Tally.within ((Tally.quiet subject.sets plain.1).append (inner.widen ?_)) ?_ docblocks
        pos
      · simp [StatementKind.blocks]
      · simp [kindWrites]
  | .tryAlone body fresh => by
      simp only [kindSets, catchSets, List.append_nil] at plain
      simp only [kindBinds, catchBinds, List.append_nil] at binds
      obtain ⟨loops, inner⟩ := body.tally plain binds
      rw [kindLoops, catchLoops]
      exact Tally.within ((inner.inside List.mem_cons_self).append
        (.quiet (defaultCatch_sets fresh) (by simp))) (.refl _) docblocks pos
  | .tryCatch body catches => by
      simp only [kindSets, List.forall_mem_append] at plain
      simp only [kindBinds, List.forall_mem_append] at binds
      obtain ⟨loops, inner⟩ := body.tally plain.1 binds.1
      obtain ⟨others, rest⟩ := catches.tally plain.2 binds.2
      rw [kindLoops, body.runs.scopeAfter]
      exact Tally.within ((inner.inside List.mem_cons_self).append
        (rest.widen (List.subset_cons_self _ _))) (.refl _) docblocks pos
  | .comment => ⟨[], .simple (.none scope) plain rfl pos⟩
  | .cblock => ⟨[], .quiet (.none scope) plain⟩

theorem LowersElseIfs.tally {elseIfs elseIfs' : List ElseIf} {scope next : Scope}
    {before : List Statement} (plain : ∀ name ∈ elseIfSets elseIfs, ¬ IsTemporaryName name)
    (binds : ∀ name ∈ elseIfBinds elseIfs, bound name) :
    LowersElseIfs elseIfs scope before elseIfs' next →
    ∃ loops, Tally bound (LowersAmong (elseIfs'.map (·.body))) (elseIfSets elseIfs) scope next
      (blockWrites before ++ elseIfWrites elseIfs') (elseIfLoops elseIfs scope) loops
  | .nil => ⟨[], .quiet (.none scope) plain⟩
  | .cons condition body rest => by
      simp only [elseIfSets, List.forall_mem_append] at plain
      simp only [elseIfBinds, List.forall_mem_append] at binds
      obtain ⟨loops, inner⟩ := body.tally plain.1.2 binds.1
      obtain ⟨others, later⟩ := rest.tally plain.2 binds.2
      simp only [elseIfLoops, condition.runs.scopeAfter, body.runs.scopeAfter]
      refine ⟨_, (((Tally.quiet condition.sets plain.1.1).append
        (inner.inside List.mem_cons_self)).append
          (later.widen (List.subset_cons_self _ _))).perm ?_⟩
      classical
      refine List.perm_iff_count.mpr fun write => ?_
      simp only [blockWrites_append, elseIfWrites, List.count_append]
      omega

theorem LowersClauses.tally {clauses clauses' : List SwitchClause} {scope next : Scope}
    {before : List Statement} (plain : ∀ name ∈ clauseSets clauses, ¬ IsTemporaryName name)
    (binds : ∀ name ∈ clauseBinds clauses, bound name) :
    LowersClauses clauses scope before clauses' next →
    ∃ loops, Tally bound (LowersAmong (clauses'.map (·.body))) (clauseSets clauses) scope next
      (blockWrites before ++ clauseWrites clauses') (clauseLoops clauses scope) loops
  | .nil => ⟨[], .quiet (.none scope) plain⟩
  | .cons test body rest => by
      simp only [clauseSets, List.forall_mem_append] at plain
      simp only [clauseBinds, List.forall_mem_append] at binds
      obtain ⟨loops, inner⟩ := body.tally plain.1.2 binds.1
      obtain ⟨others, later⟩ := rest.tally plain.2 binds.2
      simp only [clauseLoops, test.runs.scopeAfter, body.runs.scopeAfter]
      refine ⟨_, (((Tally.quiet test.sets plain.1.1).append
        (inner.inside List.mem_cons_self)).append
          (later.widen (List.subset_cons_self _ _))).perm ?_⟩
      classical
      refine List.perm_iff_count.mpr fun write => ?_
      simp only [blockWrites_append, clauseWrites, List.count_append]
      omega

theorem LowersCatches.tally {catches catches' : List Catch} {scope next : Scope}
    (plain : ∀ name ∈ catchSets catches, ¬ IsTemporaryName name)
    (binds : ∀ name ∈ catchBinds catches, bound name) :
    LowersCatches catches scope catches' next →
    ∃ loops, Tally bound (LowersAmong (catches'.map (·.body))) (catchSets catches) scope next
      (catchWrites catches') (catchLoops catches scope) loops
  | .nil => ⟨[], .quiet (.none scope) plain⟩
  | .cons body binding rest => by
      simp only [catchSets, List.forall_mem_append] at plain
      simp only [catchBinds, List.forall_mem_append] at binds
      obtain ⟨loops, inner⟩ := body.tally plain.1.1 binds.1
      obtain ⟨handled, first⟩ := inner.handler binding plain.1.2 _
      obtain ⟨others, second⟩ := rest.tally plain.2 binds.2
      simp only [catchLoops, body.runs.scopeAfter, binding.scopeAfter]
      rw [catchWrites_append, List.map_append]
      exact ⟨_, (first.widen (List.subset_append_left _ _)).append
        (second.widen (List.subset_append_right _ _))⟩

theorem LowersOtherwise.tally {otherwise otherwise' : Option (List Statement)}
    {scope next : Scope} (plain : ∀ name ∈ otherwiseSets otherwise, ¬ IsTemporaryName name)
    (binds : ∀ name ∈ otherwiseBinds otherwise, bound name) :
    LowersOtherwise otherwise scope otherwise' next →
    ∃ loops, Tally bound (LowersAmong otherwise'.toList) (otherwiseSets otherwise) scope next
      (otherwiseWrites otherwise') (otherwiseLoops otherwise scope) loops
  | .none => ⟨[], .quiet (.none scope) plain⟩
  | .some body => by
      obtain ⟨loops, tally⟩ := body.tally plain binds
      exact ⟨loops, tally.inside List.mem_cons_self⟩

end

end Bodies

end Zephir
