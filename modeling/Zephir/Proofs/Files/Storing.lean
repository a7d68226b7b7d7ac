import Zephir.FileTree

/-!
What storing a file leaves alone. A place keeps what it held unless it is the place of the file, or
nothing was there and it lies on the way to the file: then it becomes a directory.
-/

namespace Zephir

def TreePath.start (path : TreePath) : List String :=
  if path.isAbsolute then [] else FileTree.workingPlace

namespace FileTree

variable {tree before between after : FileTree}

/-! ### Places -/

theorem lookup_map_replace (nodes : List (List String × FileNode)) (place : List String)
    (node : FileNode) (other : List String) :
    (nodes.map fun entry => if entry.1 = place then (place, node) else entry).lookup other =
      if other = place then (nodes.lookup place).map fun _ => node else nodes.lookup other := by
  induction nodes with
  | nil => simp
  | cons entry rest ih =>
      obtain ⟨first, old⟩ := entry
      rw [List.map_cons]
      by_cases replaced : first = place
      · subst replaced
        by_cases same : other = first
        · simp [same]
        · have different : (other == first) = false := by simpa using same
          simp [List.lookup_cons, different, ih, same]
      · by_cases same : other = first
        · subst same
          simp [replaced]
        · have different : (other == first) = false := by simpa using same
          by_cases wanted : other = place
          · subst wanted
            simp [List.lookup_cons, replaced, different, ih]
          · simp [List.lookup_cons, replaced, different, ih, wanted]

def IsFree (tree : FileTree) (place : List String) : Prop :=
  ∀ node, tree.node? place = some node → ∃ content, node = .file content

theorem isFree_of_none {place : List String} (absent : tree.node? place = none) :
    tree.IsFree place := by
  intro node held
  rw [absent] at held
  cases held

theorem standing?_eq_none {place : List String} (free : tree.IsFree place) :
    standing? place = none := by
  cases standing : standing? place with
  | none => rfl
  | some node =>
      obtain ⟨content, rfl⟩ := free node (by simp [node?, standing])
      unfold standing? at standing
      split at standing <;> simp at standing

theorem node?_eq_lookup {place : List String} (free : standing? place = none) :
    tree.node? place = tree.nodes.lookup place := by
  simp [node?, free]

theorem node?_put_self {place : List String} (free : tree.IsFree place) (node : FileNode) :
    (tree.put place node).node? place = some node := by
  have outside := standing?_eq_none free
  rw [node?_eq_lookup outside, put, node?_eq_lookup outside]
  split
  · rename_i present
    obtain ⟨old, held⟩ := Option.isSome_iff_exists.mp present
    rw [lookup_map_replace, if_pos rfl, held]
    rfl
  · rename_i absent
    rw [Option.not_isSome_iff_eq_none] at absent
    simp [List.lookup_append, absent]

theorem node?_put_of_ne {place other : List String} (different : other ≠ place)
    (node : FileNode) : (tree.put place node).node? other = tree.node? other := by
  unfold put node?
  split
  · rw [lookup_map_replace, if_neg different]
  · have unlike : (other == place) = false := by simpa using different
    simp [List.lookup_append, List.lookup_cons, unlike]

/-! ### Ways -/

theorem entry?_eq {place : List String} {name : String} {held : Option FileNode}
    (found : tree.entry? place name = .ok held) (other : FileTree) :
    tree.node? (place ++ [name]) = held ∧
      other.entry? place name = .ok (other.node? (place ++ [name])) := by
  unfold entry? at found ⊢
  split at found
  · cases found
  · rename_i short
    cases found
    exact ⟨rfl, by rw [if_neg short]⟩

/-- What a tree has to keep for the ways through it to lead to the same places. -/
def KeepsDirectories (before after : FileTree) : Prop :=
  ∀ place, before.node? place = some .directory → after.node? place = some .directory

theorem enter_of_keeps (keeps : KeepsDirectories before after) {place next : List String}
    {part : String} (entered : before.enter place part = .ok next) :
    after.enter place part = .ok next := by
  unfold enter at entered ⊢
  split at entered
  · rename_i up
    rw [if_pos up]
    exact entered
  · rename_i down
    rw [if_neg down]
    split at entered
    · cases entered
    · cases entered
    · rename_i found
      obtain ⟨held, look⟩ := entry?_eq found after
      rw [look, keeps _ held]
      exact entered
    · cases entered

theorem walk_of_keeps (keeps : KeepsDirectories before after) {place goal : List String}
    {parts : List String} (walked : before.walk place parts = .ok goal) :
    after.walk place parts = .ok goal := by
  induction parts generalizing place with
  | nil => exact walked
  | cons part rest ih =>
      rw [walk] at walked ⊢
      cases entered : before.enter place part with
      | error e => simp [entered] at walked
      | ok next =>
          rw [entered] at walked
          rw [enter_of_keeps keeps entered]
          exact ih walked

theorem keepsDirectories_put {place : List String} (free : tree.IsFree place)
    (node : FileNode) : KeepsDirectories tree (tree.put place node) := by
  intro other directory
  have different : other ≠ place := by
    rintro rfl
    obtain ⟨content, same⟩ := free _ directory
    cases same
  rw [node?_put_of_ne different, directory]

theorem walk_concat {place dir goal : List String} {parts : List String} {part : String}
    (walked : tree.walk place parts = .ok dir) (entered : tree.enter dir part = .ok goal) :
    tree.walk place (parts ++ [part]) = .ok goal := by
  induction parts generalizing place with
  | nil =>
      cases walked
      simp [walk, entered]
  | cons first rest ih =>
      rw [List.cons_append]
      rw [walk] at walked ⊢
      cases next : tree.enter place first with
      | error e => simp [next] at walked
      | ok middle =>
          rw [next] at walked
          exact ih walked

/-! ### Directories on the way -/

/-- The places that changed are those of new directories that some first parts lead to. -/
def MadeOnWay (start parts : List String) (before after : FileTree) : Prop :=
  ∀ place, after.node? place = before.node? place ∨
    before.node? place = none ∧ after.node? place = some .directory ∧
      ∃ count, after.walk start (parts.take count) = .ok place

namespace MadeOnWay

variable {start parts : List String}

theorem refl : MadeOnWay start parts tree tree :=
  fun _ => .inl rfl

theorem keeps (made : MadeOnWay start parts before after) : KeepsDirectories before after := by
  intro place held
  obtain same | ⟨free, -, -⟩ := made place
  · rw [same, held]
  · rw [free] at held
    cases held

theorem trans (first : MadeOnWay start parts before between)
    (second : MadeOnWay start parts between after) : MadeOnWay start parts before after := by
  intro place
  obtain same | ⟨free, held, way⟩ := second place
  · obtain unchanged | ⟨free, held, count, walked⟩ := first place
    · exact .inl (same.trans unchanged)
    · exact .inr ⟨free, same.trans held, count, walk_of_keeps second.keeps walked⟩
  · obtain unchanged | ⟨-, present, -⟩ := first place
    · exact .inr ⟨unchanged ▸ free, held, way⟩
    · rw [free] at present
      cases present

end MadeOnWay

theorem ofParts_last {isAbsolute : Bool} {parts : List String} {name : String}
    (last : (TreePath.ofParts isAbsolute parts).last = some name) :
    (TreePath.ofParts isAbsolute parts).way ++ [name] = parts ∧ name ≠ ".." := by
  unfold TreePath.ofParts at last ⊢
  split at last
  · cases last
  · cases last
  · rename_i final goesDown ended
    cases last
    obtain ⟨front, rfl⟩ := List.getLast?_eq_some_iff.mp ended
    exact ⟨by rw [List.dropLast_concat], fun up => goesDown (by rw [up])⟩

theorem locate_ofParts (isAbsolute : Bool) (parts : List String) :
    tree.locate (TreePath.ofParts isAbsolute parts) =
      tree.walk (if isAbsolute then [] else workingPlace)
        (TreePath.ofParts isAbsolute parts).way := by
  unfold TreePath.ofParts locate
  split <;> rfl

section Directories

variable {isAbsolute : Bool} {parts : List String}

theorem makeDirectory_made {count : Nat} (made : before.makeDirectory
    (TreePath.ofParts isAbsolute (parts.take count)) = .ok after) :
    MadeOnWay (if isAbsolute then [] else workingPlace) parts before after := by
  unfold makeDirectory at made
  rw [locate_ofParts] at made
  split at made
  · cases made
  · cases made
  · rename_i dir name walked last
    split at made
    · cases made
    · cases made
    · rename_i found
      obtain ⟨free, -⟩ := entry?_eq found before
      obtain ⟨spelled, goesDown⟩ := ofParts_last last
      cases made
      have held := node?_put_self (isFree_of_none free) .directory
      have keeps := keepsDirectories_put (isFree_of_none free) .directory
      have entered : (before.put (dir ++ [name]) .directory).enter dir name =
          .ok (dir ++ [name]) := by
        rw [enter, if_neg goesDown, (entry?_eq found _).2, held]
      intro other
      by_cases same : other = dir ++ [name]
      · subst same
        refine .inr ⟨free, held, count, ?_⟩
        rw [← spelled]
        exact walk_concat (walk_of_keeps keeps walked) entered
      · exact .inl (node?_put_of_ne same _)

theorem ensureDirectory_made {count : Nat} (made : before.ensureDirectory
    (TreePath.ofParts isAbsolute (parts.take count)) = .ok after) :
    MadeOnWay (if isAbsolute then [] else workingPlace) parts before after := by
  unfold ensureDirectory at made
  split at made
  · rename_i anew
    cases made
    exact makeDirectory_made anew
  · split at made
    · cases made
      exact .refl
    · cases made

theorem ensureDirectories_made {count : Nat}
    (made : before.ensureDirectories isAbsolute parts count = .ok after) :
    MadeOnWay (if isAbsolute then [] else workingPlace) parts before after := by
  induction count generalizing after with
  | zero =>
      cases made
      exact .refl
  | succ count ih =>
      unfold ensureDirectories at made
      dsimp only at made
      split at made
      · rename_i anew
        cases made
        exact makeDirectory_made anew
      · split at made
        · cases made
        · rename_i above
          exact (ih above).trans (ensureDirectory_made made)
      · split at made
        · cases made
          exact .refl
        · cases made

end Directories

def OnWay (tree : FileTree) (text : String) (place : List String) : Prop :=
  ∃ path count, TreePath.ofString (TreePath.parentText text) = .ok path ∧
    tree.walk path.start (path.parts.take count) = .ok place

theorem ensureParent_made {text : String} (made : before.ensureParent text = .ok after)
    (place : List String) :
    after.node? place = before.node? place ∨
      before.node? place = none ∧ after.node? place = some .directory ∧
        after.OnWay text place := by
  unfold ensureParent at made
  split at made
  · cases made
    exact .inl rfl
  · split at made
    · cases made
    · rename_i path spelled
      obtain same | ⟨free, held, count, walked⟩ := ensureDirectories_made made place
      · exact .inl same
      · exact .inr ⟨free, held, path, count, spelled, walked⟩

/-! ### The file -/

def Names (tree : FileTree) (text : String) (place : List String) : Prop :=
  ∃ path dir name, TreePath.ofString text = .ok path ∧ path.last = some name ∧
    tree.locate path = .ok dir ∧ place = dir ++ [name]

theorem locate_of_keeps (keeps : KeepsDirectories before after) {path : TreePath}
    {place : List String} (located : before.locate path = .ok place) :
    after.locate path = .ok place :=
  walk_of_keeps keeps located

theorem Names.of_keeps (keeps : KeepsDirectories before after) {text : String}
    {place : List String} (named : before.Names text place) : after.Names text place := by
  obtain ⟨path, dir, name, spelled, last, located, rfl⟩ := named
  exact ⟨path, dir, name, spelled, last, locate_of_keeps keeps located, rfl⟩

theorem write_cases {text content : String} (written : tree.write text content = .ok after) :
    ∃ place, tree.Names text place ∧
      ((∃ hasRoom, tree.node? place = some (.device hasRoom) ∧ after = tree) ∨
        tree.IsFree place ∧ after = tree.put place (.file content) ∧
          after.read text = .ok content) := by
  unfold write at written
  split at written
  · cases written
  · rename_i path spelled
    split at written
    · cases written
    · cases written
    · rename_i dir name located last
      have named : tree.Names text (dir ++ [name]) :=
        ⟨path, dir, name, spelled, last, located, rfl⟩
      refine ⟨dir ++ [name], named, ?_⟩
      split at written
      · cases written
      · rename_i plain
        split at written
        · cases written
        · cases written
        · rename_i hasRoom found
          obtain ⟨stands, -⟩ := entry?_eq found tree
          split at written
          · cases written
            exact .inl ⟨hasRoom, stands, rfl⟩
          · cases written
        · rename_i held notDirectory notDevice found
          cases written
          obtain ⟨present, look⟩ := entry?_eq found (tree.put (dir ++ [name]) (.file content))
          have free : tree.IsFree (dir ++ [name]) := by
            intro node there
            rw [present] at there
            subst there
            cases node with
            | file old => exact ⟨old, rfl⟩
            | device hasRoom => exact absurd rfl (notDevice hasRoom)
            | directory => exact absurd rfl notDirectory
          have holds := node?_put_self free (.file content)
          have leads := locate_of_keeps (keepsDirectories_put free (.file content)) located
          refine .inr ⟨free, rfl, ?_⟩
          rw [holds] at look
          simp [read, lookUp, spelled, find, leads, last, look, plain]

/-- A text was stored under a path: it is the content of the file at the place that the path leads
to, or went to the device that stands there and keeps nothing. All other places are as before,
except that missing directories on the way were made. -/
inductive Stored (before after : FileTree) (path text : String) : Prop
  | file (place : List String) (named : after.Names path place) (free : before.IsFree place)
      (holds : after.node? place = some (.file text)) (reads : after.read path = .ok text)
      (others : ∀ other, other ≠ place → after.node? other = before.node? other ∨
        before.node? other = none ∧ after.node? other = some .directory ∧ after.OnWay path other)
  | device (place : List String) (hasRoom : Bool) (named : after.Names path place)
      (stands : before.node? place = some (.device hasRoom))
      (all : ∀ other, after.node? other = before.node? other ∨
        before.node? other = none ∧ after.node? other = some .directory ∧ after.OnWay path other)

theorem OnWay.of_keeps (keeps : KeepsDirectories before after) {text : String}
    {place : List String} (way : before.OnWay text place) : after.OnWay text place := by
  obtain ⟨path, count, spelled, walked⟩ := way
  exact ⟨path, count, spelled, walk_of_keeps keeps walked⟩

theorem stored_of_write {path text : String} (parent : before.ensureParent path = .ok between)
    (written : between.write path text = .ok after) : Stored before after path text := by
  have made := ensureParent_made parent
  obtain ⟨place, named, ⟨hasRoom, stands, rfl⟩ | ⟨free, rfl, reads⟩⟩ := write_cases written
  · refine .device place hasRoom named ?_ made
    obtain same | ⟨-, directory, -⟩ := made place
    · rw [← same, stands]
    · rw [stands] at directory
      cases directory
  · have keeps := keepsDirectories_put free (.file text)
    have freeBefore : before.IsFree place := by
      obtain same | ⟨absent, -, -⟩ := made place
      · intro node held
        exact free node (same.trans held)
      · exact isFree_of_none absent
    refine .file place (named.of_keeps keeps) freeBefore
      (node?_put_self free _) reads fun other different => ?_
    rw [node?_put_of_ne different]
    exact (made other).imp_right fun ⟨absent, directory, way⟩ =>
      ⟨absent, directory, way.of_keeps keeps⟩

end FileTree

end Zephir
