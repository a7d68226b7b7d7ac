import Zephir.Proofs.Compile.MemberOrder

/-!
What the standard phases make of a unit, member by member. Each constant, property and method becomes
something that depends on nothing but itself. The accessors of the properties come after the methods
of the class and are treated like them. Nodes stay in order, and comments are all that is lost.
-/

namespace Zephir

def Property.accessorMethods (p : Property) : List Method :=
  p.shortcuts.filterMap fun shortcut =>
    (Accessor.ofShortcut? shortcut.name).map fun accessor => accessor.method p.name shortcut.pos

def Members.methodsAndAccessors (owner : Members) : List (String × Method) :=
  owner.methods.entries ++
    (owner.properties.values.flatMap Property.accessorMethods).map fun m => (m.name, m)

/-- A property with its raw comment attached and its shortcuts used up. -/
def Property.expanded (p : Property) : Property :=
  { p.attach with shortcuts := [] }

structure Members.Refines (owner made : Members) : Prop where
  definition : made.definition = owner.definition
  constants : made.constants = owner.constants.mapValues Constant.attach
  properties : made.properties = owner.properties.mapValues Property.expanded
  shortcuts : ∀ p ∈ owner.properties.values, ∀ shortcut ∈ p.shortcuts,
    (Accessor.ofShortcut? shortcut.name).isSome
  methods : List.Forall₂ (fun entry out => out.1 = entry.1 ∧ entry.2.attach.lower = .ok out.2)
    owner.methodsAndAccessors made.methods.entries

inductive Node.Refines : Node → Node → Prop
  | functionDecl {decl made pos docblocks} (lowers : decl.lower = .ok made) :
      Refines ⟨.functionDecl decl, pos, docblocks⟩ ⟨.functionDecl made, pos, docblocks⟩
  | classDecl {decl members pos docblocks} (inner : decl.members.Refines members) :
      Refines ⟨.classDecl decl, pos, docblocks⟩ ⟨.classDecl { decl with members }, pos, docblocks⟩
  | interfaceDecl {decl members pos docblocks} (inner : decl.members.Refines members) :
      Refines ⟨.interfaceDecl decl, pos, docblocks⟩
        ⟨.interfaceDecl { decl with members }, pos, docblocks⟩
  | namespaceDecl {name pos docblocks} :
      Refines ⟨.namespaceDecl name, pos, docblocks⟩ ⟨.namespaceDecl name, pos, docblocks⟩
  | useDecl {aliases pos docblocks} :
      Refines ⟨.useDecl aliases, pos, docblocks⟩ ⟨.useDecl aliases, pos, docblocks⟩
  | require {expr pos docblocks} :
      Refines ⟨.require expr, pos, docblocks⟩ ⟨.require expr, pos, docblocks⟩
  | cblock {text pos docblocks} :
      Refines ⟨.cblock text, pos, docblocks⟩ ⟨.cblock text, pos, docblocks⟩

def Node.isComment (n : Node) : Bool :=
  match n.kind with
  | .comment _ => true
  | _ => false

/-- The nodes that are no comments, each with the comments that it takes. -/
def withComments (waiting : List Docblock) : List Node → List (List Docblock × Node)
  | [] => []
  | ⟨.comment text, pos, _⟩ :: rest => withComments (waiting ++ (docblock? text pos).toList) rest
  | node :: rest => (waiting, node) :: withComments [] rest

theorem withComments_cons {waiting : List Docblock} {node : Node} {rest : List Node}
    (noComment : node.isComment = false) :
    withComments waiting (node :: rest) = (waiting, node) :: withComments [] rest := by
  rw [withComments]
  rintro text pos docblocks rfl
  contradiction

theorem map_snd_withComments (waiting : List Docblock) (unit : List Node) :
    (withComments waiting unit).map Prod.snd = unit.filter (!·.isComment) := by
  induction unit generalizing waiting with
  | nil => rfl
  | cons node rest ih =>
      obtain ⟨kind, pos, docblocks⟩ := node
      cases kind with
      | comment text =>
          rw [withComments, ih]
          rfl
      | _ =>
          rw [withComments_cons rfl, List.map_cons, ih]
          rfl

/-! ## Members -/

namespace Phase

variable {α : Type} {becomes : α → α → List (String × Method) → Prop}
  {entries : List (String × α)} {outs : List ((String × α) × List (String × Method))}

theorem map_fst_outs {f : α → α} (all : List.Forall₂ (EntryBecomes becomes) entries outs)
    (value : ∀ {member made added}, becomes member made added → made = f member) :
    outs.map Prod.fst = entries.map fun entry => (entry.1, f entry.2) := by
  induction all with
  | nil => rfl
  | @cons entry out _ _ first _ ih =>
      obtain ⟨⟨name, made⟩, added⟩ := out
      obtain ⟨sameName, turned⟩ := first
      rw [List.map_cons, List.map_cons, ih, ← value turned, ← sameName]

theorem flatMap_snd_outs {g : α → List (String × Method)}
    (all : List.Forall₂ (EntryBecomes becomes) entries outs)
    (adds : ∀ {member made added}, becomes member made added → added = g member) :
    outs.flatMap Prod.snd = (entries.map Prod.snd).flatMap g := by
  induction all with
  | nil => rfl
  | cons first _ ih => rw [List.flatMap_cons, List.map_cons, List.flatMap_cons, ih, adds first.2]

theorem forall₂_fst_outs {relates : α → α → Prop}
    (all : List.Forall₂ (EntryBecomes becomes) entries outs)
    (value : ∀ {member made added}, becomes member made added → relates member made) :
    List.Forall₂ (fun entry out => out.1 = entry.1 ∧ relates entry.2 out.2) entries
      (outs.map Prod.fst) := by
  induction all with
  | nil => exact .nil
  | cons first _ ih => exact .cons ⟨first.1, value first.2⟩ ih

theorem forall_member_outs {holds : α → Prop}
    (all : List.Forall₂ (EntryBecomes becomes) entries outs)
    (value : ∀ {member made added}, becomes member made added → holds member) :
    ∀ member ∈ entries.map Prod.snd, holds member := by
  induction all with
  | nil => simp
  | cons first _ ih =>
      rw [List.map_cons, List.forall_mem_cons]
      exact ⟨value first.2, ih⟩

end Phase

variable {state next : List Docblock}

open PhaseStep

theorem accessors_eq_ok {property : String} {shortcuts : List Shortcut} {seen : List String}
    {made : List (Method × Shortcut)} (ran : accessors property seen shortcuts = .ok made) :
    (∀ shortcut ∈ shortcuts, (Accessor.ofShortcut? shortcut.name).isSome) ∧
      made.map Prod.fst = shortcuts.filterMap fun shortcut =>
        (Accessor.ofShortcut? shortcut.name).map fun accessor =>
          accessor.method property shortcut.pos := by
  induction shortcuts generalizing seen made with
  | nil =>
      cases ran
      simp
  | cons shortcut rest ih =>
      rw [accessors] at ran
      split at ran
      · contradiction
      · split at ran
        · contradiction
        · rename_i accessor known
          obtain ⟨others, ranRest, built⟩ := except_bind_ok ran
          cases built
          obtain ⟨allKnown, listed⟩ := ih ranRest
          refine ⟨List.forall_mem_cons.mpr ⟨by rw [known]; rfl, allKnown⟩, ?_⟩
          rw [List.map_cons, listed, List.filterMap_cons, known]
          rfl

theorem runSection_constants {owner grown : Members} {map made : OrderedMap Constant}
    (ran : Phase.runSection (standardPhases.map Phase.constant) owner .empty map.entries state =
      .ok ((made, grown), next)) :
    state = next ∧ grown = owner ∧ made = map.mapValues Constant.attach := by
  have sameOwner := constants_independent.owner_eq (fun turned => turned.2) ran
  obtain ⟨same, outs, all, listed, -⟩ :=
    constants_independent.section_ok (by exact map.distinct) ran
  refine ⟨same, sameOwner, OrderedMap.eq_of_entries ?_⟩
  rw [listed, Phase.map_fst_outs all fun turned => turned.1]
  rfl

theorem runSection_properties {owner grown : Members} {map made : OrderedMap Property}
    (ran : Phase.runSection (standardPhases.map Phase.property) owner .empty map.entries state =
      .ok ((made, grown), next)) :
    state = next ∧ made = map.mapValues Property.expanded ∧
      (∀ p ∈ map.values, ∀ shortcut ∈ p.shortcuts,
        (Accessor.ofShortcut? shortcut.name).isSome) ∧
      owner.Gains ((map.values.flatMap Property.accessorMethods).map fun m => (m.name, m))
        grown := by
  obtain ⟨same, outs, all, listed, gains⟩ :=
    properties_independent.section_ok (by exact map.distinct) ran
  refine ⟨same, OrderedMap.eq_of_entries ?_, ?_, ?_⟩
  · rw [listed, Phase.map_fst_outs all fun turned => turned.1]
    rfl
  · refine Phase.forall_member_outs all ?_
    rintro p made added ⟨-, accessed, ranAccessors, -⟩
    exact (accessors_eq_ok ranAccessors).1
  · have added : outs.flatMap Prod.snd =
        map.values.flatMap fun p => p.accessorMethods.map fun m => (m.name, m) := by
      refine Phase.flatMap_snd_outs all ?_
      rintro p made added ⟨-, accessed, ranAccessors, rfl⟩
      rw [Property.accessorMethods, ← (accessors_eq_ok ranAccessors).2, List.map_map]
      rfl
    rw [List.map_flatMap, ← added]
    exact gains

theorem runSection_methods {owner grown : Members} {map made : OrderedMap Method}
    (ran : Phase.runSection (standardPhases.map Phase.method) owner .empty map.entries state =
      .ok ((made, grown), next)) :
    state = next ∧ grown = owner ∧
      List.Forall₂ (fun entry out => out.1 = entry.1 ∧ entry.2.attach.lower = .ok out.2)
        map.entries made.entries := by
  have sameOwner := methods_independent.owner_eq (fun turned => turned.2) ran
  obtain ⟨same, outs, all, listed, -⟩ := methods_independent.section_ok (by exact map.distinct) ran
  refine ⟨same, sameOwner, ?_⟩
  rw [listed]
  exact Phase.forall₂_fst_outs all fun turned => turned.1

theorem runMembers_refines {owner made : Members}
    (ran : Phase.runMembers standardPhases owner state = .ok (made, next)) :
    state = next ∧ owner.Refines made := by
  obtain ⟨⟨constants, owner₁⟩, state₁, ranConstants, ran⟩ := bind_ok ran
  obtain ⟨⟨properties, owner₂⟩, state₂, ranProperties, ran⟩ := bind_ok ran
  obtain ⟨⟨methods, owner₃⟩, state₃, ranMethods, ran⟩ := bind_ok ran
  obtain ⟨rfl, rfl, madeConstants⟩ := runSection_constants ranConstants
  obtain ⟨rfl, madeProperties, known, gains⟩ := runSection_properties ranProperties
  obtain ⟨rfl, rfl, madeMethods⟩ := runSection_methods ranMethods
  cases ran
  refine ⟨rfl, gains.definition, gains.constants.trans madeConstants, madeProperties, known, ?_⟩
  rw [Members.methodsAndAccessors, ← gains.methods]
  exact madeMethods

/-! ## Units -/

theorem runNode_refines {node : Node} {made : Option Node}
    (ran : Phase.runNode standardPhases node state = .ok (made, next)) :
    match made with
    | none => ∃ text, node.kind = .comment text ∧ next = state ++ (docblock? text node.pos).toList
    | some out => node.isComment = false ∧ next = [] ∧ (node.attach state).Refines out := by
  obtain ⟨kind, pos, docblocks⟩ := node
  obtain ⟨top, queue, ranTop, ran⟩ := bind_ok ran
  cases kind with
  | comment text =>
      cases ranTop
      cases ran
      exact ⟨text, rfl, rfl⟩
  | functionDecl decl =>
      obtain ⟨result, waiting, attached, ranTop⟩ := bind_ok ranTop
      cases attached
      obtain ⟨result, waiting, unchanged, ranTop⟩ := bind_ok ranTop
      cases unchanged
      obtain ⟨result, waiting, lowered, ranTop⟩ := bind_ok ranTop
      obtain ⟨lowered, later, lifted, built⟩ := bind_ok lowered
      obtain ⟨lowers, rfl⟩ := lift_ok lifted
      cases built
      cases ranTop
      cases ran
      exact ⟨rfl, rfl, .functionDecl lowers⟩
  | classDecl decl =>
      cases ranTop
      obtain ⟨members, later, ranMembers, built⟩ := bind_ok ran
      cases built
      obtain ⟨rfl, refined⟩ := runMembers_refines ranMembers
      exact ⟨rfl, rfl, .classDecl refined⟩
  | interfaceDecl decl =>
      cases ranTop
      obtain ⟨members, later, ranMembers, built⟩ := bind_ok ran
      cases built
      obtain ⟨rfl, refined⟩ := runMembers_refines ranMembers
      exact ⟨rfl, rfl, .interfaceDecl refined⟩
  | _ =>
      cases ranTop
      cases ran
      exact ⟨rfl, rfl, by constructor⟩

/-- The nodes of a unit come out in order, comments apart. Each takes the comments in front of it,
and each of its members becomes what its own attaching, expansion and lowering make of it. -/
theorem run_refines {unit made : List Node} {waiting left : List Docblock}
    (ran : Phase.run standardPhases unit waiting = .ok (made, left)) :
    (withComments waiting unit).map Prod.snd = unit.filter (!·.isComment) ∧
      List.Forall₂ (fun taken out => (taken.2.attach taken.1).Refines out)
        (withComments waiting unit) made := by
  refine ⟨map_snd_withComments waiting unit, ?_⟩
  induction unit generalizing made waiting with
  | nil =>
      cases ran
      exact .nil
  | cons node rest ih =>
      obtain ⟨out, queue, ranNode, ran⟩ := bind_ok ran
      obtain ⟨others, later, ranRest, built⟩ := bind_ok ran
      cases built
      have refined := runNode_refines ranNode
      cases out with
      | none =>
          obtain ⟨kind, pos, docblocks⟩ := node
          obtain ⟨text, rfl, rfl⟩ := refined
          exact ih ranRest
      | some out =>
          obtain ⟨noComment, rfl, first⟩ := refined
          rw [withComments_cons noComment]
          exact .cons first (ih ranRest)

def accessorSample : List Node :=
  let property name shortcuts : String × Property :=
    (name, ⟨name, ["protected"], none, shortcuts.map fun s => ⟨s, {}⟩, none, [], {}⟩)
  let members : Members :=
    ⟨none, .empty, .ofList [property "width" ["set", "get"], property "_name" ["toString"]],
      .ofList [("open", { Method.plain "open" {} with docblock := some "* opens" })]⟩
  [⟨.comment "* a box", {}, []⟩,
    ⟨.classDecl ⟨"Box", false, false, none, [], none, members⟩, {}, []⟩]

def methodNames : List Node → List String :=
  List.flatMap fun node =>
    match node.kind with
    | .classDecl decl => decl.members.methods.keys
    | _ => []

theorem accessorSample_refines :
    ∃ made left, Phase.run standardPhases accessorSample [] = .ok (made, left) ∧
      methodNames made = ["open", "setWidth", "getWidth", "__toString"] ∧
      List.Forall₂ (fun taken out => (taken.2.attach taken.1).Refines out)
        (withComments [] accessorSample) made := by
  have ran : Phase.run standardPhases accessorSample [] = .ok (_, _) := rfl
  exact ⟨_, _, ran, rfl, (run_refines ran).2⟩

end Zephir
