import Zephir.Diagnostic.Basic
import Zephir.Syntax.Declaration

/-!
A unit goes through phases. Each phase has a hook for top-level nodes and one for each kind of
class member; a hook may drop what it is given, and the member hooks may also change the members
of the owner. A node goes through all phases before the next node is looked at. The members of a
class are handled section by section: constants, then properties, then methods.
-/

namespace Zephir

abbrev PhaseStep (σ : Type) := StateT σ (Except Diagnostic)

abbrev MemberHook (σ α : Type) := Members → α → PhaseStep σ (Option α × Members)

def MemberHook.keep {σ α : Type} : MemberHook σ α :=
  fun owner member => pure (some member, owner)

/-- A phase over a state of type `σ`. Hooks that are not given keep everything. -/
structure Phase (σ : Type) where
  name : String
  top : Node → PhaseStep σ (Option Node) := fun node => pure (some node)
  constant : MemberHook σ Constant := .keep
  property : MemberHook σ Property := .keep
  method : MemberHook σ Method := .keep

namespace Phase

variable {σ α : Type}

/-- A top-level node after all phases, or none as soon as one phase drops it. -/
def runTop (phases : List (Phase σ)) (node : Node) : PhaseStep σ (Option Node) :=
  match phases with
  | [] => pure (some node)
  | phase :: rest => do
    match ← phase.top node with
    | none => pure none
    | some node => runTop rest node

def runMember (hooks : List (MemberHook σ α)) (owner : Members) (member : α) :
    PhaseStep σ (Option α × Members) :=
  match hooks with
  | [] => pure (some member, owner)
  | hook :: rest => do
    match ← hook owner member with
    | (none, owner) => pure (none, owner)
    | (some member, owner) => runMember rest owner member

def runSection (hooks : List (MemberHook σ α)) (owner : Members) (kept : OrderedMap α) :
    List (String × α) → PhaseStep σ (OrderedMap α × Members)
  | [] => pure (kept, owner)
  | (name, member) :: rest => do
    match ← runMember hooks owner member with
    | (none, owner) => runSection hooks owner kept rest
    | (some member, owner) => runSection hooks owner (kept.insert name member) rest

/-- The methods that hooks added while the methods of the class were handled. They go through
the method hooks themselves and come after the others. -/
def runAdded (phases : List (Phase σ)) (owner : Members) (methods : OrderedMap Method) :
    PhaseStep σ Members :=
  if owner.methods.isEmpty then pure { owner with methods }
  else do
    let (added, owner) ←
      runSection (phases.map Phase.method) { owner with methods } .empty owner.methods.entries
    pure { owner with methods := owner.methods.insertAll added.entries }

/-- The members of a class or interface after all phases. While a section is handled, the
hooks see the owner without it. -/
def runMembers (phases : List (Phase σ)) (members : Members) : PhaseStep σ Members := do
  let (constants, owner) ← runSection (phases.map Phase.constant)
    { members with constants := .empty } .empty members.constants.entries
  let owner := { owner with constants }
  let (properties, owner) ← runSection (phases.map Phase.property)
    { owner with properties := .empty } .empty owner.properties.entries
  let owner := { owner with properties }
  let (methods, owner) ← runSection (phases.map Phase.method)
    { owner with methods := .empty } .empty owner.methods.entries
  runAdded phases owner methods

def runNode (phases : List (Phase σ)) (node : Node) : PhaseStep σ (Option Node) := do
  match ← runTop phases node with
  | none => pure none
  | some node =>
    match node.kind with
    | .classDecl decl =>
      let members ← runMembers phases decl.members
      pure (some { node with kind := .classDecl { decl with members } })
    | .interfaceDecl decl =>
      let members ← runMembers phases decl.members
      pure (some { node with kind := .interfaceDecl { decl with members } })
    | _ => pure (some node)

def run (phases : List (Phase σ)) : List Node → PhaseStep σ (List Node)
  | [] => pure []
  | node :: rest => do
    let node ← runNode phases node
    let nodes ← run phases rest
    pure (node.toList ++ nodes)

end Phase

end Zephir
