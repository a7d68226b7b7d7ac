import Zephir.Diagnostic.Basic
import Zephir.Syntax.Declaration
import Zephir.Text.Blank

/-!
The canonical modifiers of a method: `abstract` and `final` first, then one access modifier, then
`static`.
-/

namespace Zephir

inductive Access
  | public_
  | protected_
  | private_
  deriving DecidableEq

def Access.text : Access → String
  | .public_ => "public"
  | .protected_ => "protected"
  | .private_ => "private"

inductive Modifier
  | access (access : Access)
  | isAbstract
  | isFinal
  | isStatic
  | ignored
  deriving DecidableEq

def Modifier.ofText? (text : String) : Option Modifier :=
  match text with
  | "public" => some (.access .public_)
  | "protected" => some (.access .protected_)
  | "private" => some (.access .private_)
  | "internal" => some (.access .private_)
  | "static" => some .isStatic
  | "abstract" => some .isAbstract
  | "final" => some .isFinal
  | "inline" => some .ignored
  | "deprecated" => some .ignored
  | _ => none

structure Modifiers where
  access : Option Access := none
  isAbstract : Bool := false
  isFinal : Bool := false
  isStatic : Bool := false
  deriving DecidableEq

namespace Modifiers

def add (method : String) (pos : Position) (m : Modifiers) :
    Modifier → Except Diagnostic Modifiers
  | .ignored => .ok m
  | .isAbstract => .ok { m with isAbstract := true }
  | .isFinal => .ok { m with isFinal := true }
  | .isStatic => .ok { m with isStatic := true }
  | .access access =>
    match m.access with
    | none => .ok { m with access := some access }
    | some first =>
      if first = access then .ok m
      else .error ((Cause.conflictingVisibility method first.text access.text).at pos)

/-- Takes in all modifiers of a method, and fails on the first that is unknown or contradicts an
earlier one. -/
def addAll (method : String) (pos : Position) (m : Modifiers) :
    List String → Except Diagnostic Modifiers
  | [] => .ok m
  | raw :: rest =>
    match Modifier.ofText? (Text.trim raw) with
    | none => .error ((Cause.invalidVisibility (Text.trim raw) method).at pos)
    | some modifier =>
      match m.add method pos modifier with
      | .error d => .error d
      | .ok m => addAll method pos m rest

/-- The modifiers in canonical order; access is public unless said otherwise. -/
def toList (m : Modifiers) : List String :=
  (if m.isAbstract then ["abstract"] else []) ++ (if m.isFinal then ["final"] else []) ++
    [(m.access.getD .public_).text] ++ (if m.isStatic then ["static"] else [])

end Modifiers

def Method.canonicalVisibility (m : Method) : Except Diagnostic (List String) :=
  (Modifiers.addAll m.name m.pos {} m.visibility).map Modifiers.toList

end Zephir
