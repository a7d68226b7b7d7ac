import Zephir.Phase.Basic
import Zephir.Text.Split
import Zephir.Text.UpperCase

/-!
A shortcut on a property stands for an accessor method: `get` and `toString` return the property,
`set` assigns it. The accessors are added to the methods of the class, and no accessor may take the
name of a method that is already there.
-/

namespace Zephir

inductive Accessor
  | get
  | set
  | toText
  deriving DecidableEq

def capitalize (word : List Char) : List Char :=
  match word with
  | [] => []
  | c :: rest => Text.upperChar c ++ rest

/-- The words between underscores, capitalized and joined; one leading underscore is ignored. -/
def upperCamel (name : String) : String :=
  String.ofList ((Text.pieces '_' (Text.stripFirst '_' name).toList).flatMap capitalize)

namespace Accessor

def ofShortcut? (name : String) : Option Accessor :=
  match name with
  | "get" => some .get
  | "set" => some .set
  | "toString" => some .toText
  | "__toString" => some .toText
  | _ => none

def methodName (accessor : Accessor) (property : String) : String :=
  match accessor with
  | .get => "get" ++ upperCamel property
  | .set => "set" ++ upperCamel property
  | .toText => "__toString"

def returnProperty (property : String) (pos : Position) : Statement :=
  { kind := .ret (some (.plain (.access .property (.var "this" pos) (.var property pos)) pos))
    pos }

def parameterName (property : String) : String :=
  "__p_" ++ property ++ "__"

def assignProperty (property : String) (pos : Position) : Statement :=
  { kind := .lets [{
      assign := {
        target := .objectProperty
        operator := some .assign
        base := "this"
        property := some property
        index := []
        value := some (.var (parameterName property) pos) }
      pos }]
    pos }

def method (accessor : Accessor) (property : String) (pos : Position) : Method :=
  let plain := { Method.plain (accessor.methodName property) pos with shortcut := some property }
  match accessor with
  | .get | .toText => { plain with body := [returnProperty property pos] }
  | .set =>
    { plain with
      parameters := [{ name := parameterName property, dataType := "variable", pos }]
      body := [assignProperty property pos] }

end Accessor

/-- The accessors that a property's shortcuts ask for, with the shortcuts they come from. Fails on
the first shortcut that repeats one of `seen` or that is unknown. -/
def accessors (property : String) (seen : List String) :
    List Shortcut → Except Diagnostic (List (Method × Shortcut))
  | [] => .ok []
  | shortcut :: rest =>
    if seen.contains shortcut.name then
      .error ((Cause.duplicateShortcut shortcut.name property).at shortcut.pos)
    else
      match Accessor.ofShortcut? shortcut.name with
      | none => .error ((Cause.unknownShortcut shortcut.name property).at shortcut.pos)
      | some accessor => do
        let rest ← accessors property (seen ++ [shortcut.name]) rest
        return (accessor.method property shortcut.pos, shortcut) :: rest

def addAccessors (property : String) (methods : OrderedMap Method) :
    List (Method × Shortcut) → Except Diagnostic (OrderedMap Method)
  | [] => .ok methods
  | (method, shortcut) :: rest =>
    match methods.get? method.name with
    | some existing =>
      .error (((Cause.methodCollision method.name property existing.shortcut).at
        shortcut.pos).withContext existing.pos "existing method")
    | none => addAccessors property (methods.insert method.name method) rest

def expandShortcuts (owner : Members) (p : Property) : Except Diagnostic (Property × Members) := do
  let accessors ← accessors p.name [] p.shortcuts
  let methods ← addAccessors p.name owner.methods accessors
  return ({ p with shortcuts := [] }, { owner with methods })

def expandAccessors {σ : Type} : Phase σ where
  name := "shortcuts"
  property owner p := do
    let (p, owner) ← (expandShortcuts owner p : Except Diagnostic _)
    pure (some p, owner)

end Zephir
