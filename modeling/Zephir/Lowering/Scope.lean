import Zephir.Syntax.Declaration

/-!
The variables of the body that is being lowered, and fresh names among them. A temporary is named
by a mark for its type and the least number that makes the name new.
-/

namespace Zephir

/-- The variables of one body. `issued` lists the temporaries made so far with their types, the
latest one first. -/
structure Scope where
  locals : Locals
  parameters : List Parameter
  issued : List (String × String) := []

namespace Scope

/-- The declared type of a name; locals come before parameters. -/
def typeOf? (scope : Scope) (name : String) : Option String :=
  match scope.locals.get? name with
  | some var => some var.dataType
  | none => (scope.parameters.find? (·.name == name)).map (·.dataType)

def register (scope : Scope) (name dataType : String) (pos : Position) : Scope :=
  { scope with locals := scope.locals.insert name { dataType, pos } }

/-- Makes the name a local of the type, unless it is a local already. -/
def declare (scope : Scope) (name dataType : String) (pos : Position) : Scope :=
  if scope.locals.contains name then scope else scope.register name dataType pos

def isTaken (scope : Scope) (name : String) : Bool :=
  scope.locals.contains name || scope.parameters.any (·.name == name)

def temporaryMark? (dataType : String) : Option String :=
  match dataType with
  | "array" => some "__t_a_"
  | "bool" => some "__t_b_"
  | "double" => some "__t_d_"
  | "int" => some "__t_i_"
  | "char" => some "__t_c_"
  | "string" => some "__t_s_"
  | "variable" => some "__t_v_"
  | _ => none

def numbered (mark : String) (index : Nat) : String :=
  mark ++ toString index

def firstFree (mark : String) (taken : String → Bool) (index : Nat) : Nat → String
  | 0 => numbered mark index
  | tries + 1 =>
    if taken (numbered mark index) then firstFree mark taken (index + 1) tries
    else numbered mark index

/-- The name of the next temporary with the mark. There are not more taken names than locals and
parameters, so one of the names tried is free. -/
def freshName (scope : Scope) (mark : String) : String :=
  firstFree mark scope.isTaken 1 (scope.locals.entries.length + scope.parameters.length)

/-- A fresh temporary of the type, registered as a local; there is none for a type without a
mark. -/
def temporary? (scope : Scope) (dataType : String) (pos : Position) : Option (String × Scope) :=
  (temporaryMark? dataType).map fun mark =>
    let name := scope.freshName mark
    (name, { scope.register name dataType pos with issued := (name, dataType) :: scope.issued })

end Scope

end Zephir
