import Zephir.Syntax.Tree

/-!
Declarations: classes and interfaces with their members, functions, and the other nodes on the top
level of a unit.
-/

namespace Zephir

structure Constant where
  name : String
  value : Option Expr
  docblock : Option String
  docblocks : List Docblock
  pos : Position

structure Shortcut where
  name : String
  pos : Position
  deriving DecidableEq

structure Property where
  name : String
  visibility : List String
  value : Option Expr
  shortcuts : List Shortcut
  docblock : Option String
  docblocks : List Docblock
  pos : Position

/-- A method. `shortcut` names the property whose accessor it is, if it was made from one. -/
structure Method where
  name : String
  visibility : List String
  parameters : List Parameter
  body : List Statement
  locals : Locals
  shortcut : Option String
  docblock : Option String
  docblocks : List Docblock
  pos : Position

def Method.plain (name : String) (pos : Position) : Method :=
  { name, visibility := ["public"], parameters := [], body := [], locals := .empty,
    shortcut := none, docblock := none, docblocks := [], pos }

structure Definition where
  constants : List Constant
  properties : List Property
  methods : List Method

/-- The members of a class or interface. Compaction moves the raw `definition` into the maps. -/
structure Members where
  definition : Option Definition
  constants : OrderedMap Constant
  properties : OrderedMap Property
  methods : OrderedMap Method

structure Class where
  name : String
  isAbstract : Bool
  isFinal : Bool
  parent : Option String
  interfaces : List Expr
  docblock : Option String
  members : Members

structure Interface where
  name : String
  parents : List Expr
  docblock : Option String
  members : Members

structure Function where
  name : String
  parameters : List Parameter
  body : List Statement
  locals : Locals
  docblock : Option String

structure UseAlias where
  name : String
  shortName : Option String
  deriving DecidableEq

inductive NodeKind
  | namespaceDecl (name : String)
  | useDecl (aliases : List UseAlias)
  | require (expr : Expr)
  | comment (text : String)
  | cblock (text : String)
  | functionDecl (decl : Function)
  | classDecl (decl : Class)
  | interfaceDecl (decl : Interface)

structure Node where
  kind : NodeKind
  pos : Position
  docblocks : List Docblock

def NodeKind.name? : NodeKind → Option String
  | .namespaceDecl name => some name
  | .functionDecl decl => some decl.name
  | .classDecl decl => some decl.name
  | .interfaceDecl decl => some decl.name
  | _ => none

end Zephir
