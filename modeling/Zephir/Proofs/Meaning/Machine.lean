import Zephir.Lowering.Tree

/-!
What expressions mean. A machine says what each operation does once the values of its operands are
known; nothing is assumed about it but that a truth value is as true as it says. Expressions are
read on any machine, those of the source and lowered ones alike. A form that only the source has
means what its PHP counterpart means, except for `fetch`, which has none: it is read either as the
source has it or as a test of what was fetched before.
-/

namespace Zephir

/-- The variables of a body, of which one that was never set holds null, and all that lies outside
of the body. -/
structure State (V W : Type) where
  vars : String → V
  world : W

def State.set {V W : Type} (s : State V W) (name : String) (value : V) : State V W :=
  { s with vars := fun other => if other = name then value else s.vars other }

abbrev Action (V W : Type) := State V W → V × State V W

inductive Operation
  | literal (kind : LiteralKind) (text : String)
  | array (keyed : List Bool)
  | access (kind : AccessKind)
  | property (member : Expr)
  | static (kind : AccessKind) (object member : Expr)
  | issetAccess (kind : AccessKind)
  | issetProperty (member : Expr)
  | issetValue
  | call (function : String) (callType : UInt8)
  | method (name : String) (callType : UInt8)
  | staticCall (callee : StaticCallee)
  | new (className : String) (dynamic : Bool)
  | cast (typeName : String)
  | instanceOf (className : Expr)
  | unary (op : UnaryOp)
  | binary (op : BinaryOp)
  | closure (kind : ExprKind)

structure Machine (V W : Type) where
  null : V
  truthy : V → Bool
  ofBool : Bool → V
  equals : V → V → Bool
  perform : Operation → List V → Action V W
  truthy_ofBool : ∀ b, truthy (ofBool b) = b

/-- What an expression does where its value is wanted, and what it does under `isset`, which asks
the container of a member and not the member. -/
structure Meaning (V W : Type) where
  value : Action V W
  isset : Action V W

/-- How the two things are read that the text of an expression leaves open: which receivers are
primitive values, and what a fetch of a source into a variable does. -/
structure Reading (V W : Type) where
  owner : Expr → Option PrimitiveType
  fetch : String → Meaning V W → Action V W

def Placement.place {α : Type} (placement : Placement) (receiver : α) (arguments : List α)
    (literal : String → α) : List α :=
  match placement with
  | .first => receiver :: arguments
  | .last => arguments ++ [receiver]
  | .second =>
    match arguments with
    | [] => [receiver]
    | lead :: rest => lead :: receiver :: rest
  | .afterLiteral text => literal text :: receiver :: arguments

namespace Machine

variable {V W : Type} (m : Machine V W)

def sequence : List (Action V W) → State V W → List V × State V W
  | [], s => ([], s)
  | act :: rest, s =>
    let (value, s) := act s
    let (values, s) := sequence rest s
    (value :: values, s)

def apply (op : Operation) (operands : List (Action V W)) : Action V W := fun s =>
  let (values, s) := sequence operands s
  m.perform op values s

def constant (value : V) : Action V W := fun s => (value, s)

def read (name : String) : Action V W := fun s => (s.vars name, s)

def negate (operand : Action V W) : Action V W := fun s =>
  let (value, s) := operand s
  (m.ofBool (!m.truthy value), s)

def both (left right : Action V W) : Action V W := fun s =>
  let (value, s) := left s
  if m.truthy value then
    let (value, s) := right s
    (m.ofBool (m.truthy value), s)
  else (m.ofBool false, s)

def either (left right : Action V W) : Action V W := fun s =>
  let (value, s) := left s
  if m.truthy value then (m.ofBool true, s)
  else
    let (value, s) := right s
    (m.ofBool (m.truthy value), s)

def choose (condition yes no : Action V W) : Action V W := fun s =>
  let (value, s) := condition s
  if m.truthy value then yes s else no s

def compare (expected : Bool) (left right : Action V W) : Action V W := fun s =>
  let (first, s) := left s
  let (second, s) := right s
  (m.ofBool (m.equals first second == expected), s)

def plain (value : Action V W) : Meaning V W :=
  ⟨value, m.apply .issetValue [value]⟩

def literal (kind : LiteralKind) (text : String) : Action V W :=
  match kind with
  | .istring => m.apply (.literal .string text) []
  | kind => m.apply (.literal kind text) []

/-- A member of an object or an array. The name of a property and both sides of a static member are
text, which is not evaluated. -/
def access (kind : AccessKind) (object member : Expr) (container key : Action V W) :
    Meaning V W :=
  match kind with
  | .element => ⟨m.apply (.access .element) [container, key],
      m.apply (.issetAccess .element) [container, key]⟩
  | .dynamicProperty | .stringProperty => ⟨m.apply (.access .dynamicProperty) [container, key],
      m.apply (.issetAccess .dynamicProperty) [container, key]⟩
  | .property => ⟨m.apply (.property member) [container],
      m.apply (.issetProperty member) [container]⟩
  | kind => m.plain (m.apply (.static kind object member) [])

def unary (op : UnaryOp) (operand : Meaning V W) : Meaning V W :=
  match op with
  | .likely | .unlikely | .group => operand
  | .isset => m.plain operand.isset
  | .not => m.plain (m.negate operand.value)
  | .empty => m.plain (m.apply (.call "zephir_isempty" 1) [operand.value])
  | op => m.plain (m.apply (.unary op) [operand.value])

def binary (op : BinaryOp) (left right : Action V W) : Action V W :=
  match op with
  | .and => m.both left right
  | .or => m.either left right
  | .equals => m.compare true left right
  | .notEquals => m.compare false left right
  | op => m.apply (.binary op) [left, right]

def invoke (owner : Option PrimitiveType) (name : String) (callType : UInt8)
    (receiver : Action V W) (arguments : List (Action V W)) : Action V W :=
  match owner.bind (·.method? name) with
  | some entry =>
    m.apply (.call entry.function 1)
      (entry.placement.place receiver arguments (m.literal .string))
  | none => m.apply (.method name callType) (receiver :: arguments)

def fetched (source : Meaning V W) : Action V W :=
  m.choose source.isset source.value (constant m.null)

def store (name : String) (value : Action V W) (s : State V W) : State V W :=
  let (value, s) := value s
  s.set name value

def found (name : String) : Action V W :=
  m.compare false (read name) (constant m.null)

/-- A fetch where it stands: sets the variable to the source if that is set and to null otherwise,
and tests the variable. -/
def fetchNow (name : String) (source : Meaning V W) : Action V W := fun s =>
  m.found name (store name (m.fetched source) s)

/-- Lowered expressions: every method is one of an object. -/
def php : Reading V W where
  owner := fun _ => none
  fetch := m.fetchNow

variable (reading : Reading V W)

mutual

def meaning : Expr → Meaning V W
  | ⟨kind, _, _, _⟩ => kindMeaning kind

def kindMeaning : ExprKind → Meaning V W
  | .null => m.plain (constant m.null)
  | .literal kind text => m.plain (m.literal kind text)
  | .emptyArray => m.plain (m.apply (.array []) [])
  | .array entries =>
    m.plain (m.apply (.array (entries.map (·.key.isSome))) (entryValues entries))
  | .var name => m.plain (read name)
  | .access kind object member =>
    m.access kind object member (meaning object).value (meaning member).value
  | .call name callType arguments => m.plain (m.apply (.call name callType) (values arguments))
  | .methodCall receiver name callType arguments =>
    m.plain (m.invoke (reading.owner receiver) name callType (meaning receiver).value
      (values arguments))
  | .staticCall callee arguments => m.plain (m.apply (.staticCall callee) (values arguments))
  | .new className dynamic arguments =>
    m.plain (m.apply (.new className dynamic) (values arguments))
  | .newType typeName _ =>
    if typeName = "array" then m.plain (m.apply (.array []) []) else m.plain (m.literal .string "")
  | .unary op operand => m.unary op (meaning operand)
  | .binary op left right => m.plain (m.binary op (meaning left).value (meaning right).value)
  | .instanceOf value className => m.plain (m.apply (.instanceOf className) [(meaning value).value])
  | .range kind low high =>
    m.plain (m.apply (.call (if kind = .inclusive then "range" else "zephir_erange") 1)
      [(meaning low).value, (meaning high).value])
  | .ternary condition yes no =>
    m.plain (m.choose (meaning condition).value (meaning yes).value (meaning no).value)
  | .cast typeName operand =>
    if castTypes.contains typeName then
      m.plain (m.apply (.cast typeName) [(meaning operand).value])
    else meaning operand
  | .typeHint _ operand => meaning operand
  | .fetch target source => m.plain (reading.fetch (target.asVar?.getD "") (meaning source))
  | .closure parameters body locals =>
    m.plain (m.apply (.closure (.closure parameters body locals)) [])
  | .closureArrow parameter body => m.plain (m.apply (.closure (.closureArrow parameter body)) [])

def values : List Expr → List (Action V W)
  | [] => []
  | e :: rest => (meaning e).value :: values rest

def optionValues : Option Expr → List (Action V W)
  | none => []
  | some e => [(meaning e).value]

def entryValues : List ArrayEntry → List (Action V W)
  | [] => []
  | ⟨key, value⟩ :: rest => optionValues key ++ (meaning value).value :: entryValues rest

end

end Machine

end Zephir
