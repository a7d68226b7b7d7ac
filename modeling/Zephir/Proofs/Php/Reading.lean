import Zephir.Php.Script
import Zephir.Syntax.Operator

/-!
Reading PHP expressions back. The tokens that a script pushes are read by a precedence parser over
the operator table of PHP, which knows nothing of the levels that the printer works with.
Parentheses leave no trace in what is read.
-/

namespace Zephir.Php

/-- A token of PHP. The words `clone`, `new` and `instanceof` are names to the scanner. -/
inductive Token
  | variable (name : String)
  | name (name : String)
  | number (text : String)
  | string (text : String)
  | cast (typeName : String)
  | symbol (text : String)
  deriving DecidableEq

def unquote : List Char → Option (List Char × List Char)
  | [] => none
  | '\'' :: rest => some ([], rest)
  | '\\' :: '\\' :: rest => (unquote rest).map fun (text, rest) => ('\\' :: text, rest)
  | '\\' :: '\'' :: rest => (unquote rest).map fun (text, rest) => ('\'' :: text, rest)
  | c :: rest => (unquote rest).map fun (text, rest) => (c :: text, rest)

def startsName (c : Char) : Bool :=
  c.isAlpha || c == '_' || c == '\\' || 128 ≤ c.toNat

/-- The tokens of a piece of text. A method name that is no identifier comes with its braces. -/
def scan (text : String) : List Token :=
  match text.toList with
  | '$' :: name => [.variable (String.ofList name)]
  | '\'' :: quoted =>
    match unquote quoted with
    | some (inner, []) => [.string (String.ofList inner)]
    | _ => [.symbol text]
  | '\x7b' :: '\'' :: quoted =>
    match unquote quoted with
    | some (inner, ['\x7d']) => [.symbol "\x7b", .string (String.ofList inner), .symbol "\x7d"]
    | _ => [.symbol text]
  | '(' :: c :: rest => [.cast (String.ofList (c :: rest).dropLast)]
  | '.' :: c :: _ => if c.isDigit then [.number text] else [.symbol text]
  | c :: _ =>
    if c.isDigit then [.number text]
    else if startsName c then [.name text]
    else [.symbol text]
  | [] => []

end Zephir.Php

namespace Zephir

def Op.tokens : Op → List Php.Token
  | .emit text => Php.scan text
  | .keyword word => Php.scan word
  | .token text _ _ => Php.scan text
  | .operator op _ => Php.scan op
  | .endOfStatement _ => Php.scan ";"
  | .line text => Php.scan text
  | _ => []

def Script.tokens (s : Script) : List Php.Token :=
  s.ops.flatMap Op.tokens

end Zephir

namespace Zephir.Php

mutual

inductive Term
  | name (name : String)
  | variable (name : String)
  | number (text : String)
  | string (text : String)
  | array (entries : List Entry)
  | index (object position : Term)
  | property (object : Term) (member : Member)
  | staticMember (className : Term) (member : Member)
  | call (function : Term) (arguments : List Term)
  | methodCall (object : Term) (member : Member) (arguments : List Term)
  | staticCall (className : Term) (member : Member) (arguments : List Term)
  | new (className : Term) (arguments : List Term)
  | unary (op : UnaryOp) (operand : Term)
  | cast (typeName : String) (operand : Term)
  | binary (op : BinaryOp) (left right : Term)
  | instanceOf (value className : Term)
  | ternary (condition yes no : Term)

inductive Entry
  | value (value : Term)
  | pair (key value : Term)

inductive Member
  | named (name : String)
  | variable (name : String)
  | computed (name : Term)

end

inductive Operator
  | binary (op : BinaryOp)
  | instanceOf
  | ternary
  deriving DecidableEq

/-- The rows of the operator table, numbered from the loosest; the operators in front of their
operand are in the rows 13 and 15. -/
def Operator.row : Operator → Nat
  | .ternary => 1
  | .binary .or => 2
  | .binary .and => 3
  | .binary .bitOr => 4
  | .binary .bitXor => 5
  | .binary .bitAnd => 6
  | .binary .equals | .binary .notEquals | .binary .identical | .binary .notIdentical => 7
  | .binary .less | .binary .lessEqual | .binary .greater | .binary .greaterEqual => 8
  | .binary .concat => 9
  | .binary .shiftLeft | .binary .shiftRight => 10
  | .binary .add | .binary .sub => 11
  | .binary .mul | .binary .div | .binary .mod => 12
  | .instanceOf => 14

/-- The tightest row that may follow on the right of an operation: its own row if the operator
associates to the left, and the row below if it does not associate. -/
def Operator.limit (operator : Operator) : Nat :=
  match operator.row with
  | 1 => 0
  | 7 => 6
  | 8 => 7
  | 14 => 13
  | row => row

def leadRow : UnaryOp → Nat
  | .not => 13
  | _ => 15

def tightest : Nat := 16

def Token.operator? : Token → Option Operator
  | .symbol "?" => some .ternary
  | .symbol "||" => some (.binary .or)
  | .symbol "&&" => some (.binary .and)
  | .symbol "|" => some (.binary .bitOr)
  | .symbol "^" => some (.binary .bitXor)
  | .symbol "&" => some (.binary .bitAnd)
  | .symbol "==" => some (.binary .equals)
  | .symbol "!=" => some (.binary .notEquals)
  | .symbol "===" => some (.binary .identical)
  | .symbol "!==" => some (.binary .notIdentical)
  | .symbol "<" => some (.binary .less)
  | .symbol "<=" => some (.binary .lessEqual)
  | .symbol ">" => some (.binary .greater)
  | .symbol ">=" => some (.binary .greaterEqual)
  | .symbol "." => some (.binary .concat)
  | .symbol "<<" => some (.binary .shiftLeft)
  | .symbol ">>" => some (.binary .shiftRight)
  | .symbol "+" => some (.binary .add)
  | .symbol "-" => some (.binary .sub)
  | .symbol "*" => some (.binary .mul)
  | .symbol "/" => some (.binary .div)
  | .symbol "%" => some (.binary .mod)
  | .name "instanceof" => some .instanceOf
  | _ => none

inductive Opening
  | group
  | array
  | new
  | sign (op : UnaryOp)
  | cast (typeName : String)
  | atom (term : Term)

def Token.opening? : Token → Option Opening
  | .symbol "(" => some .group
  | .symbol "[" => some .array
  | .symbol "!" => some (.sign .not)
  | .symbol "~" => some (.sign .bitNot)
  | .symbol "-" => some (.sign .minus)
  | .symbol "+" => some (.sign .plus)
  | .symbol _ => none
  | .name "clone" => some (.sign .clone)
  | .name "new" => some .new
  | .name "instanceof" => none
  | .name text => some (.atom (.name text))
  | .variable text => some (.atom (.variable text))
  | .number text => some (.atom (.number text))
  | .string text => some (.atom (.string text))
  | .cast typeName => some (.cast typeName)

inductive Trailer
  | index
  | arrow
  | colons
  | arguments
  deriving DecidableEq

def Token.trailer? : Token → Option Trailer
  | .symbol "[" => some .index
  | .symbol "->" => some .arrow
  | .symbol "::" => some .colons
  | .symbol "(" => some .arguments
  | _ => none

def expect (text : String) : List Token → Option (List Token)
  | .symbol other :: rest => if other = text then some rest else none
  | _ => none

def readClass : List Token → Option (Term × List Token)
  | .name name :: rest => some (.name name, rest)
  | .variable name :: rest => some (.variable name, rest)
  | _ => none

def values? : List Entry → Option (List Term)
  | [] => some []
  | .value value :: rest => (values? rest).map (value :: ·)
  | .pair _ _ :: _ => none

/-- Goes on after what was read; reading never leaves more tokens than there were. -/
def andThen {α β : Type} (tokens : List Token) (first : Option (α × List Token))
    (next : α → (rest : List Token) → rest.length ≤ tokens.length → Option β) : Option β :=
  match first with
  | none => none
  | some (value, rest) =>
    if fewer : rest.length ≤ tokens.length then next value rest fewer else none

@[simp] theorem andThen_some {α β : Type} {tokens rest : List Token} {value : α}
    {next : α → (rest : List Token) → rest.length ≤ tokens.length → Option β}
    (fewer : rest.length ≤ tokens.length) :
    andThen tokens (some (value, rest)) next = next value rest fewer := by
  simp [andThen, fewer]

def closed {α : Type} (text : String) (first : Option (α × List Token)) :
    Option (α × List Token) := do
  let (value, rest) ← first
  let rest ← expect text rest
  some (value, rest)

@[simp] theorem closed_some {α : Type} {text : String} {value : α} {rest : List Token} :
    closed text (some (value, .symbol text :: rest)) = some (value, rest) := by
  simp [closed, expect]

theorem length_of_expect {text : String} {tokens rest : List Token}
    (found : expect text tokens = some rest) : rest.length < tokens.length := by
  unfold expect at found
  split at found
  · split at found
    · cases found
      simp
    · contradiction
  · contradiction

def behind {α : Type} (text : String) (tokens : List Token)
    (present : (rest : List Token) → rest.length < tokens.length → Option α)
    (missing : Option α) : Option α :=
  match found : expect text tokens with
  | none => missing
  | some rest => present rest (length_of_expect found)

theorem behind_eq_missing {α : Type} {text : String} {tokens : List Token}
    {present : (rest : List Token) → rest.length < tokens.length → Option α} {missing : Option α}
    (lacks : expect text tokens = none) : behind text tokens present missing = missing := by
  unfold behind
  split
  · rfl
  · simp_all

@[simp] theorem behind_eq_present {α : Type} {text : String} {rest : List Token}
    {present : (rest' : List Token) → rest'.length < (Token.symbol text :: rest).length → Option α}
    {missing : Option α} :
    behind text (.symbol text :: rest) present missing =
      present rest (Nat.lt_add_one rest.length) := by
  unfold behind
  split
  · simp_all [expect]
  · rename_i found
    simp only [expect, if_true, Option.some.injEq] at found
    subst found
    rfl

mutual

/-- Reads an expression whose outermost operator is in row `least` or tighter. -/
def readExpr (least : Nat) (tokens : List Token) : Option (Term × List Token) :=
  andThen tokens (readOperand tokens) fun first rest _ =>
    readOperators least tightest first rest
termination_by 5 * tokens.length + 1

/-- Goes on after a left operand, with operators in the rows from `least` to `most`. -/
def readOperators (least most : Nat) (left : Term) (tokens : List Token) :
    Option (Term × List Token) :=
  match tokens with
  | [] => some (left, [])
  | token :: rest =>
    match token.operator? with
    | none => some (left, token :: rest)
    | some operator =>
      if least ≤ operator.row ∧ operator.row ≤ most then
        andThen rest (readRight operator left rest) fun term rest _ =>
          readOperators least operator.limit term rest
      else some (left, token :: rest)
termination_by 5 * tokens.length

def readRight (operator : Operator) (left : Term) (tokens : List Token) :
    Option (Term × List Token) :=
  match operator with
  | .binary op => do
    let (right, rest) ← readExpr (operator.row + 1) tokens
    some (.binary op left right, rest)
  | .instanceOf => do
    let (className, rest) ← readClass tokens
    some (.instanceOf left className, rest)
  | .ternary =>
    andThen tokens (closed ":" (readExpr 0 tokens)) fun yes rest _ => do
      let (no, rest) ← readExpr (operator.row + 1) rest
      some (.ternary left yes no, rest)
termination_by 5 * tokens.length + 2

def readOperand (tokens : List Token) : Option (Term × List Token) :=
  match tokens with
  | [] => none
  | token :: rest =>
    match token.opening? with
    | none => none
    | some .group =>
      andThen rest (closed ")" (readExpr 0 rest)) fun inner rest _ => readTrailers inner rest
    | some .array =>
      andThen rest (readEntries "]" rest) fun entries rest _ => readTrailers (.array entries) rest
    | some .new =>
      andThen rest (closed "(" (readClass rest)) fun className rest _ => do
        let (arguments, rest) ← readArguments rest
        some (.new className arguments, rest)
    | some (.sign op) => do
      let (operand, rest) ← readExpr (leadRow op) rest
      some (.unary op operand, rest)
    | some (.cast typeName) => do
      let (operand, rest) ← readExpr (leadRow .clone) rest
      some (.cast typeName operand, rest)
    | some (.atom term) => readTrailers term rest
termination_by 5 * tokens.length

def readTrailers (left : Term) (tokens : List Token) : Option (Term × List Token) :=
  match tokens with
  | [] => some (left, [])
  | token :: rest =>
    match token.trailer? with
    | none => some (left, token :: rest)
    | some .index =>
      andThen rest (closed "]" (readExpr 0 rest)) fun position rest _ =>
        readTrailers (.index left position) rest
    | some .arrow =>
      andThen rest (readMember rest) fun member rest _ =>
        behind "(" rest
          (fun inner _ => andThen inner (readArguments inner) fun arguments rest _ =>
            readTrailers (.methodCall left member arguments) rest)
          (readTrailers (.property left member) rest)
    | some .colons =>
      andThen rest (readMember rest) fun member rest _ =>
        behind "(" rest
          (fun inner _ => andThen inner (readArguments inner) fun arguments rest _ =>
            readTrailers (.staticCall left member arguments) rest)
          (readTrailers (.staticMember left member) rest)
    | some .arguments =>
      andThen rest (readArguments rest) fun arguments rest _ =>
        readTrailers (.call left arguments) rest
termination_by 5 * tokens.length

def readMember (tokens : List Token) : Option (Member × List Token) :=
  match tokens with
  | .name name :: rest => some (.named name, rest)
  | .variable name :: rest => some (.variable name, rest)
  | rest =>
    behind "\x7b" rest
      (fun inner _ => do
        let (name, rest) ← closed "\x7d" (readExpr 0 inner)
        some (.computed name, rest))
      none
termination_by 5 * tokens.length

def readArguments (tokens : List Token) : Option (List Term × List Token) := do
  let (entries, rest) ← readEntries ")" tokens
  let arguments ← values? entries
  some (arguments, rest)
termination_by 5 * tokens.length + 4

def readEntries (close : String) (tokens : List Token) : Option (List Entry × List Token) :=
  behind close tokens (fun rest _ => some ([], rest))
    (andThen tokens (readEntry tokens) fun first rest _ => do
      let (others, rest) ← readMoreEntries close rest
      some (first :: others, rest))
termination_by 5 * tokens.length + 3

def readMoreEntries (close : String) (tokens : List Token) : Option (List Entry × List Token) :=
  behind close tokens (fun rest _ => some ([], rest))
    (behind "," tokens
      (fun inner _ => andThen inner (readEntry inner) fun next rest _ => do
        let (others, rest) ← readMoreEntries close rest
        some (next :: others, rest))
      none)
termination_by 5 * tokens.length

def readEntry (tokens : List Token) : Option (Entry × List Token) :=
  andThen tokens (readExpr 0 tokens) fun first rest _ =>
    behind "=>" rest
      (fun inner _ => do
        let (value, rest) ← readExpr 0 inner
        some (.pair first value, rest))
      (some (.value first, rest))
termination_by 5 * tokens.length + 2

end

def read (tokens : List Token) : Option Term :=
  match readExpr 0 tokens with
  | some (term, []) => some term
  | _ => none

end Zephir.Php
