import Zephir.OrderedMap
import Zephir.Text.Blank
import Zephir.Text.Split

/-!
The layout of PHP text: a table from dotted keys to flags and numbers. Keys of the family `spaces`
say whether a blank stands before or after an operator, keys of `newlines` whether a line ends
there. A lookup starts with the most specific key and goes on to its parents, so a short key covers
every side and context of an operator for which there is no longer one.
-/

namespace Zephir

inductive Setting
  | flag (value : Bool)
  | number (value : Int)
  deriving DecidableEq

namespace Setting

/-- The setting as a flag; a number is on unless it is zero. -/
def asFlag : Setting → Bool
  | .flag value => value
  | .number value => value != 0

def number? : Setting → Option Int
  | .flag _ => none
  | .number value => some value

end Setting

/-- What a layout says about an operator. No opinion about a blank leaves it to the token before. -/
structure Spacing where
  spaceBefore : Option Bool
  spaceAfter : Option Bool
  newlineBefore : Bool
  newlineAfter : Bool
  deriving DecidableEq

structure Layout where
  settings : OrderedMap Setting

namespace Layout

def empty : Layout := ⟨.empty⟩

def override (layout : Layout) (settings : List (String × Setting)) : Layout :=
  ⟨layout.settings.insertAll settings⟩

/-- An operator as a part of a key; a leading dot would cut the key and is spelled out. -/
def operatorKey (op : String) : String :=
  match op.toList with
  | '.' :: rest => "dot" ++ String.ofList rest
  | _ => op

def spacedOperators : List String :=
  ["=", "+=", "-=", "*=", "/=", ".=", "%=", "+", "-", "*", "/", "%", ".", "|", "&", "^", "<<",
    ">>", "==", "!=", "===", "!==", "&&", "||", "<", "<=", ">", ">=", "?", ":", "=>", "as",
    "instanceof", "extends", "implements"]

def standardSettings : List (String × Setting) := [
  ("indent.tabs", .flag false),
  ("indent.spaces", .number 4),
  ("indent.max_levels", .number 20),
  ("spaces.\x7b.before", .flag true),
  ("newlines.\x7b.before.class", .flag true),
  ("newlines.\x7b.before.interface", .flag true),
  ("newlines.\x7b.before.method", .flag true),
  ("newlines.\x7b.before.function", .flag true),
  ("newlines.\x7b.after", .flag true),
  ("spaces.\x7d.after", .flag true),
  ("newlines.\x7d.before", .flag true),
  ("newlines.\x7d.after", .flag true),
  ("newlines.\x7d.after.chain", .flag false),
  ("newlines.\x7d.after.closure", .flag false),
  ("spaces.(", .flag false),
  ("spaces.(.before.control", .flag true),
  ("spaces.(.before.closure", .flag true),
  ("spaces.).before", .flag false),
  ("spaces.[.before.index", .flag false),
  ("spaces.[.after", .flag false),
  ("spaces.].before", .flag false),
  ("spaces.,.before", .flag false),
  ("spaces.,.after", .flag true),
  ("spaces.;.before", .flag false),
  ("spaces.;.after.for", .flag true),
  ("newlines.;.after.statement", .flag true),
  ("spaces.:.before.case", .flag false),
  ("newlines.:.after.case", .flag true),
  ("spaces.->", .flag false),
  ("spaces.::", .flag false),
  ("spaces.++.before", .flag false),
  ("spaces.--.before", .flag false),
  ("newlines.namespace", .flag true),
  ("newlines.use", .flag true),
  ("newlines.function", .flag true),
  ("newlines.class", .flag true),
  ("newlines.class.section", .flag true),
  ("newlines.method", .flag true)]

def standard : Layout :=
  (empty.override (spacedOperators.map fun op => ("spaces." ++ operatorKey op, .flag true))).override
    standardSettings

/-- The path with its first bar turned into a dot. -/
def dotted (path : List Char) : List Char :=
  match Text.cutAt '|' path with
  | some (before, after) => before ++ '.' :: after
  | none => path

/-- The parts of a path: all that stands before the first bar is one part, and the rest is cut at
its dots. -/
def parts (path : List Char) : List (List Char) :=
  match Text.cutAt '|' path with
  | some (before, after) => before :: Text.pieces '.' after
  | none => Text.pieces '.' path

def parents (parts : List (List Char)) : List (List Char) :=
  ((List.range (parts.length - 1)).map fun n =>
    ['.'].intercalate (parts.take (n + 1))).reverse

/-- The keys that answer for a path, in the order in which they are asked. A bar at the end asks
for the exact key only. -/
def keys (path : String) : List String :=
  let path := Text.trimChars path.toList
  (match Text.beforeLast? '|' path with
  | some exact => [dotted exact]
  | none => dotted path :: parents (parts path)).map String.ofList

def get? (layout : Layout) (path : String) : Option Setting :=
  (keys path).findSome? layout.settings.get?

def flag? (layout : Layout) (path : String) : Option Bool :=
  (layout.get? path).map Setting.asFlag

def number? (layout : Layout) (path : String) : Option Int :=
  (layout.get? path).bind Setting.number?

def sidePath (family op side : String) (context : Option String) : String :=
  family ++ "." ++ operatorKey op ++ "|" ++ side ++
    (match context with
    | some context => "." ++ context
    | none => "")

def spacing (layout : Layout) (op : String) (context : Option String) : Spacing where
  spaceBefore := layout.flag? (sidePath "spaces" op "before" context)
  spaceAfter := layout.flag? (sidePath "spaces" op "after" context)
  newlineBefore := (layout.flag? (sidePath "newlines" op "before" context)).getD false
  newlineAfter := (layout.flag? (sidePath "newlines" op "after" context)).getD false

/-- One level of indentation: a tab, or up to ten blanks. -/
def indentUnit (layout : Layout) : String :=
  if (layout.flag? "indent.tabs|").getD false then "\t"
  else
    let blanks := min ((layout.number? "indent.spaces|").getD 0).toNat 10
    String.ofList (List.replicate blanks ' ')

def maxLevels? (layout : Layout) : Option Nat :=
  match layout.number? "indent.max_levels|" with
  | some levels => if 0 ≤ levels then some levels.toNat else none
  | none => none

def numericKeys : List String :=
  ["indent.spaces", "indent.max_levels"]

def problem? : List (String × Setting) → Option String
  | [] => none
  | (key, value) :: rest =>
    match numericKeys.contains key, value with
    | true, .number n =>
      if 0 ≤ n then problem? rest else some ("`" ++ key ++ "` expects a non-negative number")
    | true, .flag _ => some ("`" ++ key ++ "` expects a non-negative number")
    | false, .flag _ => problem? rest
    | false, .number _ => some ("`" ++ key ++ "` expects `true` or `false`")

end Layout

end Zephir
