/-!
Methods on primitive values. Strings, arrays, characters and numbers take method calls in Zephir;
in PHP each of them is a function, which takes the receiver as one of its arguments.
-/

namespace Zephir

inductive PrimitiveType
  | array
  | char
  | int
  | double
  | string
  deriving DecidableEq

namespace PrimitiveType

def all : List PrimitiveType := [.array, .char, .int, .double, .string]

def name : PrimitiveType → String
  | .array => "array"
  | .char => "char"
  | .int => "int"
  | .double => "double"
  | .string => "string"

def ofName? (given : String) : Option PrimitiveType :=
  all.find? (·.name == given)

end PrimitiveType

/-- How many arguments a method takes besides its receiver. -/
inductive Arity
  | any
  | exactly (count : Nat)
  | range (least most : Nat)
  | atLeast (count : Nat)
  deriving DecidableEq

namespace Arity

def accepts : Arity → Nat → Bool
  | .any, _ => true
  | .exactly count, given => given == count
  | .range least most, given => least ≤ given && given ≤ most
  | .atLeast count, given => count ≤ given

def text : Arity → String
  | .any => "any number of"
  | .exactly count => toString count
  | .range least most => toString least ++ " to " ++ toString most
  | .atLeast count => "at least " ++ toString count

end Arity

inductive Placement
  | first
  | last
  | second
  | afterLiteral (text : String)
  deriving DecidableEq

structure PseudoMethod where
  name : String
  function : String
  arity : Arity
  placement : Placement
  deriving DecidableEq

namespace PseudoMethod

def plain (name function : String) : PseudoMethod :=
  ⟨name, function, .any, .first⟩

def checked (name function : String) (arity : Arity) : PseudoMethod :=
  ⟨name, function, arity, .first⟩

def ofArray : List PseudoMethod :=
  [
    .plain "combine" "array_combine",
    .plain "count" "count",
    .plain "current" "current",
    .plain "diff" "array_diff",
    .plain "each" "each",
    .plain "end" "end",
    .plain "fill" "array_fill",
    .plain "flip" "array_flip",
    .plain "haskey" "array_key_exists",
    .plain "intersect" "array_intersect",
    ⟨"join", "implode", .range 0 1, .last⟩,
    .plain "key" "key",
    .plain "keys" "array_keys",
    ⟨"map", "array_map", .atLeast 1, .second⟩,
    .plain "merge" "array_merge",
    .plain "mergerecursive" "array_merge_recursive",
    .plain "next" "next",
    .plain "pad" "array_pad",
    .plain "pop" "array_pop",
    .plain "prepend" "array_unshift",
    .plain "prev" "prev",
    .plain "push" "array_push",
    .plain "rand" "array_rand",
    .plain "reduce" "array_reduce",
    .plain "replace" "array_replace",
    .plain "replacerecursive" "array_replace_recursive",
    .plain "reset" "reset",
    .plain "rev" "array_reverse",
    .checked "reversed" "array_reverse" (.range 0 1),
    .plain "reversesort" "rsort",
    .plain "reversesortbykey" "krsort",
    .plain "shift" "array_shift",
    .plain "shuffle" "shuffle",
    .plain "slice" "array_slice",
    .plain "sort" "sort",
    .plain "sortbykey" "ksort",
    .plain "splice" "array_splice",
    .plain "split" "array_chunk",
    .plain "sum" "array_sum",
    .plain "tojson" "json_encode",
    .plain "unique" "array_unique",
    .plain "values" "array_values",
    .plain "walk" "array_walk"]

def ofChar : List PseudoMethod :=
  [
    ⟨"toHex", "sprintf", .exactly 0, .afterLiteral "%X"⟩]

def ofNumber : List PseudoMethod :=
  [
    .plain "abs" "abs",
    .plain "acos" "acos",
    .plain "asin" "asin",
    .plain "atan" "atan",
    .plain "cos" "cos",
    .plain "exp" "exp",
    .plain "log" "log",
    .plain "pow" "pow",
    .plain "sin" "sin",
    .plain "sqrt" "sqrt",
    .plain "tan" "tan",
    .plain "toBinary" "decbin",
    .plain "toHex" "dechex",
    .plain "toOctal" "decoct"]

def ofString : List PseudoMethod :=
  [
    .plain "camelize" "camelize",
    .checked "compare" "strcmp" (.exactly 1),
    .checked "compareLocale" "strcoll" (.exactly 1),
    .plain "format" "sprintf",
    .checked "htmlSpecialChars" "htmlspecialchars" (.range 0 3),
    .checked "index" "strpos" (.range 1 2),
    .checked "length" "strlen" (.exactly 0),
    .checked "lower" "strtolower" (.exactly 0),
    .checked "lowerFirst" "lcfirst" (.exactly 0),
    .checked "md5" "md5" (.range 0 1),
    .checked "nl2br" "nl2br" (.range 0 1),
    .checked "parseCsv" "str_getcsv" (.range 0 3),
    .checked "parseJson" "json_decode" (.range 0 3),
    .checked "repeat" "str_repeat" (.exactly 1),
    .checked "rev" "strrev" (.exactly 0),
    .checked "sha1" "sha1" (.range 0 1),
    .checked "shuffle" "str_shuffle" (.exactly 0),
    .checked "split" "str_split" (.range 0 1),
    .checked "toJson" "json_encode" (.range 0 2),
    .plain "toutf8" "utf8_encode",
    .checked "trim" "trim" (.range 0 1),
    .checked "trimLeft" "ltrim" (.range 0 1),
    .checked "trimRight" "rtrim" (.range 0 1),
    .plain "uncamelize" "uncamelize",
    .checked "upper" "strtoupper" (.exactly 0),
    .checked "upperFirst" "ucfirst" (.exactly 0)]

end PseudoMethod

namespace PrimitiveType

def methods : PrimitiveType → List PseudoMethod
  | .array => PseudoMethod.ofArray
  | .char => PseudoMethod.ofChar
  | .int => PseudoMethod.ofNumber
  | .double => PseudoMethod.ofNumber
  | .string => PseudoMethod.ofString

def method? (owner : PrimitiveType) (name : String) : Option PseudoMethod :=
  owner.methods.find? (·.name == name)

end PrimitiveType

/-- The types that PHP has a cast for. A cast to any other type only hints at the operand. -/
def castTypes : List String :=
  ["int", "integer", "bool", "boolean", "float", "double", "real", "string", "array", "object",
    "unset", "binary"]

end Zephir
