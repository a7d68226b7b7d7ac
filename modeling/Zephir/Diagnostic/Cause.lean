import Zephir.PseudoMethod

/-!
What can go wrong with a unit: the causes, their codes, and the words for them.
-/

namespace Zephir

inductive ErrorCode
  | e001
  | e002
  | e003
  | e100
  | e200
  | e201
  | e202
  | e300
  | e301
  | e302
  | e303
  | e304
  | e305
  | e306
  | e400
  deriving DecidableEq

namespace ErrorCode

def all : List ErrorCode :=
  [.e001, .e002, .e003, .e100, .e200, .e201, .e202, .e300, .e301, .e302, .e303, .e304, .e305,
    .e306, .e400]

def text : ErrorCode → String
  | .e001 => "E001"
  | .e002 => "E002"
  | .e003 => "E003"
  | .e100 => "E100"
  | .e200 => "E200"
  | .e201 => "E201"
  | .e202 => "E202"
  | .e300 => "E300"
  | .e301 => "E301"
  | .e302 => "E302"
  | .e303 => "E303"
  | .e304 => "E304"
  | .e305 => "E305"
  | .e306 => "E306"
  | .e400 => "E400"

def description : ErrorCode → String
  | .e001 => "parser error"
  | .e002 => "malformed syntax tree"
  | .e003 => "unhandled node kind"
  | .e100 => "duplicate member definition"
  | .e200 => "duplicate shortcut"
  | .e201 => "shortcut method collision"
  | .e202 => "unknown shortcut"
  | .e300 => "invalid pseudo-method"
  | .e301 => "pseudo-method arity mismatch"
  | .e302 => "closure side effect"
  | .e303 => "invalid method visibility"
  | .e304 => "conflicting method visibility"
  | .e305 => "unsupported builtin instantiation"
  | .e306 => "unsupported temporary type"
  | .e400 => "invalid assignment target"

end ErrorCode

inductive MemberSection
  | constant
  | property
  | method
  deriving DecidableEq

def MemberSection.noun : MemberSection → String
  | .constant => "constant"
  | .property => "property"
  | .method => "method"

inductive Cause
  | parser (message : String)
  | malformedNode (message : String)
  | unhandledNodeKind (kind : String)
  | duplicateDefinition (group : MemberSection) (name : String)
  | duplicateShortcut (shortcut property : String)
  | methodCollision (name property : String) (generatedBy : Option String)
  | unknownShortcut (shortcut property : String)
  | invalidPseudoCall (method : String) (owner : PrimitiveType)
  | invalidPseudoCallArity (function : String) (expected : Arity) (actual : Nat)
  | closureSideEffect
  | invalidVisibility (modifier method : String)
  | conflictingVisibility (method first second : String)
  | unsupportedNewType (dataType : String)
  | unsupportedTemporaryType (dataType : String)
  | invalidAssignTarget (statement target : String)
  deriving DecidableEq

namespace Cause

def message : Cause → String
  | .parser message => "parser error: " ++ message
  | .malformedNode message => "malformed syntax tree: " ++ message
  | .unhandledNodeKind kind => "no handler for node kind `" ++ kind ++ "`"
  | .duplicateDefinition group name =>
    "duplicate " ++ group.noun ++ " `" ++ name ++ "` definition"
  | .duplicateShortcut shortcut property =>
    "shortcut `" ++ shortcut ++ "` is used multiple times on property `" ++ property ++ "`"
  | .methodCollision name property _ =>
    "shortcut method `" ++ name ++ "` for property `" ++ property ++ "` already exists"
  | .unknownShortcut shortcut property =>
    "unknown shortcut `" ++ shortcut ++ "` on property `" ++ property ++ "`"
  | .invalidPseudoCall method owner =>
    "method `" ++ method ++ "` is not valid for a `" ++ owner.name ++ "` value"
  | .invalidPseudoCallArity function expected actual =>
    "`" ++ function ++ "` expects " ++ expected.text ++ " argument(s), got " ++ toString actual
  | .closureSideEffect => "a single-expression closure can't have side effects"
  | .invalidVisibility modifier method =>
    "unhandled visibility `" ++ modifier ++ "` on method `" ++ method ++ "`"
  | .conflictingVisibility method first second =>
    "method `" ++ method ++ "` is declared both `" ++ first ++ "` and `" ++ second ++ "`"
  | .unsupportedNewType dataType => "cannot instantiate builtin type `" ++ dataType ++ "`"
  | .unsupportedTemporaryType dataType =>
    "no temporary variable prefix for type `" ++ dataType ++ "`"
  | .invalidAssignTarget statement target =>
    "`" ++ statement ++ "` cannot write to a `" ++ target ++ "` location"

def code : Cause → ErrorCode
  | .parser _ => .e001
  | .malformedNode _ => .e002
  | .unhandledNodeKind _ => .e003
  | .duplicateDefinition .. => .e100
  | .duplicateShortcut .. => .e200
  | .methodCollision .. => .e201
  | .unknownShortcut .. => .e202
  | .invalidPseudoCall .. => .e300
  | .invalidPseudoCallArity .. => .e301
  | .closureSideEffect => .e302
  | .invalidVisibility .. => .e303
  | .conflictingVisibility .. => .e304
  | .unsupportedNewType _ => .e305
  | .unsupportedTemporaryType _ => .e306
  | .invalidAssignTarget .. => .e400

def note : Cause → String
  | .parser _ => "parsing stopped here"
  | .malformedNode _ => "in this node"
  | .unhandledNodeKind _ => "this node"
  | .duplicateDefinition .. => "defined again here"
  | .duplicateShortcut .. => "repeated shortcut"
  | .methodCollision .. => "shortcut declared here"
  | .unknownShortcut .. => "unknown shortcut"
  | .invalidPseudoCall .. => "called here"
  | .invalidPseudoCallArity .. => "called here"
  | .closureSideEffect => "in this closure"
  | .invalidVisibility .. => "in this method"
  | .conflictingVisibility .. => "in this method"
  | .unsupportedNewType _ => "instantiated here"
  | .unsupportedTemporaryType _ => "needed here"
  | .invalidAssignTarget .. => "assigned here"

def help? : Cause → Option String
  | .duplicateDefinition group _ =>
    some ("remove the duplicate or rename one " ++ group.noun)
  | .methodCollision _ _ (some other) =>
    some ("the existing method is generated by a shortcut on property `" ++ other ++ "`")
  | .methodCollision _ _ none => some "rename the hand-written method or drop the shortcut"
  | .unknownShortcut .. => some "supported shortcuts are `get`, `set` and `toString`"
  | .closureSideEffect => some "write the closure with a statement body instead"
  | .unhandledNodeKind _ => some "the node must be lowered by the normalizer first"
  | _ => none

end Cause

end Zephir
