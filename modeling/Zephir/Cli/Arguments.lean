import Zephir.Text.Split

/-!
The arguments of the command line. An option with a value takes it from behind an equals sign,
from the rest of its short form, or from the next argument. An argument that is not known is
refused on the spot; everything else about an option is checked once the next thing after it is
reached.
-/

namespace Zephir

inductive OutputKind
  | php
  | ast
  deriving DecidableEq

def OutputKind.ofName? (name : String) : Option OutputKind :=
  match name with
  | "php" => some .php
  | "ast" => some .ast
  | _ => none

structure Arguments where
  input : String
  output : String := "-"
  config : Option String := none
  emit : OutputKind := .php
  logLevel : String := "info"
  deriving DecidableEq

inductive UsageError
  | missingArgument
  | unknownArgument
  | invalidValue
  | conflict
  | tooManyValues
  | displayHelp
  | displayVersion
  deriving DecidableEq

inductive ValueOption
  | output
  | config
  | emit
  | logLevel
  deriving DecidableEq

namespace ValueOption

def ofLong? (name : String) : Option ValueOption :=
  match name with
  | "output" => some .output
  | "config" => some .config
  | "emit" => some .emit
  | "log-level" => some .logLevel
  | _ => none

def ofShort? (name : Char) : Option ValueOption :=
  match name with
  | 'o' => some .output
  | 'c' => some .config
  | _ => none

def accepts (option : ValueOption) (value : String) : Bool :=
  match option with
  | .emit => (OutputKind.ofName? value).isSome
  | _ => true

end ValueOption

/-- The argument list as far as it has been read: the input, the options that are settled, and an
option that is not yet settled, with its value if that has come. -/
structure ArgumentsDraft where
  input : Option String := none
  settled : List (ValueOption × String) := []
  pending : Option (ValueOption × Option String) := none

namespace ArgumentsDraft

def assign (d : ArgumentsDraft) (option : ValueOption) (value : String) :
    Except UsageError ArgumentsDraft :=
  if (d.settled.lookup option).isSome then .error .conflict
  else if !option.accepts value then .error .invalidValue
  else .ok { d with settled := d.settled ++ [(option, value)] }

def settle (d : ArgumentsDraft) : Except UsageError ArgumentsDraft :=
  match d.pending with
  | none => .ok d
  | some (_, none) => .error .invalidValue
  | some (option, some value) => { d with pending := none }.assign option value

def takeOption (d : ArgumentsDraft) (option : ValueOption) (value : Option String) :
    Except UsageError ArgumentsDraft := do
  let d ← d.settle
  match value with
  | some value => d.assign option value
  | none => .ok { d with pending := some (option, none) }

def takeWish (d : ArgumentsDraft) (wish : UsageError) : Except UsageError ArgumentsDraft := do
  let _ ← d.settle
  .error wish

def takePlain (d : ArgumentsDraft) (value : String) : Except UsageError ArgumentsDraft :=
  if d.input.isSome then .error .unknownArgument
  else do
    let d ← d.settle
    .ok { d with input := some value }

def takeLong (d : ArgumentsDraft) (body : List Char) : Except UsageError ArgumentsDraft :=
  let (name, value) :=
    match Text.cutAt '=' body with
    | some (name, value) => (String.ofList name, some (String.ofList value))
    | none => (String.ofList body, none)
  match ValueOption.ofLong? name with
  | some option => d.takeOption option value
  | none =>
    match name, value with
    | "help", none => d.takeWish .displayHelp
    | "version", none => d.takeWish .displayVersion
    | "help", some _ => .error .tooManyValues
    | "version", some _ => .error .tooManyValues
    | _, _ => .error .unknownArgument

def attached? (rest : List Char) : Option String :=
  match rest with
  | [] => none
  | '=' :: value => some (String.ofList value)
  | value => some (String.ofList value)

def takeShort (d : ArgumentsDraft) (name : Char) (rest : List Char) :
    Except UsageError ArgumentsDraft :=
  match ValueOption.ofShort? name with
  | some option => d.takeOption option (attached? rest)
  | none =>
    match name with
    | 'h' => d.takeWish .displayHelp
    | 'V' => d.takeWish .displayVersion
    | _ => .error .unknownArgument

def take (d : ArgumentsDraft) (argument : String) : Except UsageError ArgumentsDraft :=
  match argument.toList with
  | '-' :: '-' :: body => d.takeLong body
  | '-' :: name :: rest => d.takeShort name rest
  | _ =>
    match d.pending with
    | some (option, none) => .ok { d with pending := some (option, some argument) }
    | _ => d.takePlain argument

/-- Takes all arguments. After a double dash none of them is an option. -/
def takeAll (d : ArgumentsDraft) : List String → Except UsageError ArgumentsDraft
  | [] => .ok d
  | "--" :: rest => rest.foldlM takePlain d
  | argument :: rest => do
    let d ← d.take argument
    d.takeAll rest

def finish (d : ArgumentsDraft) : Except UsageError Arguments := do
  let d ← d.settle
  match d.input with
  | none => .error .missingArgument
  | some input =>
    .ok {
      input
      output := (d.settled.lookup .output).getD "-"
      config := d.settled.lookup .config
      emit := ((d.settled.lookup .emit).bind OutputKind.ofName?).getD .php
      logLevel := (d.settled.lookup .logLevel).getD "info" }

end ArgumentsDraft

def Arguments.parse (arguments : List String) : Except UsageError Arguments := do
  let d ← ArgumentsDraft.takeAll {} arguments
  d.finish

end Zephir
