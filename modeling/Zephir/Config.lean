import Zephir.Json.Fields
import Zephir.Layout
import Zephir.Toml.Document
import Zephir.Word

/-!
The configuration of a run: settings that take the place of those in the standard layout. A
configuration is written as a TOML or JSON document with a table `layout` of flags and numbers;
whatever else stands in the document is ignored.
-/

namespace Zephir

structure Config where
  overrides : OrderedMap Setting := .empty

inductive ConfigError
  | malformed
  | missing (path : String)
  | invalid (problem : String)
  deriving DecidableEq

def ConfigError.message : ConfigError → String
  | .malformed => "Failed to parse TOML configuration"
  | .missing path => "Missing configuration file: " ++ path
  | .invalid problem => "Invalid layout value: " ++ problem

namespace Config

def layout (config : Config) : Layout :=
  Layout.standard.override config.overrides.entries

def problem? (config : Config) : Option String :=
  Layout.problem? config.overrides.entries

def changesLayout (config : Config) : Bool :=
  config.layout.settings.entries != Layout.standard.settings.entries

def settingOfJson? : Json → Option Setting
  | .bool value => some (.flag value)
  | json => json.int64?.map .number

def ofLayoutDraft? (draft : JsonDraft) : Option Config := do
  let json ← Json.ofDraft? draft
  let entries ← json.map? settingOfJson?
  return ⟨.ofList entries⟩

/-- Reads a JSON document. Fields other than `layout` need to be well-formed only. An array stands
for the object that has its item as `layout`. -/
def ofDraft? : JsonDraft → Option Config
  | .array [] => some {}
  | .array [draft] => ofLayoutDraft? draft
  | .object fields => do
    let named ← fields.mapM fun field => (JsonDraft.text? field.1).map (·, field.2)
    match named.filter (·.1 == "layout") with
    | [] => some {}
    | [field] => ofLayoutDraft? field.2
    | _ => none
  | _ => none

def ofJson? (text : String) : Option Config := do
  ofDraft? (← JsonDraft.parse? text)

def settingOfToml? : Toml → Option Setting
  | .bool value => some (.flag value)
  | .int value => if fitsInt64 value then some (.number value) else none
  | _ => none

/-- Reads a TOML text; its settings are ordered by their keys. Numbers have to be within their range
wherever they stand. -/
def ofToml? (text : String) : Option Config := do
  let table ← Toml.parse? text
  if !Toml.entriesInRange table then none
  match table.lookup "layout" with
  | none => some {}
  | some (.table _ entries) =>
    let settings ← entries.mapM fun entry => (settingOfToml? entry.2).map (entry.1, ·)
    return ⟨.ofList (settings.mergeSort fun a b => decide (a.1 ≤ b.1))⟩
  | some _ => none

def ofFile (text : String) : Except ConfigError Config :=
  match ofToml? text with
  | none => .error .malformed
  | some config =>
    match config.problem? with
    | some problem => .error (.invalid problem)
    | none => .ok config

end Config

end Zephir
