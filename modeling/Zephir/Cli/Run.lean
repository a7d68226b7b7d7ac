import Zephir.Cli.Arguments
import Zephir.Cli.Failure

/-!
A run: it finds its configuration, reads and compiles the input, and writes the output. Everything
happens in a tree of files and on a console, both of which are values.
-/

namespace Zephir

def configPaths (userDirectory : String) : List String :=
  ["zep2php/config.toml", userDirectory ++ "/zep2php/config.toml"]

def readConfig (tree : FileTree) (path : String) : Except Failure Config :=
  if !tree.exists? path then .error (.config (.missing path))
  else
    match tree.read path with
    | .error e => .error (.file e)
    | .ok text => (Config.ofFile text).mapError .config

/-- The configuration of a run: the one that was asked for, or else the first one found, or else
an empty one. -/
def findConfig (tree : FileTree) (paths : List String) (wanted : Option String) :
    Except Failure Config :=
  match wanted with
  | some path => readConfig tree path
  | none =>
    match paths.find? tree.isFile with
    | some path => readConfig tree path
    | none => .ok {}

def writeUnit {σ : Type} (kind : OutputKind) (layout : Layout) (sink : Sink σ) (state : σ)
    (target : String) (unit : List Node) : σ × Except RenderError Unit :=
  match kind with
  | .php => renderInto layout sink state target unit
  | .ast =>
    let events := .start target :: (Text.lines (dumpUnit unit)).map .write
    let closed := (Delivery.deliverAll sink { state } events).close sink
    match closed.failure with
    | some e => (closed.state, .error (.file e))
    | none => (closed.state, .ok ())

structure RunResult where
  tree : FileTree
  printed : String := ""
  outcome : Except Failure Unit

def compileInput (input : String) : Except Failure (List Node) :=
  match compile input with
  | .error e => .error (.ofCompile input e)
  | .ok compiled => .ok compiled.unit

def produce (kind : OutputKind) (config : Config) (target input : String) :
    Except Failure String :=
  match compileInput input with
  | .error failure => .error failure
  | .ok unit =>
    match writeUnit kind config.layout consoleSink "" target unit with
    | (text, .ok ()) => .ok text
    | (_, .error e) => .error (.ofRender e)

def prepare (tree : FileTree) (paths : List String) (arguments : Arguments) :
    Except Failure (Layout × List Node) := do
  let config ← findConfig tree paths arguments.config
  match tree.read arguments.input with
  | .error e => .error (.file e)
  | .ok input =>
    let unit ← compileInput input
    return (config.layout, unit)

def run (tree : FileTree) (paths : List String) (arguments : Arguments) : RunResult :=
  match prepare tree paths arguments with
  | .error failure => { tree, outcome := .error failure }
  | .ok (layout, unit) =>
    if arguments.output = "-" then
      let (printed, outcome) :=
        writeUnit arguments.emit layout consoleSink "" arguments.output unit
      { tree, printed, outcome := outcome.mapError Failure.ofRender }
    else
      let (file, outcome) :=
        writeUnit arguments.emit layout (fileSink arguments.output) { tree } arguments.output unit
      { tree := file.tree, outcome := outcome.mapError Failure.ofRender }

end Zephir
