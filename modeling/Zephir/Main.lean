import Zephir.Cli.Run

/-!
The command line: it reads the configuration and the input, and writes the output where the
arguments say.
-/

namespace Zephir.CommandLine

def usage : String :=
  "Usage: zep2php [OPTIONS] <INPUT>\n\n" ++
  "Arguments:\n  <INPUT>  Path to the input file\n\n" ++
  "Options:\n" ++
  "  -o, --output <OUTPUT>        Path to the output file, `-` for standard output [default: -]\n" ++
  "  -c, --config <CONFIG>        Path to configuration file (TOML)\n" ++
  "      --emit <EMIT>            What to write [default: php] [possible values: php, ast]\n" ++
  "      --log-level <LOG_LEVEL>  Log level (off, error, warn, info, debug, trace)\n" ++
  "  -h, --help                   Print help\n" ++
  "  -V, --version                Print version"

def version : String :=
  "zep2php 0.1.0"

def complaint : UsageError → String
  | .missingArgument => "the input file was not given"
  | .unknownArgument => "an argument is not known"
  | .invalidValue => "an option has no value, or one that it does not take"
  | .conflict => "an option was given twice"
  | .tooManyValues => "an option that takes no value was given one"
  | .displayHelp => usage
  | .displayVersion => version

def readText (path : String) : IO (Except FileError String) := do
  try
    return .ok (← IO.FS.readFile path)
  catch
    | .noFileOrDirectory .. => return .error .notFound
    | e => return .error (.other (toString e))

def writeText (path text : String) : IO (Except FileError Unit) := do
  try
    match Text.beforeLast? '/' (path.toList.reverse.dropWhile (· != '/')).reverse with
    | some (first :: rest) => IO.FS.createDirAll (String.ofList (first :: rest))
    | _ => pure ()
    IO.FS.writeFile path text
    return .ok ()
  catch e => return .error (.other (toString e))

def userDirectory : IO String := do
  match ← IO.getEnv "XDG_CONFIG_HOME" with
  | some directory => return directory
  | none => return (← IO.getEnv "HOME").getD "" ++ "/.config"

def loadConfig (wanted : Option String) : IO (Except Failure Config) := do
  match wanted with
  | some path =>
    match ← readText path with
    | .error .notFound => return .error (.config (.missing path))
    | .error e => return .error (.file e)
    | .ok text => return (Config.ofFile text).mapError .config
  | none =>
    for path in configPaths (← userDirectory) do
      if let .ok text ← readText path then
        return (Config.ofFile text).mapError .config
    return .ok {}

def execute (arguments : Arguments) : IO (Except Failure Unit) := do
  match ← loadConfig arguments.config with
  | .error failure => return .error failure
  | .ok config =>
    match ← readText arguments.input with
    | .error e => return .error (.file e)
    | .ok input =>
      match produce arguments.emit config arguments.output input with
      | .error failure => return .error failure
      | .ok text =>
        if arguments.output = "-" then
          IO.print text
          return .ok ()
        else
          return (← writeText arguments.output text).mapError .file

end Zephir.CommandLine

open Zephir Zephir.CommandLine in
def main (arguments : List String) : IO UInt32 := do
  match Arguments.parse arguments with
  | .error .displayHelp =>
    IO.println usage
    return 0
  | .error .displayVersion =>
    IO.println version
    return 0
  | .error e =>
    IO.eprintln (complaint e)
    return 2
  | .ok arguments =>
    match ← execute arguments with
    | .ok () => return 0
    | .error failure =>
      IO.eprintln failure.text
      return 1
