import Zephir.Compile
import Zephir.Config
import Zephir.Render
import Zephir.Report

/-!
Why a run fails, in words and as reports.
-/

namespace Zephir

/-- Why a run fails. A refused input is kept, since its diagnostics may point into it. -/
inductive Failure
  | file (error : FileError)
  | config (error : ConfigError)
  | unreadable
  | refused (refusal : Refusal) (input : String)
  | unrendered (refusal : Refusal)
  | fault (fault : Fault)

namespace Failure

def ofCompile (input : String) : CompileError → Failure
  | .unreadable => .unreadable
  | .refused refusal => .refused refusal input

def ofRender : RenderError → Failure
  | .fault broken => .fault broken
  | .refused refusal => .unrendered refusal
  | .file error => .file error

def text : Failure → String
  | .file error => "I/O error: " ++ error.message
  | .config error => "Configuration error: " ++ error.message
  | .unreadable => "the input is no syntax tree"
  | .refused refusal _ => refusal.text
  | .unrendered refusal => refusal.text
  | .fault broken => broken.message

/-- The failure as reports, for source files in a tree: one for each diagnostic, or else a single
one. A fault is none of the user's doing and has no report. -/
def reports (tree : FileTree) (failure : Failure) : List Report :=
  match failure with
  | .refused refusal input => refusal.diagnostics.map (·.report tree (some input))
  | .unrendered refusal => refusal.diagnostics.map (·.report tree none)
  | .file _ => [{ message := failure.text, code := some "zep2php::io" }]
  | .config _ => [{ message := failure.text, code := some "zep2php::config" }]
  | .unreadable => [{ message := failure.text, severity := some .error }]
  | .fault _ => []

end Failure

end Zephir
