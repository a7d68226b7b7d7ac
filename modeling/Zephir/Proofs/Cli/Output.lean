import Zephir.Proofs.Emit.Sinks

/-!
A run writes its whole output or nothing. Whatever fails before the output is complete leaves the
files as they were, since a file is only written once all of its lines are there.
-/

namespace Zephir

/-- The text that a run is to store, or why there is none. -/
def produced (tree : FileTree) (paths : List String) (arguments : Arguments) :
    Except Failure String :=
  match prepare tree paths arguments with
  | .error failure => .error failure
  | .ok (layout, unit) => (unitText arguments.emit layout unit).mapError .ofRender

section Runs

variable {tree : FileTree} {paths : List String} {arguments : Arguments}

theorem run_of_unprepared {failure : Failure}
    (failed : prepare tree paths arguments = .error failure) :
    run tree paths arguments = { tree, outcome := .error failure } := by
  rw [run, failed]

theorem run_of_prepared {layout : Layout} {unit : List Node} (toFile : arguments.output ≠ "-")
    (prepared : prepare tree paths arguments = .ok (layout, unit)) :
    run tree paths arguments =
      let written := writeUnit arguments.emit layout (fileSink arguments.output) { tree }
        arguments.output unit
      { tree := written.1.tree, outcome := written.2.mapError Failure.ofRender } := by
  rw [run, prepared]
  exact if_neg toFile

theorem run_of_unproduced {failure : Failure} (toFile : arguments.output ≠ "-")
    (failed : produced tree paths arguments = .error failure) :
    run tree paths arguments = { tree, outcome := .error failure } := by
  rw [produced] at failed
  split at failed
  · rename_i unprepared
    cases failed
    exact run_of_unprepared unprepared
  · rename_i layout unit prepared
    rw [unitText_eq_lines] at failed
    cases made : unitLines arguments.emit layout unit with
    | ok lines => simp [made, Except.map, Except.mapError] at failed
    | error e =>
        rw [made] at failed
        cases failed
        obtain ⟨events, stopped⟩ :=
          writeUnit_of_error made (fileSink arguments.output) { tree } arguments.output
        rw [run_of_prepared toFile prepared, stopped]
        dsimp only
        rw [tree_deliverAll_fileSink]
        rfl

/-- With a text all that is left to do is to close the sink that has gathered it. -/
theorem run_of_produced {text : String} (toFile : arguments.output ≠ "-")
    (made : produced tree paths arguments = .ok text) :
    run tree paths arguments =
      let closed := Delivery.close (fileSink arguments.output) { state := { tree, buffer := text } }
      { tree := closed.state.tree, outcome := closed.result.2.mapError Failure.ofRender } := by
  rw [produced] at made
  split at made
  · cases made
  · rename_i layout unit prepared
    rw [unitText_eq_lines] at made
    cases lines : unitLines arguments.emit layout unit with
    | error e => simp [lines, Except.map, Except.mapError] at made
    | ok written =>
        rw [lines] at made
        cases made
        rw [run_of_prepared toFile prepared, writeUnit_of_lines lines, send_fileSink]
        dsimp only
        generalize Delivery.close (fileSink arguments.output) _ = closed
        obtain ⟨final, failure⟩ := closed
        cases failure <;> rfl

theorem stored_of_run (toFile : arguments.output ≠ "-")
    (succeeded : (run tree paths arguments).outcome = .ok ()) :
    ∃ text, produced tree paths arguments = .ok text ∧
      FileTree.Stored tree (run tree paths arguments).tree arguments.output text := by
  cases made : produced tree paths arguments with
  | error failure =>
      rw [run_of_unproduced toFile made] at succeeded
      cases succeeded
  | ok text =>
      refine ⟨text, rfl, ?_⟩
      rw [run_of_produced toFile made] at succeeded ⊢
      dsimp only at succeeded ⊢
      generalize closed : Delivery.close (fileSink arguments.output) _ = d at succeeded ⊢
      obtain ⟨final, failure⟩ := d
      cases failure with
      | some e => cases succeeded
      | none => exact stored_of_close closed

/-- A run into a file stores the whole text of its input or leaves the files alone, and the text is
the same in every sink. -/
theorem run_stores_all_or_nothing (tree : FileTree) (paths : List String)
    (arguments : Arguments) (toFile : arguments.output ≠ "-") :
    (∀ failure, produced tree paths arguments = .error failure →
      run tree paths arguments = { tree, outcome := .error failure }) ∧
    ((run tree paths arguments).outcome = .ok () →
      ∃ text, produced tree paths arguments = .ok text ∧
        FileTree.Stored tree (run tree paths arguments).tree arguments.output text) ∧
    ∀ layout unit, SinksAgree layout unit :=
  ⟨fun _ failed => run_of_unproduced toFile failed, stored_of_run toFile, sinksAgree⟩

end Runs

def inputTree (input : String) : FileTree :=
  ⟨[([".", "in.json"], .file input)]⟩

def inputRun (emit : OutputKind) (output : String) : Arguments :=
  { input := "in.json", output, config := none, emit, logLevel := "info" }

theorem read_inputTree (input : String) : (inputTree input).read "in.json" = .ok input := by
  have found : TreePath.ofString "in.json" = .ok ⟨false, [], some "in.json", false⟩ := rfl
  rw [FileTree.read, FileTree.lookUp, found]
  rfl

theorem compile_dumpUnit {unit : List Node} {compiled : Compiled}
    (shallow : (Json.array (unit.map Node.toJson)).depth ≤ Json.depthLimit)
    (compiles : compileUnit unit = .ok compiled) : compile (dumpUnit unit) = .ok compiled := by
  simp only [compile, load_dumpUnit unit shallow, compiles]
  rfl

theorem produced_inputRun {input : String} {compiled : Compiled} (emit : OutputKind)
    (output : String) (compiles : compile input = .ok compiled) :
    produced (inputTree input) [] (inputRun emit output) =
      (unitText emit ({} : Config).layout compiled.unit).mapError .ofRender := by
  have given : (inputTree input).read (inputRun emit output).input = .ok input :=
    read_inputTree input
  have prepared : prepare (inputTree input) [] (inputRun emit output) =
      .ok (({} : Config).layout, compiled.unit) := by
    simp only [prepare, given, compileInput, compiles]
    rfl
  simp only [produced, prepared]
  rfl

def functionUnit (body : List Statement) : List Node :=
  [⟨.functionDecl ⟨"f", [], body, .empty, none⟩, {}, []⟩]

def echoUnit : List Node :=
  functionUnit [⟨.echo [.str "Hi" {}], {}, []⟩]

def commentUnit : List Node :=
  functionUnit [⟨.echo [.str "Hi" {}], {}, []⟩,
    ⟨.ret (some (.plain (.closure [] [⟨.comment "* Note ", {}, []⟩] .empty) {})), {}, []⟩]

theorem fault_functionUnit (layout : Layout) (body : List Statement) :
    (Emitter.run layout {} (Php.unit (functionUnit body)).ops).fault = none :=
  Php.fault_eq_none_of_functions layout (by simp [functionUnit])

/-- The text of the one unit is stored in a new directory. The other one fails in generation, when
its first lines have been made. -/
theorem functionRuns_stored_or_kept :
    (inputRun .php "out/a.php").output ≠ "-" ∧
    (let tree := inputTree (dumpUnit echoUnit)
      ∃ text, Text.withoutBlanks text = "<?phpfunctionf()\x7becho'Hi';\x7d".toList ∧
        produced tree [] (inputRun .php "out/a.php") = .ok text ∧
        (run tree [] (inputRun .php "out/a.php")).outcome = .ok () ∧
        FileTree.Stored tree (run tree [] (inputRun .php "out/a.php")).tree "out/a.php" text) ∧
    (let tree := inputTree (dumpUnit commentUnit)
      ∃ d : Diagnostic, d.code = some .e003 ∧
        produced tree [] (inputRun .php "out/a.php") = .error (.unrendered (.single d)) ∧
        run tree [] (inputRun .php "out/a.php") =
          { tree, outcome := .error (.unrendered (.single d)) }) := by
  have toFile : (inputRun .php "out/a.php").output ≠ "-" := by decide
  refine ⟨toFile, ?_, ?_⟩
  · intro tree
    have compiles : compile (dumpUnit echoUnit) = .ok ⟨echoUnit, []⟩ :=
      compile_dumpUnit (by decide +kernel) rfl
    have calm : (Emitter.run ({} : Config).layout {} (Php.unit echoUnit).ops).fault = none :=
      fault_functionUnit _ _
    obtain ⟨text, rendered, inked⟩ := renderPhp_text calm rfl
    have made : produced tree [] (inputRun .php "out/a.php") = .ok text := by
      rw [produced_inputRun .php "out/a.php" compiles, unitText, rendered]
      rfl
    have succeeded : (run tree [] (inputRun .php "out/a.php")).outcome = .ok () := by
      rw [run_of_produced toFile made]
      rfl
    obtain ⟨stored, same, kept⟩ :=
      (run_stores_all_or_nothing tree [] (inputRun .php "out/a.php") toFile).2.1 succeeded
    obtain rfl := Except.ok.inj (made.symm.trans same)
    exact ⟨text, inked.trans (by decide +kernel), made, succeeded, kept⟩
  · intro tree
    have compiles : compile (dumpUnit commentUnit) = .ok ⟨commentUnit, []⟩ :=
      compile_dumpUnit (by decide +kernel) rfl
    have calm : (Emitter.run ({} : Config).layout {} (Php.unit commentUnit).ops).fault = none :=
      fault_functionUnit _ _
    obtain ⟨d, failed, code⟩ :
        ∃ d : Diagnostic, (Php.unit commentUnit).failure = some d ∧ d.code = some .e003 :=
      ⟨_, rfl, rfl⟩
    have refused : produced tree [] (inputRun .php "out/a.php") =
        .error (.unrendered (.single d)) := by
      rw [produced_inputRun .php "out/a.php" compiles, unitText, renderPhp_of_failure calm failed]
      rfl
    exact ⟨d, code, refused,
      (run_stores_all_or_nothing tree [] (inputRun .php "out/a.php") toFile).1 _ refused⟩

theorem deviceRun_keeps_nothing :
    (inputRun .ast "/dev/null").output ≠ "-" ∧
      (run (inputTree "[]") [] (inputRun .ast "/dev/null")).outcome.isOk = true ∧
      (run (inputTree "[]") [] (inputRun .ast "/dev/null")).tree.nodes = (inputTree "[]").nodes ∧
      ((run (inputTree "[]") [] (inputRun .ast "/dev/null")).tree.read "/dev/null").toOption =
        some "" ∧
      (produced (inputTree "[]") [] (inputRun .ast "/dev/null")).toOption = some "[]\n" := by
  decide +kernel

end Zephir
