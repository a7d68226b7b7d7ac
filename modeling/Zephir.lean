import Zephir.Text.Blank
import Zephir.Text.Split
import Zephir.Text.UpperCase
import Zephir.OrderedMap
import Zephir.Word
import Zephir.Decimal.Shortest
import Zephir.Json.Draft
import Zephir.Json.Pretty
import Zephir.Syntax.Decode
import Zephir.Syntax.Encode
import Zephir.Diagnostic.Basic
import Zephir.Load
import Zephir.Compaction
import Zephir.Phase.Comments
import Zephir.Phase.Accessors
import Zephir.Lowering.Tree
import Zephir.Lowering.Visibility
import Zephir.Compile
import Zephir.Emit.Sink
import Zephir.Render
import Zephir.Report
import Zephir.Config
import Zephir.Cli.Run
import Zephir.Main
import Zephir.Proofs.Php.Grouping
import Zephir.Proofs.Lowering.ControlFlow
import Zephir.Proofs.Compile.MemberOrder
import Zephir.Proofs.Syntax.RoundTrip
import Zephir.Proofs.Meaning.Loops
import Zephir.Proofs.Meaning.Branches
import Zephir.Proofs.Emit.Parts
import Zephir.Proofs.Php.Pieces
import Zephir.Proofs.Php.Declared
import Zephir.Proofs.Emit.Blanks
import Zephir.Proofs.Emit.Nesting
import Zephir.Proofs.Php.Indentation
import Zephir.Proofs.Lowering.Temporaries
import Zephir.Proofs.Positions.Lowering
import Zephir.Proofs.Positions.Compile
import Zephir.Proofs.Compile.Idempotence
import Zephir.Proofs.Compile.Refinement
import Zephir.Proofs.Compile.Cblocks
import Zephir.Proofs.Phase.Visits
import Zephir.Proofs.Compile.Refusals
import Zephir.Proofs.Lowering.PseudoCalls
import Zephir.Proofs.Cli.Output
import Zephir.Proofs.Meaning.Counting
import Zephir.Proofs.Compile.LoweringChecks
import Zephir.Proofs.Phase.Attaching
import Zephir.Proofs.Compile.Compacting
import Zephir.Proofs.Phase.Consumed
import Zephir.Proofs.Php.Literals
import Zephir.Proofs.Php.Spacing
import Zephir.Proofs.Php.Comments
import Zephir.Proofs.Phase.Expansion
import Zephir.Proofs.Lowering.Modifiers
import Zephir.Proofs.Emit.Delivering
import Zephir.Proofs.Emit.Lines
import Zephir.Proofs.Emit.Beginning
import Zephir.Proofs.Php.Signs
import Zephir.Proofs.Emit.SavedLevels
import Zephir.Proofs.Report.Spans
import Zephir.Proofs.Lowering.FreshNames
