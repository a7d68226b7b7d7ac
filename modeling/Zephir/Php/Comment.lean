import Zephir.Php.Script
import Zephir.Syntax.Position

/-!
Docblocks as PHP comments. Empty lines at either end of a comment are left out.
-/

namespace Zephir.Php

def innerLines (lines : List String) : List String :=
  ((lines.dropWhile String.isEmpty).reverse.dropWhile String.isEmpty).reverse

def starLine (line : String) : String :=
  if line.isEmpty then " *" else " * " ++ line

def blockComment (document : Bool) (lines : List String) : List String :=
  (if document then "/**" else "/*") :: lines.map starLine ++ [" */"]

def docblockLines (doc : Docblock) : List String :=
  match innerLines doc.lines.toList with
  | [line] =>
    if doc.multiLine then blockComment doc.document [line]
    else if doc.document then ["/** " ++ line ++ " */"]
    else ["// " ++ line]
  | lines => blockComment doc.document lines

def docblockOps (docblocks : List Docblock) : List Op :=
  docblocks.flatMap fun doc => .flush :: (docblockLines doc).map .line

def docblocks (docs : List Docblock) : Script :=
  .of (docblockOps docs)

end Zephir.Php
