import Zephir.Phase.Basic
import Zephir.Text.Blank
import Zephir.Text.Split

/-!
Comments become docblocks of what follows them. The comments of a block wait in a queue until the
next statement of the same block takes them all; those that nothing follows are dropped. On the
top level the queue is part of the state that phases share, since nodes arrive one at a time.
-/

namespace Zephir

/-- A line of a comment without blanks on its sides, nor a star on either side with the blanks
next to it. -/
def stripStars (line : List Char) : List Char :=
  let line :=
    match Text.trimChars line with
    | '*' :: rest => Text.trimChars rest
    | line => line
  match Text.beforeLast? '*' line with
  | some before => Text.trimChars before
  | none => line

def commentLines (body : List Char) : List String :=
  (Text.pieces '\n' body).map fun line => String.ofList (stripStars line)

def docblockOfLines? (document : Bool) (lines : List String) (pos : Position) :
    Option Docblock :=
  if lines.all String.isEmpty then none
  else
    match lines with
    | [line] => some { lines := .one line, multiLine := false, document, pos }
    | lines => some { lines := .many lines, multiLine := true, document, pos }

/-- The docblock of a comment's text, unless nothing is left of it. A star in front makes it a
document comment. -/
def docblock? (raw : String) (pos : Position) : Option Docblock :=
  match raw.toList with
  | '*' :: body => docblockOfLines? true (commentLines body) pos
  | body => docblockOfLines? false (commentLines body) pos

mutual

/-- The statements of a block without its comments, each with the comments in front of it;
`waiting` are comments that wait for the next statement. -/
def attachBlock (waiting : List Docblock) : List Statement → List Statement
  | [] => []
  | ⟨.comment text, pos, _⟩ :: rest =>
    attachBlock (waiting ++ (docblock? text pos).toList) rest
  | ⟨kind, pos, docblocks⟩ :: rest =>
    ⟨attachKind kind, pos, docblocks ++ waiting⟩ :: attachBlock [] rest

def attachKind : StatementKind → StatementKind
  | .branch condition body elseIfs otherwise =>
    .branch condition (attachBlock [] body) (attachElseIfs elseIfs)
      (match otherwise with
      | none => none
      | some body => some (attachBlock [] body))
  | .whileLoop kind condition body => .whileLoop kind condition (attachBlock [] body)
  | .loop body => .loop (attachBlock [] body)
  | .forLoop head iterated body => .forLoop head iterated (attachBlock [] body)
  | .switch subject clauses => .switch subject (attachClauses clauses)
  | .tryCatch body catches => .tryCatch (attachBlock [] body) (attachCatches catches)
  | kind => kind

def attachElseIfs : List ElseIf → List ElseIf
  | [] => []
  | ⟨condition, body, pos⟩ :: rest =>
    ⟨condition, attachBlock [] body, pos⟩ :: attachElseIfs rest

def attachClauses : List SwitchClause → List SwitchClause
  | [] => []
  | ⟨test, body⟩ :: rest => ⟨test, attachBlock [] body⟩ :: attachClauses rest

def attachCatches : List Catch → List Catch
  | [] => []
  | ⟨classes, binding, body, pos⟩ :: rest =>
    ⟨classes, binding, attachBlock [] body, pos⟩ :: attachCatches rest

end

def withRawDocblock (docblocks : List Docblock) (raw : Option String) (pos : Position) :
    List Docblock :=
  docblocks ++ (raw.bind (docblock? · pos)).toList

def Constant.attach (c : Constant) : Constant :=
  { c with docblock := none, docblocks := withRawDocblock c.docblocks c.docblock c.pos }

def Property.attach (p : Property) : Property :=
  { p with docblock := none, docblocks := withRawDocblock p.docblocks p.docblock p.pos }

def Method.attach (m : Method) : Method :=
  { m with
    docblock := none
    docblocks := withRawDocblock m.docblocks m.docblock m.pos
    body := attachBlock [] m.body }

def Node.attach (waiting : List Docblock) (n : Node) : Node :=
  let docblocks := n.docblocks ++ waiting
  match n.kind with
  | .classDecl decl =>
    { n with
      kind := .classDecl { decl with docblock := none }
      docblocks := withRawDocblock docblocks decl.docblock n.pos }
  | .interfaceDecl decl =>
    { n with
      kind := .interfaceDecl { decl with docblock := none }
      docblocks := withRawDocblock docblocks decl.docblock n.pos }
  | .functionDecl decl =>
    { n with
      kind := .functionDecl { decl with docblock := none, body := attachBlock [] decl.body }
      docblocks := withRawDocblock docblocks decl.docblock n.pos }
  | _ => { n with docblocks }

/-- Where a shared state keeps the queue of waiting comments. -/
structure QueueView (σ : Type) where
  get : σ → List Docblock
  set : List Docblock → σ → σ

def QueueView.whole : QueueView (List Docblock) where
  get queue := queue
  set queue _ := queue

def attachComments {σ : Type} (queue : QueueView σ) : Phase σ where
  name := "comments"
  top node := do
    let waiting := queue.get (← get)
    match node.kind with
    | .comment text =>
      modify (queue.set (waiting ++ (docblock? text node.pos).toList))
      pure none
    | _ =>
      modify (queue.set [])
      pure (some (node.attach waiting))
  constant owner c := pure (some c.attach, owner)
  property owner p := pure (some p.attach, owner)
  method owner m := pure (some m.attach, owner)

end Zephir
