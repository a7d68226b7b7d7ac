import Zephir.Lowering.Tree
import Zephir.Lowering.Visibility
import Zephir.Phase.Basic

/-!
The phase that lowers the bodies of functions and methods, and brings the modifiers of methods
into canonical order.
-/

namespace Zephir

def Function.lower (f : Function) : Except Diagnostic Function := do
  let (body, locals) ← lowerBody f.locals f.parameters f.body
  return { f with body, locals }

def Method.lower (m : Method) : Except Diagnostic Method := do
  let visibility ← m.canonicalVisibility
  let (body, locals) ← lowerBody m.locals m.parameters m.body
  return { m with visibility, body, locals }

def lowerBodies {σ : Type} : Phase σ where
  name := "normalize"
  top node := do
    match node.kind with
    | .functionDecl decl =>
      let decl ← (decl.lower : Except Diagnostic _)
      pure (some { node with kind := .functionDecl decl })
    | _ => pure (some node)
  method owner m := do
    let m ← (m.lower : Except Diagnostic _)
    pure (some m, owner)

end Zephir
