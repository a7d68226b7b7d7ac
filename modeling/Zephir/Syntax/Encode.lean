import Zephir.Json.Fields
import Zephir.Json.Pretty
import Zephir.Syntax.Form

/-!
Writing the syntax tree as JSON. The fields of a node come in a fixed order: its tag, the fields
of its kind, its place, and what is attached to it. Some fields are left out while they are empty.
-/

namespace Zephir

def Fields.maybe (name : String) : Option Json → Fields
  | none => []
  | some value => [(name, value)]

def Fields.nonempty (name : String) : List Json → Fields
  | [] => []
  | items => [(name, .array items)]

def Position.fields (pos : Position) : Fields :=
  [("file", .string pos.file), ("line", .ofNat pos.line.toNat), ("char", .ofNat pos.column.toNat)]

def DocLines.toJson : DocLines → Json
  | .one line => .string line
  | .many lines => .array (lines.map Json.string)

def Docblock.toJson (doc : Docblock) : Json :=
  .object ([("lines", doc.lines.toJson), ("multi-line", .bool doc.multiLine),
    ("document", .bool doc.document)] ++ doc.pos.fields)

def Local.toJson (var : Local) : Json :=
  .object (("data-type", .string var.dataType) :: var.pos.fields)

def Locals.toJson (locals : Locals) : Json :=
  .object (locals.entries.map fun entry => (entry.1, entry.2.toJson))

def Locals.closureFields (locals : Locals) : Fields :=
  if locals.isEmpty then [] else [("locals", locals.toJson)]

mutual

def Expr.toJson : Expr → Json
  | ⟨kind, pos, dataType, doCast⟩ =>
    .object (("type", .string kind.tag) :: kind.fields ++ pos.fields ++
      Fields.maybe "data-type" (dataType.map Json.string) ++
      (if doCast then [("do-cast", .bool true)] else []))

def ExprKind.fields : ExprKind → Fields
  | .null => []
  | .literal _ text => [("value", .string text)]
  | .emptyArray => []
  | .array entries => [("left", .array (arrayEntriesJson entries))]
  | .var name => [("value", .string name)]
  | .access _ object member => [("left", object.toJson), ("right", member.toJson)]
  | .call name callType arguments =>
    [("name", .string name), ("call-type", .ofNat callType.toNat),
      ("parameters", .array (argumentsJson arguments))]
  | .methodCall receiver name callType arguments =>
    [("variable", receiver.toJson), ("name", .string name),
      ("call-type", .ofNat callType.toNat), ("parameters", .array (argumentsJson arguments))]
  | .staticCall callee arguments =>
    [("class", .string callee.className), ("dynamic-class", .bool callee.dynamicClass),
      ("name", .string callee.name), ("dynamic", .bool callee.dynamic),
      ("parameters", .array (argumentsJson arguments))]
  | .new className dynamic arguments =>
    [("class", .string className), ("dynamic", .bool dynamic),
      ("parameters", .array (argumentsJson arguments))]
  | .newType typeName arguments =>
    [("internal-type", .string typeName), ("parameters", .array (argumentsJson arguments))]
  | .unary _ operand => [("left", operand.toJson)]
  | .binary _ left right => [("left", left.toJson), ("right", right.toJson)]
  | .instanceOf value className => [("left", value.toJson), ("right", className.toJson)]
  | .range _ low high => [("left", low.toJson), ("right", high.toJson)]
  | .ternary condition yes no =>
    [("left", condition.toJson), ("right", yes.toJson), ("extra", no.toJson)]
  | .cast typeName operand => [("left", .string typeName), ("right", operand.toJson)]
  | .typeHint hint operand => [("left", hint.toJson), ("right", operand.toJson)]
  | .fetch target source => [("left", target.toJson), ("right", source.toJson)]
  | .closure parameters body locals =>
    [("left", .array (parametersJson parameters)), ("right", .array (blockJson body))] ++
      locals.closureFields
  | .closureArrow parameter body => [("left", parameter.toJson), ("right", body.toJson)]

def exprsJson : List Expr → List Json
  | [] => []
  | e :: rest => e.toJson :: exprsJson rest

def argumentsJson : List Expr → List Json
  | [] => []
  | e :: rest => .object [("parameter", e.toJson)] :: argumentsJson rest

def exprField (name : String) : Option Expr → Fields
  | none => []
  | some e => [(name, e.toJson)]

def arrayEntriesJson : List ArrayEntry → List Json
  | [] => []
  | ⟨key, value⟩ :: rest =>
    .object (exprField "key" key ++ [("value", value.toJson)]) :: arrayEntriesJson rest

def parametersJson : List Parameter → List Json
  | [] => []
  | ⟨name, dataType, initial, constant, reference, pos⟩ :: rest =>
    .object ([("name", .string name), ("data-type", .string dataType)] ++
      exprField "default" initial ++
      [("const", .bool constant), ("reference", .bool reference)] ++ pos.fields) ::
        parametersJson rest

def Statement.toJson : Statement → Json
  | ⟨kind, pos, docblocks⟩ =>
    .object (("type", .string kind.tag) :: kind.fields ++ pos.fields ++
      Fields.nonempty "docblocks" (docblocks.map Docblock.toJson))

def StatementKind.fields : StatementKind → Fields
  | .lets assignments => [("assignments", .array (letAssignmentsJson assignments))]
  | .declare dataType declared =>
    [("data-type", .string dataType), ("variables", .array (declaredVariablesJson declared))]
  | .fetch expr => [("expr", expr.toJson)]
  | .assign _ assign => assign.fields
  | .echo expressions => [("expressions", .array (exprsJson expressions))]
  | .effect _ expr => [("expr", expr.toJson)]
  | .ret value => exprField "expr" value
  | .jump _ => []
  | .empty => []
  | .branch condition body elseIfs otherwise =>
    [("expr", condition.toJson), ("statements", .array (blockJson body))] ++
      Fields.nonempty "elseif_statements" (elseIfsJson elseIfs) ++
      (match otherwise with
      | none => []
      | some body => [("else_statements", .array (blockJson body))])
  | .whileLoop _ condition body =>
    [("expr", condition.toJson), ("statements", .array (blockJson body))]
  | .loop body => [("statements", .array (blockJson body))]
  | .forLoop head iterated body =>
    Fields.maybe "key" (head.key.map Json.string) ++
      Fields.maybe "value" (head.value.map Json.string) ++
      [("reverse", .bool head.reverse), ("expr", iterated.toJson),
        ("statements", .array (blockJson body)), ("basic-for", .bool head.counted)] ++
      Fields.maybe "length" (head.length.map Json.string)
  | .switch subject clauses =>
    [("expr", subject.toJson), ("clauses", .array (clausesJson clauses))]
  | .tryCatch body catches =>
    [("statements", .array (blockJson body)), ("catches", .array (catchesJson catches))]
  | .comment text => [("value", .string text)]
  | .cblock text => [("value", .string text)]

def blockJson : List Statement → List Json
  | [] => []
  | s :: rest => s.toJson :: blockJson rest

def Assign.fields : Assign → Fields
  | ⟨target, operator, base, property, index, value⟩ =>
    ("assign-type", .string target.name) ::
      Fields.maybe "operator" (operator.map fun op => .string op.name) ++
      [("variable", .string base)] ++ Fields.maybe "property" (property.map Json.string) ++
      Fields.nonempty "index-expr" (exprsJson index) ++ exprField "expr" value

def letAssignmentsJson : List LetAssignment → List Json
  | [] => []
  | ⟨assign, pos⟩ :: rest => .object (assign.fields ++ pos.fields) :: letAssignmentsJson rest

def declaredVariablesJson : List DeclaredVariable → List Json
  | [] => []
  | ⟨name, value, pos⟩ :: rest =>
    .object (("variable", .string name) :: exprField "expr" value ++ pos.fields) ::
      declaredVariablesJson rest

def elseIfsJson : List ElseIf → List Json
  | [] => []
  | ⟨condition, body, pos⟩ :: rest =>
    .object ([("expr", condition.toJson), ("statements", .array (blockJson body))] ++
      pos.fields) :: elseIfsJson rest

def clausesJson : List SwitchClause → List Json
  | [] => []
  | ⟨test, body⟩ :: rest =>
    (match test with
    | some e =>
      .object [("type", .string ClauseForm.case.tag), ("expr", e.toJson),
        ("statements", .array (blockJson body))]
    | none =>
      .object [("type", .string ClauseForm.otherwise.tag),
        ("statements", .array (blockJson body))]) :: clausesJson rest

def catchesJson : List Catch → List Json
  | [] => []
  | ⟨classes, binding, body, pos⟩ :: rest =>
    .object (("classes", .array (exprsJson classes)) :: exprField "variable" binding ++
      [("statements", .array (blockJson body))] ++ pos.fields) :: catchesJson rest

end

def docblockFields (docblocks : List Docblock) : Fields :=
  Fields.nonempty "docblocks" (docblocks.map Docblock.toJson)

def Constant.toJson (c : Constant) : Json :=
  .object (("name", .string c.name) :: exprField "default" c.value ++
    Fields.maybe "docblock" (c.docblock.map Json.string) ++ docblockFields c.docblocks ++
    c.pos.fields)

def Shortcut.toJson (s : Shortcut) : Json :=
  .object (("name", .string s.name) :: s.pos.fields)

def Property.toJson (p : Property) : Json :=
  .object (("name", .string p.name) ::
    Fields.nonempty "visibility" (p.visibility.map Json.string) ++
    exprField "default" p.value ++ Fields.nonempty "shortcuts" (p.shortcuts.map Shortcut.toJson) ++
    Fields.maybe "docblock" (p.docblock.map Json.string) ++ docblockFields p.docblocks ++
    p.pos.fields)

def Method.toJson (m : Method) : Json :=
  .object ([("name", .string m.name), ("visibility", .array (m.visibility.map Json.string)),
    ("parameters", .array (parametersJson m.parameters)),
    ("statements", .array (blockJson m.body)), ("locals", m.locals.toJson)] ++
    Fields.maybe "shortcut" (m.shortcut.map Json.string) ++
    Fields.maybe "docblock" (m.docblock.map Json.string) ++ docblockFields m.docblocks ++
    m.pos.fields)

def Definition.toJson (d : Definition) : Json :=
  .object [("constants", .array (d.constants.map Constant.toJson)),
    ("properties", .array (d.properties.map Property.toJson)),
    ("methods", .array (d.methods.map Method.toJson))]

def sectionFields {α : Type} (name : String) (toJson : α → Json) (section_ : OrderedMap α) :
    Fields :=
  if section_.isEmpty then []
  else [(name, .object (section_.entries.map fun entry => (entry.1, toJson entry.2)))]

def Members.fields (m : Members) : Fields :=
  Fields.maybe "definition" (m.definition.map Definition.toJson) ++
    sectionFields "constants" Constant.toJson m.constants ++
    sectionFields "properties" Property.toJson m.properties ++
    sectionFields "methods" Method.toJson m.methods

def UseAlias.toJson (u : UseAlias) : Json :=
  .object (("name", .string u.name) :: Fields.maybe "alias" (u.shortName.map Json.string))

def NodeKind.fields : NodeKind → Fields
  | .namespaceDecl name => [("name", .string name)]
  | .useDecl aliases => [("aliases", .array (aliases.map UseAlias.toJson))]
  | .require expr => [("expr", expr.toJson)]
  | .comment text => [("value", .string text)]
  | .cblock text => [("value", .string text)]
  | .functionDecl decl =>
    [("name", .string decl.name), ("parameters", .array (parametersJson decl.parameters)),
      ("statements", .array (blockJson decl.body)), ("locals", decl.locals.toJson)] ++
      Fields.maybe "docblock" (decl.docblock.map Json.string)
  | .classDecl decl =>
    [("name", .string decl.name), ("abstract", .bool decl.isAbstract),
      ("final", .bool decl.isFinal)] ++ Fields.maybe "extends" (decl.parent.map Json.string) ++
      Fields.nonempty "implements" (exprsJson decl.interfaces) ++
      Fields.maybe "docblock" (decl.docblock.map Json.string) ++ decl.members.fields
  | .interfaceDecl decl =>
    ("name", .string decl.name) :: Fields.nonempty "extends" (exprsJson decl.parents) ++
      Fields.maybe "docblock" (decl.docblock.map Json.string) ++ decl.members.fields

def Node.toJson (n : Node) : Json :=
  .object (("type", .string n.kind.tag) :: n.kind.fields ++ n.pos.fields ++
    docblockFields n.docblocks)

def dumpUnit (unit : List Node) : String :=
  (Json.array (unit.map Node.toJson)).pretty

end Zephir
