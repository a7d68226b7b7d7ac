import Mathlib.Data.List.Basic
import Zephir.Proofs.OrderedMap
import Zephir.Syntax.Decode
import Zephir.Syntax.Encode

/-!
An encoded expression or statement is read back as itself. The reader of a node looks its fields
up by name, so the proof follows the names: what a node writes besides the fields of its kind never
shares a name with them, and a field that is left out while it is empty is read as empty. Each
record is read back if its parts are; the induction over the tree at the end supplies the parts
and counts the levels of nesting.
-/

namespace Zephir

/-! ### Fields by name -/

namespace Fields

variable {α : Type}

@[simp] theorem named_nil (name : String) : named [] name = [] := rfl

@[simp] theorem named_cons (key name : String) (value : Json) (rest : Fields) :
    named ((key, value) :: rest) name =
      if key = name then value :: named rest name else named rest name := by
  by_cases same : key = name <;> simp [named, same]

@[simp] theorem named_append (left right : Fields) (name : String) :
    named (left ++ right) name = named left name ++ named right name :=
  List.filterMap_append

@[simp] theorem named_maybe (key name : String) (value : Option Json) :
    named (maybe key value) name = if key = name then value.toList else [] := by
  cases value <;> simp [maybe]

@[simp] theorem named_nonempty (key name : String) (items : List Json) :
    named (nonempty key items) name =
      if key = name ∧ items ≠ [] then [.array items] else [] := by
  cases items <;> simp [nonempty]

@[simp] theorem named_exprField (key name : String) (value : Option Expr) :
    named (exprField key value) name =
      if key = name then (value.map Expr.toJson).toList else [] := by
  cases value <;> simp [exprField]

theorem required_of_named {fields : Fields} {name : String} {value : Json}
    {read : Json → Option α} (found : fields.named name = [value]) :
    fields.required name read = read value := by
  rw [required, found]

theorem withDefault_list {fields : Fields} {name : String} {values : List α} {items : List Json}
    {read : Json → Option α} (found : fields.named name = [.array items])
    (back : items.mapM read = some values) :
    fields.withDefault name [] (Json.list? read) = some values := by
  rw [withDefault, found]
  exact back

/-- A value that is never null is read back from a field that may be missing. -/
theorem optional_of_named {fields : Fields} {name : String} {value : Option α}
    {read : Json → Option α} (write : α → Json)
    (found : fields.named name = (value.map write).toList)
    (back : ∀ a ∈ value, write a ≠ .null ∧ read (write a) = some a) :
    fields.optional name read = some value := by
  cases value with
  | none =>
      rw [optional, found]
      rfl
  | some a =>
      obtain ⟨present, again⟩ := back a rfl
      have single : fields.named name = [write a] := found
      rw [optional, single]
      simp [again]

theorem withDefault_nonempty {fields : Fields} {name : String} {values : List α}
    {items : List Json} {read : Json → Option α}
    (found : fields.named name = if items ≠ [] then [.array items] else [])
    (back : items.mapM read = some values) :
    fields.withDefault name [] (Json.list? read) = some values := by
  rw [withDefault, found]
  cases items with
  | nil =>
      have none : values = [] := by simpa using back.symm
      simp [none]
  | cons item rest => simpa [Json.list?] using back

end Fields

/-- A reader that has found a value goes on with it. Unlike the library's equation this one is
not unfolded when a proof is checked, where it would evaluate the readers that follow. -/
theorem some_bind {α β : Type} {a : α} {next : α → Option β} : (some a >>= next) = next a := by
  simp

theorem mapM_cons_some {α β : Type} {read : β → Option α} {item : β} {items : List β} {a : α}
    {rest : List α} (first : read item = some a) (others : items.mapM read = some rest) :
    (item :: items).mapM read = some (a :: rest) := by
  rw [List.mapM_cons, first, some_bind, others, some_bind]
  rfl

theorem mapM_map_some {α β : Type} {read : β → Option α} {write : α → β} {values : List α}
    (back : ∀ a ∈ values, read (write a) = some a) :
    (values.map write).mapM read = some values := by
  induction values with
  | nil => rfl
  | cons a rest ih =>
      have first : read (write a) = some a := back a List.mem_cons_self
      have others := ih fun b later => back b (List.mem_cons_of_mem _ later)
      exact mapM_cons_some first others

/-! ### Places, comments and local variables -/

theorem word32_toNat (word : UInt32) : (Json.ofNat word.toNat).word32? = some word := by
  have small : (word.toNat : Int) < UInt32.size := by exact_mod_cast word.toNat_lt
  rw [Json.ofNat, Json.word32?, Json.natBelow?, if_pos ⟨Int.natCast_nonneg _, small⟩]
  simp

theorem word8_toNat (word : UInt8) : (Json.ofNat word.toNat).word8? = some word := by
  have small : (word.toNat : Int) < UInt8.size := by exact_mod_cast word.toNat_lt
  rw [Json.ofNat, Json.word8?, Json.natBelow?, if_pos ⟨Int.natCast_nonneg _, small⟩]
  simp

@[simp] theorem named_position (pos : Position) (name : String) :
    Fields.named pos.fields name =
      if "file" = name then [.string pos.file]
      else if "line" = name then [.ofNat pos.line.toNat]
      else if "char" = name then [.ofNat pos.column.toNat] else [] := by
  rw [Position.fields]
  by_cases file : "file" = name
  · subst file
    simp
  by_cases line : "line" = name
  · subst line
    simp
  by_cases column : "char" = name
  · subst column
    simp
  simp [file, line, column]

theorem position_of_named {fields : Fields} {pos : Position}
    (own : ∀ name ∈ ["file", "line", "char"], fields.named name = pos.fields.named name) :
    Position.ofFields? fields = some pos := by
  have file : fields.named "file" = [.string pos.file] := by
    simpa using own "file" (by simp)
  have line : fields.named "line" = [.ofNat pos.line.toNat] := by
    simpa using own "line" (by simp)
  have column : fields.named "char" = [.ofNat pos.column.toNat] := by
    simpa using own "char" (by simp)
  simp [Position.ofFields?, Fields.withDefault, file, line, column, Json.string?, word32_toNat]

theorem string_strings (lines : List String) :
    (lines.map Json.string).mapM Json.string? = some lines :=
  mapM_map_some fun _ _ => rfl

theorem docLines_toJson (lines : DocLines) : DocLines.ofJson? lines.toJson = some lines := by
  cases lines with
  | one line => rfl
  | many lines =>
      rw [DocLines.toJson, DocLines.ofJson?, Json.list?, string_strings]
      · rfl
      · simp

theorem docblock_toJson (doc : Docblock) : Docblock.ofJson? doc.toJson = some doc := by
  obtain ⟨lines, multiLine, document, pos⟩ := doc
  have place : Position.ofFields? ([("lines", lines.toJson), ("multi-line", .bool multiLine),
      ("document", .bool document)] ++ pos.fields) = some pos := by
    apply position_of_named
    simp
  simp only [Docblock.toJson, Docblock.ofJson?, Json.object?, some_bind, place]
  simp [-Option.bind_eq_bind, some_bind, Fields.required, Fields.withDefault, docLines_toJson,
    Json.bool?]

theorem local_toJson (var : Local) : Local.ofJson? var.toJson = some var := by
  obtain ⟨dataType, pos⟩ := var
  have place : Position.ofFields? (("data-type", .string dataType) :: pos.fields) = some pos := by
    apply position_of_named
    simp
  simp only [Local.toJson, Local.ofJson?, Json.object?, some_bind, place]
  simp [-Option.bind_eq_bind, some_bind, Fields.required, Json.string?]

theorem map_toJson {α : Type} {read : Json → Option α} {write : α → Json} {map : OrderedMap α}
    (back : ∀ entry ∈ map.entries, read (write entry.2) = some entry.2) :
    (Json.object (map.entries.map fun entry => (entry.1, write entry.2))).map? read =
      some map.entries := by
  rw [Json.map?]
  apply mapM_map_some
  intro entry present
  simp [back entry present]

theorem locals_toJson (locals : Locals) : Locals.ofJson? locals.toJson = some locals := by
  have back := @map_toJson _ Local.ofJson? Local.toJson locals fun entry _ => local_toJson entry.2
  rw [Locals.ofJson?, Locals.toJson, back, Option.map_some, OrderedMap.ofList_entries]

/-! ### Tags -/

theorem exprForm_tag (form : ExprForm) :
    Json.choice? ExprForm.all ExprForm.tags (.string form.tag) = some form := by
  have listed : form ∈ ExprForm.all := by
    cases form with
    | literal kind => cases kind <;> decide +kernel
    | access kind => cases kind <;> decide +kernel
    | unary op => cases op <;> decide +kernel
    | binary op => cases op <;> decide +kernel
    | range kind => cases kind <;> decide +kernel
    | _ => decide +kernel
  have found : ∀ form ∈ ExprForm.all,
      ExprForm.all.find? (fun choice => choice.tags.contains form.tag) = some form := by
    decide +kernel
  exact found form listed

theorem statementForm_tag (form : StatementForm) :
    Json.choice? StatementForm.all (fun form => [form.tag]) (.string form.tag) = some form := by
  have listed : form ∈ StatementForm.all := by
    cases form with
    | assign mode => cases mode <;> decide +kernel
    | effect kind => cases kind <;> decide +kernel
    | jump kind => cases kind <;> decide +kernel
    | whileLoop kind => cases kind <;> decide +kernel
    | _ => decide +kernel
  have found : ∀ form ∈ StatementForm.all,
      StatementForm.all.find? (fun choice => [choice.tag].contains form.tag) = some form := by
    decide +kernel
  exact found form listed

theorem clauseForm_tag (form : ClauseForm) :
    Json.choice? ClauseForm.all (fun form => [form.tag]) (.string form.tag) = some form := by
  cases form <;> decide

theorem nodeForm_tag (form : NodeForm) :
    Json.choice? NodeForm.all (fun form => [form.tag]) (.string form.tag) = some form := by
  cases form <;> decide

theorem assignTarget_name (target : AssignTarget) :
    Json.constant? AssignTarget.all AssignTarget.name (.string target.name) = some target := by
  cases target <;> decide +kernel

theorem assignOp_name (op : AssignOp) :
    Json.constant? AssignOp.all AssignOp.name (.string op.name) = some op := by
  cases op <;> decide

/-! ### Expressions and statements -/

def Expr.sharedNames : List String :=
  ["type", "file", "line", "char", "data-type", "do-cast"]

def Statement.sharedNames : List String :=
  ["type", "file", "line", "char", "docblocks"]

@[simp] theorem named_closureFields (locals : Locals) (name : String) :
    Fields.named locals.closureFields name =
      if "locals" = name ∧ locals.isEmpty = false then [locals.toJson] else [] := by
  unfold Locals.closureFields
  cases locals.isEmpty <;> simp

theorem named_exprKind (kind : ExprKind) (name : String) (shared : name ∈ Expr.sharedNames) :
    kind.fields.named name = [] := by
  simp only [Expr.sharedNames, List.mem_cons, List.not_mem_nil, or_false] at shared
  cases kind <;> rcases shared with rfl | rfl | rfl | rfl | rfl | rfl <;> simp [ExprKind.fields]

theorem exprOf_toJson {inner : TreeReader} (kind : ExprKind) (pos : Position)
    (dataType : Option String) (doCast : Bool)
    (back : ∀ fields : Fields, (∀ name, name ∉ Expr.sharedNames →
      fields.named name = kind.fields.named name) → inner.exprKind? fields kind.form = some kind) :
    inner.exprOf? (Expr.toJson ⟨kind, pos, dataType, doCast⟩) =
      some ⟨kind, pos, dataType, doCast⟩ := by
  obtain ⟨fields, all⟩ : ∃ fields : Fields, fields =
      ("type", Json.string kind.tag) :: kind.fields ++ pos.fields ++
        Fields.maybe "data-type" (dataType.map Json.string) ++
        (if doCast then [("do-cast", .bool true)] else []) := ⟨_, rfl⟩
  have own : ∀ name, name ∉ Expr.sharedNames → fields.named name = kind.fields.named name := by
    intro name foreign
    simp only [Expr.sharedNames, List.mem_cons, List.not_mem_nil, or_false, not_or] at foreign
    cases doCast <;> simp [all, foreign, eq_comm]
  have form : fields.named "type" = [.string kind.form.tag] := by
    have none := named_exprKind kind "type" (by decide)
    cases doCast <;> simp [all, none, ExprKind.tag]
  have tag : fields.required "type" (Json.choice? ExprForm.all ExprForm.tags) =
      some kind.form := by
    rw [Fields.required_of_named form, exprForm_tag]
  have place : Position.ofFields? fields = some pos := by
    apply position_of_named
    intro name present
    have none := named_exprKind kind name
    simp only [List.mem_cons, List.not_mem_nil, or_false] at present
    obtain rfl | rfl | rfl := present <;> cases doCast <;> simp [all, none (by decide)]
  have typed : fields.optional "data-type" Json.string? = some dataType := by
    have none := named_exprKind kind "data-type" (by decide)
    refine Fields.optional_of_named Json.string ?_ (by simp [Json.string?])
    cases doCast <;> simp [all, none]
  have converted : fields.withDefault "do-cast" false Json.bool? = some doCast := by
    have none := named_exprKind kind "do-cast" (by decide)
    cases doCast <;> simp [Fields.withDefault, all, none, Json.bool?]
  rw [Expr.toJson, ← all, TreeReader.exprOf?, Json.object?]
  simp only [some_bind, tag, back fields own, place, typed, converted]
  rfl

theorem named_assign (assign : Assign) (name : String) (shared : name ∈ Statement.sharedNames) :
    assign.fields.named name = [] := by
  simp only [Statement.sharedNames, List.mem_cons, List.not_mem_nil, or_false] at shared
  cases assign
  rcases shared with rfl | rfl | rfl | rfl | rfl <;> simp [Assign.fields]

theorem named_statementKind (kind : StatementKind) (name : String)
    (shared : name ∈ Statement.sharedNames) : kind.fields.named name = [] := by
  cases kind with
  | assign mode assign => exact named_assign assign name shared
  | branch condition body elseIfs otherwise =>
      simp only [Statement.sharedNames, List.mem_cons, List.not_mem_nil, or_false] at shared
      cases otherwise <;> rcases shared with rfl | rfl | rfl | rfl | rfl <;>
        simp [StatementKind.fields]
  | _ =>
      simp only [Statement.sharedNames, List.mem_cons, List.not_mem_nil, or_false] at shared
      rcases shared with rfl | rfl | rfl | rfl | rfl <;> simp [StatementKind.fields]

theorem docblocks_of_named {fields : Fields} {docblocks : List Docblock}
    (found : fields.named "docblocks" = (docblockFields docblocks).named "docblocks") :
    TreeReader.docblocks? fields = some docblocks := by
  refine Fields.withDefault_nonempty ?_ (mapM_map_some fun doc _ => docblock_toJson doc)
  rw [found, docblockFields, Fields.named_nonempty]
  simp

theorem statementOf_toJson {inner : TreeReader} (kind : StatementKind) (pos : Position)
    (docblocks : List Docblock)
    (back : ∀ fields : Fields, (∀ name, name ∉ Statement.sharedNames →
      fields.named name = kind.fields.named name) →
      inner.statementKind? fields kind.form = some kind) :
    inner.statementOf? (Statement.toJson ⟨kind, pos, docblocks⟩) =
      some ⟨kind, pos, docblocks⟩ := by
  obtain ⟨fields, all⟩ : ∃ fields : Fields, fields =
      ("type", Json.string kind.tag) :: kind.fields ++ pos.fields ++
        docblockFields docblocks := ⟨_, rfl⟩
  have own : ∀ name, name ∉ Statement.sharedNames →
      fields.named name = kind.fields.named name := by
    intro name foreign
    simp only [Statement.sharedNames, List.mem_cons, List.not_mem_nil, or_false, not_or] at foreign
    simp [all, docblockFields, foreign, eq_comm]
  have form : fields.named "type" = [.string kind.form.tag] := by
    have none := named_statementKind kind "type" (by decide)
    simp [all, docblockFields, none, StatementKind.tag]
  have tag : fields.required "type" (Json.choice? StatementForm.all fun form => [form.tag]) =
      some kind.form := by
    rw [Fields.required_of_named form, statementForm_tag]
  have place : Position.ofFields? fields = some pos := by
    apply position_of_named
    intro name present
    have none := named_statementKind kind name
    simp only [List.mem_cons, List.not_mem_nil, or_false] at present
    obtain rfl | rfl | rfl := present <;> simp [all, docblockFields, none (by decide)]
  have comments : TreeReader.docblocks? fields = some docblocks := by
    have none := named_statementKind kind "docblocks" (by decide)
    apply docblocks_of_named
    simp [all, none]
  rw [Statement.toJson, ← docblockFields, ← all, TreeReader.statementOf?, Json.object?]
  simp only [some_bind, tag, back fields own, place, comments]
  rfl

open TreeReader

section Records

variable {inner : TreeReader} {fields : Fields}

theorem optional_string {name : String} {value : Option String}
    (found : fields.named name = (value.map Json.string).toList) :
    fields.optional name Json.string? = some value :=
  Fields.optional_of_named Json.string found fun _ _ => ⟨by simp, rfl⟩

theorem optional_expr {name : String} {value : Option Expr}
    (found : fields.named name = (value.map Expr.toJson).toList)
    (back : ∀ e ∈ value, inner.expr e.toJson = some e) :
    fields.optional name inner.expr = some value := by
  refine Fields.optional_of_named Expr.toJson found ?_
  intro e present
  refine ⟨?_, back e present⟩
  obtain ⟨kind, pos, dataType, doCast⟩ := e
  simp [Expr.toJson]

theorem argument_toJson {e : Expr} (back : inner.expr e.toJson = some e) :
    inner.argument? (.object [("parameter", e.toJson)]) = some e := by
  simp [argument?, Json.record?, Fields.required, back]

theorem arrayEntry_toJson {key : Option Expr} {value : Expr}
    (keyBack : ∀ e ∈ key, inner.expr e.toJson = some e)
    (valueBack : inner.expr value.toJson = some value) :
    inner.arrayEntry? (.object (exprField "key" key ++ [("value", value.toJson)])) =
      some ⟨key, value⟩ := by
  have first : Fields.optional (exprField "key" key ++ [("value", value.toJson)]) "key"
      inner.expr = some key := optional_expr (by simp) keyBack
  have second : Fields.required (exprField "key" key ++ [("value", value.toJson)]) "value"
      inner.expr = some value := by simp [Fields.required, valueBack]
  unfold TreeReader.arrayEntry?
  simp only [Json.record?, some_bind, first, second]
  rfl

theorem parameter_toJson {name dataType : String} {initial : Option Expr}
    {constant reference : Bool} {pos : Position}
    (back : ∀ e ∈ initial, inner.expr e.toJson = some e) :
    inner.parameter? (.object ([("name", .string name), ("data-type", .string dataType)] ++
      exprField "default" initial ++
      [("const", .bool constant), ("reference", .bool reference)] ++ pos.fields)) =
      some ⟨name, dataType, initial, constant, reference, pos⟩ := by
  obtain ⟨fields, all⟩ : ∃ fields : Fields, fields =
      [("name", .string name), ("data-type", .string dataType)] ++ exprField "default" initial ++
      [("const", .bool constant), ("reference", .bool reference)] ++ pos.fields := ⟨_, rfl⟩
  have default : fields.optional "default" inner.expr = some initial :=
    optional_expr (by simp [all]) back
  have place : Position.ofFields? fields = some pos := by
    apply position_of_named
    simp [all]
  rw [← all, parameter?, Json.object?]
  simp only [some_bind, default, place]
  simp [-Option.bind_eq_bind, some_bind, Fields.required, Fields.withDefault, all, Json.string?,
    Json.flag?]

theorem assign_of_named (assign : Assign)
    (own : ∀ name ∉ Statement.sharedNames, fields.named name = assign.fields.named name)
    (indexBack : (exprsJson assign.index).mapM inner.expr = some assign.index)
    (valueBack : ∀ e ∈ assign.value, inner.expr e.toJson = some e) :
    inner.assign? fields = some assign := by
  obtain ⟨target, operator, base, property, index, value⟩ := assign
  have targetRead : fields.required "assign-type"
      (Json.constant? AssignTarget.all AssignTarget.name) = some target := by
    simp [Fields.required, own, Statement.sharedNames, Assign.fields, assignTarget_name]
  have operatorRead : fields.optional "operator" (Json.constant? AssignOp.all AssignOp.name) =
      some operator := by
    refine Fields.optional_of_named (fun op => Json.string op.name) ?_ ?_
    · simp [own, Statement.sharedNames, Assign.fields]
    · intro op _
      exact ⟨by simp, assignOp_name op⟩
  have baseRead : fields.required "variable" Json.string? = some base := by
    simp [Fields.required, own, Statement.sharedNames, Assign.fields, Json.string?]
  have propertyRead : fields.optional "property" Json.string? = some property :=
    optional_string (by simp [own, Statement.sharedNames, Assign.fields])
  have indexRead : inner.exprs? fields "index-expr" = some index :=
    Fields.withDefault_nonempty (by simp [own, Statement.sharedNames, Assign.fields]) indexBack
  have valueRead : fields.optional "expr" inner.expr = some value :=
    optional_expr (by simp [own, Statement.sharedNames, Assign.fields]) valueBack
  simp only [assign?, some_bind, targetRead, operatorRead, baseRead, propertyRead, indexRead,
    valueRead]
  rfl

theorem letAssignment_toJson {assign : Assign} {pos : Position}
    (indexBack : (exprsJson assign.index).mapM inner.expr = some assign.index)
    (valueBack : ∀ e ∈ assign.value, inner.expr e.toJson = some e) :
    inner.letAssignment? (.object (assign.fields ++ pos.fields)) = some ⟨assign, pos⟩ := by
  have own : ∀ name ∉ Statement.sharedNames,
      Fields.named (assign.fields ++ pos.fields) name = assign.fields.named name := by
    intro name foreign
    simp only [Statement.sharedNames, List.mem_cons, List.not_mem_nil, or_false, not_or] at foreign
    simp [foreign, eq_comm]
  have place : Position.ofFields? (assign.fields ++ pos.fields) = some pos := by
    apply position_of_named
    intro name present
    have none := named_assign assign name
    simp only [List.mem_cons, List.not_mem_nil, or_false] at present
    obtain rfl | rfl | rfl := present <;> simp [none (by decide)]
  have back := assign_of_named assign own indexBack valueBack
  simp only [letAssignment?, Json.object?, some_bind, back, place]
  rfl

theorem declaredVariable_toJson {name : String} {value : Option Expr} {pos : Position}
    (back : ∀ e ∈ value, inner.expr e.toJson = some e) :
    inner.declaredVariable? (.object (("variable", .string name) :: exprField "expr" value ++
      pos.fields)) = some ⟨name, value, pos⟩ := by
  obtain ⟨fields, all⟩ : ∃ fields : Fields, fields =
      ("variable", .string name) :: exprField "expr" value ++ pos.fields := ⟨_, rfl⟩
  have initial : fields.optional "expr" inner.expr = some value :=
    optional_expr (by simp [all]) back
  have place : Position.ofFields? fields = some pos := by
    apply position_of_named
    simp [all]
  have variableRead : fields.required "variable" Json.string? = some name := by
    simp [Fields.required, all, Json.string?]
  rw [← all, declaredVariable?, Json.object?]
  simp only [some_bind, initial, place, variableRead]
  rfl

theorem elseIf_toJson {condition : Expr} {body : List Statement} {pos : Position}
    (conditionBack : inner.expr condition.toJson = some condition)
    (bodyBack : (blockJson body).mapM inner.statement = some body) :
    inner.elseIf? (.object ([("expr", condition.toJson), ("statements", .array (blockJson body))] ++
      pos.fields)) = some ⟨condition, body, pos⟩ := by
  obtain ⟨fields, all⟩ : ∃ fields : Fields, fields =
      [("expr", condition.toJson), ("statements", .array (blockJson body))] ++ pos.fields :=
    ⟨_, rfl⟩
  have place : Position.ofFields? fields = some pos := by
    apply position_of_named
    simp [all]
  have test : fields.required "expr" inner.expr = some condition := by
    simp [Fields.required, all, conditionBack]
  have block : inner.block? fields "statements" = some body := by
    simp [block?, Fields.withDefault, all, Json.list?, bodyBack]
  rw [← all, elseIf?, Json.object?]
  simp only [some_bind, place, test, block]
  rfl

theorem caseClause_toJson {test : Expr} {body : List Statement}
    (testBack : inner.expr test.toJson = some test)
    (bodyBack : (blockJson body).mapM inner.statement = some body) :
    inner.switchClause? (.object [("type", .string ClauseForm.case.tag), ("expr", test.toJson),
      ("statements", .array (blockJson body))]) = some ⟨some test, body⟩ := by
  have tag := clauseForm_tag .case
  simp [switchClause?, clauseOf?, block?, Fields.required, Fields.withDefault, Json.list?, tag,
    testBack, bodyBack]

theorem defaultClause_toJson {body : List Statement}
    (bodyBack : (blockJson body).mapM inner.statement = some body) :
    inner.switchClause? (.object [("type", .string ClauseForm.otherwise.tag),
      ("statements", .array (blockJson body))]) = some ⟨none, body⟩ := by
  have tag := clauseForm_tag .otherwise
  simp [switchClause?, clauseOf?, block?, Fields.required, Fields.withDefault, Json.list?, tag,
    bodyBack]

theorem catch_toJson {classes : List Expr} {binding : Option Expr} {body : List Statement}
    {pos : Position} (classesBack : (exprsJson classes).mapM inner.expr = some classes)
    (bindingBack : ∀ e ∈ binding, inner.expr e.toJson = some e)
    (bodyBack : (blockJson body).mapM inner.statement = some body) :
    inner.catch? (.object (("classes", .array (exprsJson classes)) ::
      exprField "variable" binding ++ [("statements", .array (blockJson body))] ++ pos.fields)) =
      some ⟨classes, binding, body, pos⟩ := by
  obtain ⟨fields, all⟩ : ∃ fields : Fields, fields =
      ("classes", .array (exprsJson classes)) :: exprField "variable" binding ++
        [("statements", .array (blockJson body))] ++ pos.fields := ⟨_, rfl⟩
  have place : Position.ofFields? fields = some pos := by
    apply position_of_named
    simp [all]
  have caught : inner.exprs? fields "classes" = some classes := by
    simp [exprs?, Fields.withDefault, all, Json.list?, classesBack]
  have bound : fields.optional "variable" inner.expr = some binding :=
    optional_expr (by simp [all]) bindingBack
  have block : inner.block? fields "statements" = some body := by
    simp [block?, Fields.withDefault, all, Json.list?, bodyBack]
  rw [← all, catch?, Json.object?]
  simp only [some_bind, place, caught, bound, block]
  rfl

end Records

theorem depthOfFields_append (left right : Fields) :
    Json.depthOfFields (left ++ right) =
      max (Json.depthOfFields left) (Json.depthOfFields right) := by
  induction left with
  | nil => simp [Json.depthOfFields]
  | cons field rest ih => simp [Json.depthOfFields, ih, Nat.max_assoc]

theorem depthOfItems_nonempty (name : String) (items : List Json) :
    Json.depthOfItems items ≤ Json.depthOfFields (Fields.nonempty name items) := by
  cases items with
  | nil => simp [Json.depthOfItems]
  | cons item rest =>
      simp only [Fields.nonempty, Json.depthOfFields, Json.depth]
      omega

theorem operands_of_named {inner : TreeReader} {fields : Fields} {left right : Expr}
    (own : ∀ name ∉ Expr.sharedNames,
      fields.named name = Fields.named [("left", left.toJson), ("right", right.toJson)] name)
    (leftBack : inner.expr left.toJson = some left)
    (rightBack : inner.expr right.toJson = some right) :
    fields.required "left" inner.expr = some left ∧
      fields.required "right" inner.expr = some right := by
  constructor
  · simp [Fields.required, own, Expr.sharedNames, leftBack]
  · simp [Fields.required, own, Expr.sharedNames, rightBack]

theorem locals_of_named {fields : Fields} {locals : Locals}
    (found : fields.named "locals" = locals.closureFields.named "locals") :
    fields.withDefault "locals" .empty Locals.ofJson? = some locals := by
  rw [named_closureFields] at found
  cases some : locals.isEmpty with
  | true =>
      have nothing : locals.entries = [] := by simpa [OrderedMap.isEmpty] using some
      obtain ⟨entries, distinct⟩ := locals
      subst nothing
      rw [Fields.withDefault, found]
      simp [some, OrderedMap.empty]
  | false =>
      rw [Fields.withDefault, found]
      simp [some, locals_toJson]

theorem branch_depth {condition : Expr} {body : List Statement} {elseIfs : List ElseIf}
    {otherwise : Option (List Statement)} {depth : Nat}
    (deep : Json.depthOfFields (StatementKind.branch condition body elseIfs otherwise).fields ≤
      depth) :
    condition.toJson.depth ≤ depth ∧ Json.depthOfItems (blockJson body) ≤ depth ∧
      Json.depthOfItems (elseIfsJson elseIfs) ≤ depth ∧
      ∀ block ∈ otherwise, Json.depthOfItems (blockJson block) ≤ depth := by
  have bound := depthOfItems_nonempty "elseif_statements" (elseIfsJson elseIfs)
  cases otherwise with
  | none =>
      simp only [StatementKind.fields, List.cons_append, List.nil_append, Json.depthOfFields,
        Json.depth, depthOfFields_append] at deep
      exact ⟨by omega, by omega, by omega, by simp⟩
  | some block =>
      simp only [StatementKind.fields, List.cons_append, List.nil_append, Json.depthOfFields,
        Json.depth, depthOfFields_append] at deep
      refine ⟨by omega, by omega, by omega, ?_⟩
      rintro _ ⟨⟩
      omega

theorem branch_of_named {inner : TreeReader} {fields : Fields} {condition : Expr}
    {body : List Statement} {elseIfs : List ElseIf} {otherwise : Option (List Statement)}
    (own : ∀ name ∉ Statement.sharedNames, fields.named name =
      (StatementKind.branch condition body elseIfs otherwise).fields.named name)
    (conditionBack : inner.expr condition.toJson = some condition)
    (bodyBack : (blockJson body).mapM inner.statement = some body)
    (elseIfsBack : (elseIfsJson elseIfs).mapM inner.elseIf? = some elseIfs)
    (otherwiseBack : ∀ block ∈ otherwise,
      (blockJson block).mapM inner.statement = some block) :
    inner.statementKind? fields .branch = some (.branch condition body elseIfs otherwise) := by
  have first : fields.required "expr" inner.expr = some condition := by
    cases otherwise <;>
      simp [Fields.required, own, Statement.sharedNames, StatementKind.fields, conditionBack]
  have second : inner.block? fields "statements" = some body := by
    cases otherwise <;>
      simp [block?, Fields.withDefault, own, Statement.sharedNames, StatementKind.fields,
        Json.list?, bodyBack]
  have third : fields.withDefault "elseif_statements" [] (Json.list? inner.elseIf?) =
      some elseIfs := by
    refine Fields.withDefault_nonempty ?_ elseIfsBack
    cases otherwise <;> simp [own, Statement.sharedNames, StatementKind.fields]
  have fourth : fields.optional "else_statements" (Json.list? inner.statement) =
      some otherwise := by
    refine Fields.optional_of_named (fun block => .array (blockJson block)) ?_ ?_
    · cases otherwise <;> simp [own, Statement.sharedNames, StatementKind.fields]
    · intro block present
      exact ⟨by simp, otherwiseBack block present⟩
  simp only [statementKind?, some_bind, first, second, third, fourth]
  rfl

mutual

theorem expr_toJson : (e : Expr) → (depth : Nat) → e.toJson.depth ≤ depth →
    (ofDepth depth).expr e.toJson = some e
  | ⟨kind, pos, dataType, doCast⟩, depth, deep => by
      -- The object around the fields takes up one level.
      rw [Expr.toJson, Json.depth] at deep
      obtain ⟨depth, rfl⟩ : ∃ inner, depth = inner + 1 := ⟨depth - 1, by omega⟩
      simp only [List.cons_append, Json.depthOfFields, depthOfFields_append] at deep
      exact exprOf_toJson kind pos dataType doCast (exprKind_toJson kind depth (by omega))

theorem exprKind_toJson : (kind : ExprKind) → (depth : Nat) →
    Json.depthOfFields kind.fields ≤ depth → ∀ fields : Fields,
    (∀ name ∉ Expr.sharedNames, fields.named name = kind.fields.named name) →
    (ofDepth depth).exprKind? fields kind.form = some kind
  | .null, _, _, _, _ => rfl
  | .emptyArray, _, _, _, _ => rfl
  | .literal kind text, _, _, fields, own => by
      simp [exprKind?, ExprKind.form, ExprKind.fields, Fields.required, own, Expr.sharedNames,
        Json.scalarText?]
  | .var name, _, _, fields, own => by
      simp [exprKind?, ExprKind.form, ExprKind.fields, Fields.required, own, Expr.sharedNames,
        Json.string?]
  | .array entries, depth, deep, fields, own => by
      simp only [ExprKind.fields, Json.depthOfFields, Json.depth] at deep
      have back := arrayEntries_toJson entries depth (by omega)
      simp [exprKind?, ExprKind.form, ExprKind.fields, Fields.withDefault, own, Expr.sharedNames,
        Json.list?, back]
  | .access kind object member, depth, deep, fields, own => by
      simp only [ExprKind.fields, Json.depthOfFields] at deep own
      have back := operands_of_named own (expr_toJson object depth (by omega))
        (expr_toJson member depth (by omega))
      simp only [exprKind?, ExprKind.form, some_bind, back]
      rfl
  | .binary op left right, depth, deep, fields, own => by
      simp only [ExprKind.fields, Json.depthOfFields] at deep own
      have back := operands_of_named own (expr_toJson left depth (by omega))
        (expr_toJson right depth (by omega))
      simp only [exprKind?, ExprKind.form, some_bind, back]
      rfl
  | .instanceOf value className, depth, deep, fields, own => by
      simp only [ExprKind.fields, Json.depthOfFields] at deep own
      have back := operands_of_named own (expr_toJson value depth (by omega))
        (expr_toJson className depth (by omega))
      simp only [exprKind?, ExprKind.form, some_bind, back]
      rfl
  | .range kind low high, depth, deep, fields, own => by
      simp only [ExprKind.fields, Json.depthOfFields] at deep own
      have back := operands_of_named own (expr_toJson low depth (by omega))
        (expr_toJson high depth (by omega))
      simp only [exprKind?, ExprKind.form, some_bind, back]
      rfl
  | .typeHint hint operand, depth, deep, fields, own => by
      simp only [ExprKind.fields, Json.depthOfFields] at deep own
      have back := operands_of_named own (expr_toJson hint depth (by omega))
        (expr_toJson operand depth (by omega))
      simp only [exprKind?, ExprKind.form, some_bind, back]
      rfl
  | .fetch target source, depth, deep, fields, own => by
      simp only [ExprKind.fields, Json.depthOfFields] at deep own
      have back := operands_of_named own (expr_toJson target depth (by omega))
        (expr_toJson source depth (by omega))
      simp only [exprKind?, ExprKind.form, some_bind, back]
      rfl
  | .closureArrow parameter body, depth, deep, fields, own => by
      simp only [ExprKind.fields, Json.depthOfFields] at deep own
      have back := operands_of_named own (expr_toJson parameter depth (by omega))
        (expr_toJson body depth (by omega))
      simp only [exprKind?, ExprKind.form, some_bind, back]
      rfl
  | .call name callType arguments, depth, deep, fields, own => by
      simp only [ExprKind.fields, Json.depthOfFields, Json.depth] at deep
      have back := arguments_toJson arguments depth (by omega)
      simp [-Option.bind_eq_bind, some_bind, exprKind?, ExprKind.form, ExprKind.fields,
        Fields.required, Fields.withDefault, own, Expr.sharedNames, arguments?, Json.string?,
        Json.list?, word8_toNat, back]
  | .methodCall receiver name callType arguments, depth, deep, fields, own => by
      simp only [ExprKind.fields, Json.depthOfFields, Json.depth] at deep
      have first := expr_toJson receiver depth (by omega)
      have back := arguments_toJson arguments depth (by omega)
      simp [-Option.bind_eq_bind, some_bind, exprKind?, ExprKind.form, ExprKind.fields,
        Fields.required, Fields.withDefault, own, Expr.sharedNames, arguments?, Json.string?,
        Json.list?, word8_toNat, first, back]
  | .staticCall callee arguments, depth, deep, fields, own => by
      simp only [ExprKind.fields, Json.depthOfFields, Json.depth] at deep
      have back := arguments_toJson arguments depth (by omega)
      simp [-Option.bind_eq_bind, some_bind, exprKind?, ExprKind.form, ExprKind.fields,
        Fields.required, Fields.withDefault, own, Expr.sharedNames, arguments?, Json.string?,
        Json.list?, Json.flag?, back]
  | .new className dynamic arguments, depth, deep, fields, own => by
      simp only [ExprKind.fields, Json.depthOfFields, Json.depth] at deep
      have back := arguments_toJson arguments depth (by omega)
      simp [-Option.bind_eq_bind, some_bind, exprKind?, ExprKind.form, ExprKind.fields,
        Fields.required, Fields.withDefault, own, Expr.sharedNames, arguments?, Json.string?,
        Json.list?, Json.flag?, back]
  | .newType typeName arguments, depth, deep, fields, own => by
      simp only [ExprKind.fields, Json.depthOfFields, Json.depth] at deep
      have back := arguments_toJson arguments depth (by omega)
      simp [-Option.bind_eq_bind, some_bind, exprKind?, ExprKind.form, ExprKind.fields,
        Fields.required, Fields.withDefault, own, Expr.sharedNames, arguments?, Json.string?,
        Json.list?, back]
  | .unary op operand, depth, deep, fields, own => by
      simp only [ExprKind.fields, Json.depthOfFields] at deep
      have back := expr_toJson operand depth (by omega)
      simp [exprKind?, ExprKind.form, ExprKind.fields, Fields.required, own, Expr.sharedNames,
        back]
  | .ternary condition yes no, depth, deep, fields, own => by
      simp only [ExprKind.fields, Json.depthOfFields] at deep
      have first := expr_toJson condition depth (by omega)
      have second := expr_toJson yes depth (by omega)
      have third := expr_toJson no depth (by omega)
      simp [-Option.bind_eq_bind, some_bind, exprKind?, ExprKind.form, ExprKind.fields,
        Fields.required, own, Expr.sharedNames, first, second, third]
  | .cast typeName operand, depth, deep, fields, own => by
      simp only [ExprKind.fields, Json.depthOfFields] at deep
      have back := expr_toJson operand depth (by omega)
      simp [-Option.bind_eq_bind, some_bind, exprKind?, ExprKind.form, ExprKind.fields,
        Fields.required, own, Expr.sharedNames, Json.string?, back]
  | .closure parameters body locals, depth, deep, fields, own => by
      simp only [ExprKind.fields, List.cons_append, List.nil_append, Json.depthOfFields,
        Json.depth] at deep own
      have first := parameters_toJson parameters depth (by omega)
      have second := block_toJson body depth (by omega)
      have parametersRead : fields.withDefault "left" []
          (Json.list? (ofDepth depth).parameter?) = some parameters := by
        simp [Fields.withDefault, own, Expr.sharedNames, Json.list?, first]
      have bodyRead : (ofDepth depth).block? fields "right" = some body := by
        simp [block?, Fields.withDefault, own, Expr.sharedNames, Json.list?, second]
      have localsRead : fields.withDefault "locals" .empty Locals.ofJson? = some locals :=
        locals_of_named (by simp [own, Expr.sharedNames])
      simp only [exprKind?, ExprKind.form, some_bind, parametersRead, bodyRead, localsRead]
      rfl

theorem exprs_toJson : (exprs : List Expr) → (depth : Nat) →
    Json.depthOfItems (exprsJson exprs) ≤ depth →
    (exprsJson exprs).mapM (ofDepth depth).expr = some exprs
  | [], _, _ => rfl
  | e :: rest, depth, deep => by
      simp only [exprsJson, Json.depthOfItems] at deep
      have first := expr_toJson e depth (by omega)
      have others := exprs_toJson rest depth (by omega)
      rw [exprsJson]
      exact mapM_cons_some first others

theorem arguments_toJson : (arguments : List Expr) → (depth : Nat) →
    Json.depthOfItems (argumentsJson arguments) ≤ depth →
    (argumentsJson arguments).mapM (ofDepth depth).argument? = some arguments
  | [], _, _ => rfl
  | e :: rest, depth, deep => by
      simp only [argumentsJson, Json.depthOfItems, Json.depth, Json.depthOfFields] at deep
      have first := argument_toJson (expr_toJson e depth (by omega))
      have others := arguments_toJson rest depth (by omega)
      rw [argumentsJson]
      exact mapM_cons_some first others

theorem optional_toJson : (name : String) → (value : Option Expr) → (depth : Nat) →
    Json.depthOfFields (exprField name value) ≤ depth →
    ∀ e ∈ value, (ofDepth depth).expr e.toJson = some e
  | _, none, _, _ => by simp
  | _, some e, depth, deep => by
      simp only [exprField, Json.depthOfFields] at deep
      have back := expr_toJson e depth (by omega)
      simp [back]

theorem arrayEntries_toJson : (entries : List ArrayEntry) → (depth : Nat) →
    Json.depthOfItems (arrayEntriesJson entries) ≤ depth →
    (arrayEntriesJson entries).mapM ( TreeReader.arrayEntry? (ofDepth depth)) = some entries
  | [], _, _ => rfl
  | ⟨key, value⟩ :: rest, depth, deep => by
      simp only [arrayEntriesJson, Json.depthOfItems, Json.depth, depthOfFields_append,
        Json.depthOfFields] at deep
      have first := arrayEntry_toJson (optional_toJson "key" key depth (by omega))
        (expr_toJson value depth (by omega))
      have others := arrayEntries_toJson rest depth (by omega)
      rw [arrayEntriesJson]
      exact mapM_cons_some first others

theorem parameters_toJson : (parameters : List Parameter) → (depth : Nat) →
    Json.depthOfItems (parametersJson parameters) ≤ depth →
    (parametersJson parameters).mapM (ofDepth depth).parameter? = some parameters
  | [], _, _ => rfl
  | ⟨name, dataType, initial, constant, reference, pos⟩ :: rest, depth, deep => by
      simp only [parametersJson, Json.depthOfItems, Json.depth, depthOfFields_append] at deep
      have first := @parameter_toJson _ name dataType initial constant reference pos
        (optional_toJson "default" initial depth (by omega))
      have others := parameters_toJson rest depth (by omega)
      rw [parametersJson]
      exact mapM_cons_some first others

theorem statement_toJson : (s : Statement) → (depth : Nat) → s.toJson.depth ≤ depth →
    (ofDepth depth).statement s.toJson = some s
  | ⟨kind, pos, docblocks⟩, depth, deep => by
      rw [Statement.toJson, Json.depth] at deep
      obtain ⟨depth, rfl⟩ : ∃ inner, depth = inner + 1 := ⟨depth - 1, by omega⟩
      simp only [List.cons_append, Json.depthOfFields, depthOfFields_append] at deep
      exact statementOf_toJson kind pos docblocks (statementKind_toJson kind depth (by omega))

theorem statementKind_toJson : (kind : StatementKind) → (depth : Nat) →
    Json.depthOfFields kind.fields ≤ depth → ∀ fields : Fields,
    (∀ name ∉ Statement.sharedNames, fields.named name = kind.fields.named name) →
    (ofDepth depth).statementKind? fields kind.form = some kind
  | .jump _, _, _, _, _ => rfl
  | .empty, _, _, _, _ => rfl
  | .comment text, _, _, fields, own => by
      simp [statementKind?, StatementKind.form, StatementKind.fields, Fields.withDefault, own,
        Statement.sharedNames, Json.string?]
  | .cblock text, _, _, fields, own => by
      simp [statementKind?, StatementKind.form, StatementKind.fields, Fields.withDefault, own,
        Statement.sharedNames, Json.string?]
  | .lets assignments, depth, deep, fields, own => by
      simp only [StatementKind.fields, Json.depthOfFields, Json.depth] at deep
      have back := letAssignments_toJson assignments depth (by omega)
      simp [statementKind?, StatementKind.form, StatementKind.fields, Fields.withDefault, own,
        Statement.sharedNames, Json.list?, back]
  | .declare dataType declared, depth, deep, fields, own => by
      simp only [StatementKind.fields, Json.depthOfFields, Json.depth] at deep
      have back := declaredVariables_toJson declared depth (by omega)
      simp [-Option.bind_eq_bind, some_bind, statementKind?, StatementKind.form,
        StatementKind.fields, Fields.required, Fields.withDefault, own, Statement.sharedNames,
        Json.string?, Json.list?, back]
  | .fetch expr, depth, deep, fields, own => by
      simp only [StatementKind.fields, Json.depthOfFields] at deep
      have back := expr_toJson expr depth (by omega)
      simp [statementKind?, StatementKind.form, StatementKind.fields, Fields.required, own,
        Statement.sharedNames, back]
  | .assign mode assign, depth, deep, fields, own => by
      have back := assign_toJson assign depth deep fields own
      simp [statementKind?, StatementKind.form, back]
  | .echo expressions, depth, deep, fields, own => by
      simp only [StatementKind.fields, Json.depthOfFields, Json.depth] at deep
      have back := exprs_toJson expressions depth (by omega)
      simp [statementKind?, StatementKind.form, StatementKind.fields, exprs?, Fields.withDefault,
        own, Statement.sharedNames, Json.list?, back]
  | .effect kind expr, depth, deep, fields, own => by
      simp only [StatementKind.fields, Json.depthOfFields] at deep
      have back := expr_toJson expr depth (by omega)
      simp [statementKind?, StatementKind.form, StatementKind.fields, Fields.required, own,
        Statement.sharedNames, back]
  | .ret value, depth, deep, fields, own => by
      simp only [StatementKind.fields] at deep own
      have back : fields.optional "expr" (ofDepth depth).expr = some value :=
        optional_expr (by simp [own, Statement.sharedNames])
          (optional_toJson "expr" value depth deep)
      simp [statementKind?, StatementKind.form, back]
  | .branch condition body elseIfs otherwise, depth, deep, fields, own => by
      obtain ⟨first, second, third, fourth⟩ := branch_depth deep
      exact branch_of_named own (expr_toJson condition depth first) (block_toJson body depth second)
        (elseIfs_toJson elseIfs depth third) (otherwise_toJson otherwise depth fourth)
  | .whileLoop kind condition body, depth, deep, fields, own => by
      simp only [StatementKind.fields, Json.depthOfFields, Json.depth] at deep
      have first := expr_toJson condition depth (by omega)
      have second := block_toJson body depth (by omega)
      simp [-Option.bind_eq_bind, some_bind, statementKind?, StatementKind.form,
        StatementKind.fields, block?, Fields.required, Fields.withDefault, own,
        Statement.sharedNames, Json.list?, first, second]
  | .loop body, depth, deep, fields, own => by
      simp only [StatementKind.fields, Json.depthOfFields, Json.depth] at deep
      have back := block_toJson body depth (by omega)
      simp [statementKind?, StatementKind.form, StatementKind.fields, block?, Fields.withDefault,
        own, Statement.sharedNames, Json.list?, back]
  | .forLoop head iterated body, depth, deep, fields, own => by
      obtain ⟨key, value, reverse, counted, length⟩ := head
      simp only [StatementKind.fields, Json.depthOfFields, Json.depth, depthOfFields_append]
        at deep own
      have first := expr_toJson iterated depth (by omega)
      have second := block_toJson body depth (by omega)
      have keyRead : fields.optional "key" Json.string? = some key :=
        optional_string (by simp [own, Statement.sharedNames])
      have valueRead : fields.optional "value" Json.string? = some value :=
        optional_string (by simp [own, Statement.sharedNames])
      have lengthRead : fields.optional "length" Json.string? = some length :=
        optional_string (by simp [own, Statement.sharedNames])
      simp [-Option.bind_eq_bind, some_bind, statementKind?, StatementKind.form, block?,
        Fields.required, Fields.withDefault, own, Statement.sharedNames, Json.list?, Json.flag?,
        Json.bool?, first, second, keyRead, valueRead, lengthRead]
  | .switch subject clauses, depth, deep, fields, own => by
      simp only [StatementKind.fields, Json.depthOfFields, Json.depth] at deep
      have first := expr_toJson subject depth (by omega)
      have second := clauses_toJson clauses depth (by omega)
      simp [-Option.bind_eq_bind, some_bind, statementKind?, StatementKind.form,
        StatementKind.fields, Fields.required, Fields.withDefault, own, Statement.sharedNames,
        Json.list?, first, second]
  | .tryCatch body catches, depth, deep, fields, own => by
      simp only [StatementKind.fields, Json.depthOfFields, Json.depth] at deep
      have first := block_toJson body depth (by omega)
      have second := catches_toJson catches depth (by omega)
      simp [-Option.bind_eq_bind, some_bind, statementKind?, StatementKind.form,
        StatementKind.fields, block?, Fields.withDefault, own, Statement.sharedNames,
        Json.list?, first, second]

theorem block_toJson : (body : List Statement) → (depth : Nat) →
    Json.depthOfItems (blockJson body) ≤ depth →
    (blockJson body).mapM (ofDepth depth).statement = some body
  | [], _, _ => rfl
  | s :: rest, depth, deep => by
      simp only [blockJson, Json.depthOfItems] at deep
      have first := statement_toJson s depth (by omega)
      have others := block_toJson rest depth (by omega)
      rw [blockJson]
      exact mapM_cons_some first others

theorem otherwise_toJson : (otherwise : Option (List Statement)) → (depth : Nat) →
    (∀ body ∈ otherwise, Json.depthOfItems (blockJson body) ≤ depth) →
    ∀ body ∈ otherwise, (blockJson body).mapM (ofDepth depth).statement = some body
  | none, _, _ => by simp
  | some body, depth, deep => by
      have back := block_toJson body depth (deep body rfl)
      simp [back]

theorem assign_toJson : (assign : Assign) → (depth : Nat) →
    Json.depthOfFields assign.fields ≤ depth → ∀ fields : Fields,
    (∀ name ∉ Statement.sharedNames, fields.named name = assign.fields.named name) →
    (ofDepth depth).assign? fields = some assign
  | ⟨target, operator, base, property, index, value⟩, depth, deep, fields, own => by
      have bound := depthOfItems_nonempty "index-expr" (exprsJson index)
      simp only [Assign.fields, List.cons_append, Json.depthOfFields, depthOfFields_append] at deep
      exact assign_of_named _ own (exprs_toJson index depth (by omega))
        (optional_toJson "expr" value depth (by omega))

theorem letAssignments_toJson : (assignments : List LetAssignment) → (depth : Nat) →
    Json.depthOfItems (letAssignmentsJson assignments) ≤ depth →
    (letAssignmentsJson assignments).mapM (ofDepth depth).letAssignment? = some assignments
  | [], _, _ => rfl
  | ⟨⟨target, operator, base, property, index, value⟩, pos⟩ :: rest, depth, deep => by
      have bound := depthOfItems_nonempty "index-expr" (exprsJson index)
      simp only [letAssignmentsJson, Json.depthOfItems, Json.depth, Assign.fields,
        List.cons_append, Json.depthOfFields, depthOfFields_append] at deep
      have first := @letAssignment_toJson _ ⟨target, operator, base, property, index, value⟩ pos
        (exprs_toJson index depth (by omega)) (optional_toJson "expr" value depth (by omega))
      have others := letAssignments_toJson rest depth (by omega)
      rw [letAssignmentsJson]
      exact mapM_cons_some first others

theorem declaredVariables_toJson : (declared : List DeclaredVariable) → (depth : Nat) →
    Json.depthOfItems (declaredVariablesJson declared) ≤ depth →
    (declaredVariablesJson declared).mapM (ofDepth depth).declaredVariable? = some declared
  | [], _, _ => rfl
  | ⟨name, value, pos⟩ :: rest, depth, deep => by
      simp only [declaredVariablesJson, Json.depthOfItems, Json.depth, List.cons_append,
        Json.depthOfFields, depthOfFields_append] at deep
      have first := @declaredVariable_toJson _ name value pos
        (optional_toJson "expr" value depth (by omega))
      have others := declaredVariables_toJson rest depth (by omega)
      rw [declaredVariablesJson]
      exact mapM_cons_some first others

theorem elseIfs_toJson : (elseIfs : List ElseIf) → (depth : Nat) →
    Json.depthOfItems (elseIfsJson elseIfs) ≤ depth →
    (elseIfsJson elseIfs).mapM (ofDepth depth).elseIf? = some elseIfs
  | [], _, _ => rfl
  | ⟨condition, body, pos⟩ :: rest, depth, deep => by
      simp only [elseIfsJson, Json.depthOfItems, Json.depth, List.cons_append,
        Json.depthOfFields, depthOfFields_append] at deep
      have first := @elseIf_toJson _ condition body pos (expr_toJson condition depth (by omega))
        (block_toJson body depth (by omega))
      have others := elseIfs_toJson rest depth (by omega)
      rw [elseIfsJson]
      exact mapM_cons_some first others

theorem clauses_toJson : (clauses : List SwitchClause) → (depth : Nat) →
    Json.depthOfItems (clausesJson clauses) ≤ depth →
    (clausesJson clauses).mapM (ofDepth depth).switchClause? = some clauses
  | [], _, _ => rfl
  | ⟨some test, body⟩ :: rest, depth, deep => by
      simp only [clausesJson, Json.depthOfItems, Json.depth, Json.depthOfFields] at deep
      have first := caseClause_toJson (expr_toJson test depth (by omega))
        (block_toJson body depth (by omega))
      have others := clauses_toJson rest depth (by omega)
      rw [clausesJson]
      exact mapM_cons_some first others
  | ⟨none, body⟩ :: rest, depth, deep => by
      simp only [clausesJson, Json.depthOfItems, Json.depth, Json.depthOfFields] at deep
      have first := defaultClause_toJson (block_toJson body depth (by omega))
      have others := clauses_toJson rest depth (by omega)
      rw [clausesJson]
      exact mapM_cons_some first others

theorem catches_toJson : (catches : List Catch) → (depth : Nat) →
    Json.depthOfItems (catchesJson catches) ≤ depth →
    (catchesJson catches).mapM (ofDepth depth).catch? = some catches
  | [], _, _ => rfl
  | ⟨classes, binding, body, pos⟩ :: rest, depth, deep => by
      simp only [catchesJson, Json.depthOfItems, Json.depth, List.cons_append,
        Json.depthOfFields, depthOfFields_append] at deep
      have first := @catch_toJson _ classes binding body pos
        (exprs_toJson classes depth (by omega))
        (optional_toJson "variable" binding depth (by omega)) (block_toJson body depth (by omega))
      have others := catches_toJson rest depth (by omega)
      rw [catchesJson]
      exact mapM_cons_some first others

end

end Zephir
