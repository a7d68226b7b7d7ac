import Zephir.Load
import Zephir.Proofs.Json.ReadPretty
import Zephir.Proofs.Syntax.ReadTree

/-!
A dumped unit is loaded as itself, unless it is nested deeper than the reader of JSON follows.
The declarations are read back from their fields as the trees inside them are; the text is read
back because a tree writes no number that exceeds 32 bits.
-/

namespace Zephir

open TreeReader

/-! ### Declarations -/

theorem constant_toJson (c : Constant) (depth : Nat) (deep : c.toJson.depth ≤ depth) :
    (ofDepth depth).constant? c.toJson = some c := by
  obtain ⟨name, value, docblock, docblocks, pos⟩ := c
  obtain ⟨fields, all⟩ : ∃ fields : Fields, fields =
      ("name", .string name) :: exprField "default" value ++
        Fields.maybe "docblock" (docblock.map Json.string) ++ docblockFields docblocks ++
        pos.fields := ⟨_, rfl⟩
  simp only [Constant.toJson, Json.depth, List.cons_append, Json.depthOfFields,
    depthOfFields_append] at deep
  have nameRead : fields.required "name" Json.string? = some name := by
    simp [Fields.required, all, docblockFields, Json.string?]
  have valueRead : fields.optional "default" (ofDepth depth).expr = some value :=
    optional_expr (by simp [all, docblockFields])
      (optional_toJson "default" value depth (by omega))
  have docblockRead : fields.optional "docblock" Json.string? = some docblock :=
    optional_string (by simp [all, docblockFields])
  have docblocksRead : docblocks? fields = some docblocks :=
    docblocks_of_named (by simp [all])
  have place : Position.ofFields? fields = some pos := by
    apply position_of_named
    simp [all, docblockFields]
  rw [Constant.toJson, ← all, TreeReader.constant?, Json.object?]
  simp only [some_bind, nameRead, valueRead, docblockRead, docblocksRead, place]
  rfl

theorem shortcut_toJson (s : Shortcut) : shortcut? s.toJson = some s := by
  obtain ⟨name, pos⟩ := s
  have nameRead : Fields.required (("name", .string name) :: pos.fields) "name" Json.string? =
      some name := by
    simp [Fields.required, Json.string?]
  have place : Position.ofFields? (("name", .string name) :: pos.fields) = some pos := by
    apply position_of_named
    simp
  simp only [Shortcut.toJson, shortcut?, Json.object?, some_bind, nameRead, place]
  rfl

theorem property_toJson (p : Property) (depth : Nat) (deep : p.toJson.depth ≤ depth) :
    (ofDepth depth).property? p.toJson = some p := by
  obtain ⟨name, visibility, value, shortcuts, docblock, docblocks, pos⟩ := p
  obtain ⟨fields, all⟩ : ∃ fields : Fields, fields =
      ("name", .string name) :: Fields.nonempty "visibility" (visibility.map Json.string) ++
        exprField "default" value ++
        Fields.nonempty "shortcuts" (shortcuts.map Shortcut.toJson) ++
        Fields.maybe "docblock" (docblock.map Json.string) ++ docblockFields docblocks ++
        pos.fields := ⟨_, rfl⟩
  simp only [Property.toJson, Json.depth, List.cons_append, Json.depthOfFields,
    depthOfFields_append] at deep
  have nameRead : fields.required "name" Json.string? = some name := by
    simp [Fields.required, all, docblockFields, Json.string?]
  have visibilityRead : fields.withDefault "visibility" [] (Json.list? Json.string?) =
      some visibility :=
    Fields.withDefault_nonempty (by simp [all, docblockFields]) (string_strings visibility)
  have valueRead : fields.optional "default" (ofDepth depth).expr = some value :=
    optional_expr (by simp [all, docblockFields])
      (optional_toJson "default" value depth (by omega))
  have shortcutsRead : fields.withDefault "shortcuts" [] (Json.list? shortcut?) =
      some shortcuts :=
    Fields.withDefault_nonempty (by simp [all, docblockFields])
      (mapM_map_some fun s _ => shortcut_toJson s)
  have docblockRead : fields.optional "docblock" Json.string? = some docblock :=
    optional_string (by simp [all, docblockFields])
  have docblocksRead : docblocks? fields = some docblocks :=
    docblocks_of_named (by simp [all])
  have place : Position.ofFields? fields = some pos := by
    apply position_of_named
    simp [all, docblockFields]
  rw [Property.toJson, ← all, property?, Json.object?]
  simp only [some_bind, nameRead, visibilityRead, valueRead, shortcutsRead, docblockRead,
    docblocksRead, place]
  rfl

theorem method_toJson (m : Method) (depth : Nat) (deep : m.toJson.depth ≤ depth) :
    (ofDepth depth).method? m.toJson = some m := by
  obtain ⟨name, visibility, parameters, body, locals, shortcut, docblock, docblocks, pos⟩ := m
  obtain ⟨fields, all⟩ : ∃ fields : Fields, fields =
      [("name", .string name), ("visibility", .array (visibility.map Json.string)),
        ("parameters", .array (parametersJson parameters)),
        ("statements", .array (blockJson body)), ("locals", locals.toJson)] ++
        Fields.maybe "shortcut" (shortcut.map Json.string) ++
        Fields.maybe "docblock" (docblock.map Json.string) ++ docblockFields docblocks ++
        pos.fields := ⟨_, rfl⟩
  simp only [Method.toJson, Json.depth, List.cons_append, Json.depthOfFields,
    depthOfFields_append] at deep
  have nameRead : fields.required "name" Json.string? = some name := by
    simp [Fields.required, all, docblockFields, Json.string?]
  have visibilityRead : fields.withDefault "visibility" [] (Json.list? Json.string?) =
      some visibility :=
    Fields.withDefault_list (by simp [all, docblockFields]) (string_strings visibility)
  have parametersRead : fields.withDefault "parameters" []
      (Json.list? (ofDepth depth).parameter?) = some parameters :=
    Fields.withDefault_list (by simp [all, docblockFields])
      (parameters_toJson parameters depth (by omega))
  have bodyRead : (ofDepth depth).block? fields "statements" = some body :=
    Fields.withDefault_list (by simp [all, docblockFields]) (block_toJson body depth (by omega))
  have localsRead : fields.withDefault "locals" .empty Locals.ofJson? = some locals := by
    simp [Fields.withDefault, all, docblockFields, locals_toJson]
  have shortcutRead : fields.optional "shortcut" Json.string? = some shortcut :=
    optional_string (by simp [all, docblockFields])
  have docblockRead : fields.optional "docblock" Json.string? = some docblock :=
    optional_string (by simp [all, docblockFields])
  have docblocksRead : docblocks? fields = some docblocks :=
    docblocks_of_named (by simp [all])
  have place : Position.ofFields? fields = some pos := by
    apply position_of_named
    simp [all, docblockFields]
  rw [Method.toJson, ← all, method?, Json.object?]
  simp only [some_bind, nameRead, visibilityRead, parametersRead, bodyRead, localsRead,
    shortcutRead, docblockRead, docblocksRead, place]
  rfl

theorem depth_of_mem_items {item : Json} {items : List Json} (present : item ∈ items) :
    item.depth ≤ Json.depthOfItems items := by
  induction items with
  | nil => simp at present
  | cons first rest ih =>
      rw [Json.depthOfItems]
      obtain rfl | later := List.mem_cons.mp present
      · exact Nat.le_max_left ..
      · exact Nat.le_trans (ih later) (Nat.le_max_right ..)

theorem depth_of_mem_fields {field : String × Json} {fields : Fields} (present : field ∈ fields) :
    field.2.depth ≤ Json.depthOfFields fields := by
  induction fields with
  | nil => simp at present
  | cons first rest ih =>
      obtain ⟨name, value⟩ := first
      rw [Json.depthOfFields]
      obtain rfl | later := List.mem_cons.mp present
      · exact Nat.le_max_left ..
      · exact Nat.le_trans (ih later) (Nat.le_max_right ..)

theorem declarations_toJson {α : Type} {read : Json → Option α} {write : α → Json} {depth : Nat}
    (back : ∀ a, (write a).depth ≤ depth → read (write a) = some a) (values : List α)
    (deep : Json.depthOfItems (values.map write) ≤ depth) :
    (values.map write).mapM read = some values := by
  apply mapM_map_some
  intro a present
  have inside := depth_of_mem_items (List.mem_map_of_mem (f := write) present)
  exact back a (by omega)

theorem definition_toJson (d : Definition) (depth : Nat) (deep : d.toJson.depth ≤ depth) :
    (ofDepth depth).definition? d.toJson = some d := by
  obtain ⟨constants, properties, methods⟩ := d
  obtain ⟨fields, all⟩ : ∃ fields : Fields, fields =
      [("constants", .array (constants.map Constant.toJson)),
        ("properties", .array (properties.map Property.toJson)),
        ("methods", .array (methods.map Method.toJson))] := ⟨_, rfl⟩
  simp only [Definition.toJson, Json.depth, Json.depthOfFields] at deep
  have constantsRead : fields.withDefault "constants" []
      (Json.list? (ofDepth depth).constant?) = some constants :=
    Fields.withDefault_list (by simp [all])
      (declarations_toJson (fun c => constant_toJson c depth) constants (by omega))
  have propertiesRead : fields.withDefault "properties" []
      (Json.list? (ofDepth depth).property?) = some properties :=
    Fields.withDefault_list (by simp [all])
      (declarations_toJson (fun p => property_toJson p depth) properties (by omega))
  have methodsRead : fields.withDefault "methods" []
      (Json.list? (ofDepth depth).method?) = some methods :=
    Fields.withDefault_list (by simp [all])
      (declarations_toJson (fun m => method_toJson m depth) methods (by omega))
  rw [Definition.toJson, ← all, definition?, Json.record?]
  simp only [some_bind, constantsRead, propertiesRead, methodsRead]
  rfl

@[simp] theorem named_sectionFields {α : Type} (key name : String) (write : α → Json)
    (map : OrderedMap α) :
    Fields.named (sectionFields key write map) name =
      if key = name ∧ map.isEmpty = false then
        [.object (map.entries.map fun entry => (entry.1, write entry.2))] else [] := by
  unfold sectionFields
  cases map.isEmpty <;> simp

theorem section_of_named {α : Type} {fields : Fields} {name : String} {read : Json → Option α}
    {write : α → Json} {map : OrderedMap α} {depth : Nat}
    (found : fields.named name = Fields.named (sectionFields name write map) name)
    (back : ∀ a, (write a).depth ≤ depth → read (write a) = some a)
    (deep : Json.depthOfFields (sectionFields name write map) ≤ depth) :
    fields.withDefault name [] (Json.map? read) = some map.entries := by
  rw [Fields.withDefault, found, named_sectionFields]
  cases filled : map.isEmpty with
  | true =>
      have none : map.entries = [] := by simpa [OrderedMap.isEmpty] using filled
      simp [none]
  | false =>
      simp only [sectionFields, filled, Bool.false_eq_true, if_false, Json.depthOfFields,
        Json.depth] at deep
      have each : ∀ entry ∈ map.entries, read (write entry.2) = some entry.2 := by
        intro entry present
        have inside := depth_of_mem_fields
          (List.mem_map_of_mem (f := fun entry => (entry.1, write entry.2)) present)
        exact back entry.2 (by simp only at inside; omega)
      simpa using map_toJson each

def Members.names : List String :=
  ["definition", "constants", "properties", "methods"]

theorem members_of_named {fields : Fields} (m : Members) (depth : Nat)
    (own : ∀ name ∈ Members.names, fields.named name = m.fields.named name)
    (deep : Json.depthOfFields m.fields ≤ depth) :
    (ofDepth depth).members? fields = some m := by
  obtain ⟨definition, constants, properties, methods⟩ := m
  simp only [Members.fields, depthOfFields_append] at deep
  have definitionRead : fields.optional "definition" (ofDepth depth).definition? =
      some definition := by
    refine Fields.optional_of_named Definition.toJson ?_ ?_
    · simp [own "definition" (by decide), Members.fields]
    · rintro d rfl
      simp only [Fields.maybe, Option.map_some, Json.depthOfFields] at deep
      exact ⟨by simp [Definition.toJson], definition_toJson d depth (by omega)⟩
  have constantsRead := @section_of_named _ fields "constants" (ofDepth depth).constant?
    Constant.toJson constants depth (by simp [own "constants" (by decide), Members.fields])
    (fun c => constant_toJson c depth) (by omega)
  have propertiesRead := @section_of_named _ fields "properties" (ofDepth depth).property?
    Property.toJson properties depth (by simp [own "properties" (by decide), Members.fields])
    (fun p => property_toJson p depth) (by omega)
  have methodsRead := @section_of_named _ fields "methods" (ofDepth depth).method?
    Method.toJson methods depth (by simp [own "methods" (by decide), Members.fields])
    (fun m => method_toJson m depth) (by omega)
  simp only [members?, some_bind, definitionRead, constantsRead, propertiesRead, methodsRead,
    OrderedMap.ofList_entries]
  rfl

theorem useAlias_toJson (u : UseAlias) : useAlias? u.toJson = some u := by
  obtain ⟨name, shortName⟩ := u
  obtain ⟨fields, all⟩ : ∃ fields : Fields, fields =
      ("name", .string name) :: Fields.maybe "alias" (shortName.map Json.string) := ⟨_, rfl⟩
  have nameRead : fields.required "name" Json.string? = some name := by
    simp [Fields.required, all, Json.string?]
  have shortNameRead : fields.optional "alias" Json.string? = some shortName :=
    optional_string (by simp [all])
  rw [UseAlias.toJson, ← all, useAlias?, Json.record?]
  simp only [some_bind, nameRead, shortNameRead]
  rfl

theorem named_members (m : Members) (name : String) (foreign : name ∉ Members.names) :
    m.fields.named name = [] := by
  simp only [Members.names, List.mem_cons, List.not_mem_nil, or_false, not_or] at foreign
  obtain ⟨definition, constants, properties, methods⟩ := foreign
  simp [Members.fields, Ne.symm definition, Ne.symm constants, Ne.symm properties,
    Ne.symm methods]

theorem named_nodeKind (kind : NodeKind) (name : String)
    (shared : name ∈ Statement.sharedNames) : kind.fields.named name = [] := by
  have foreign : name ∉ Members.names := by
    revert name
    decide
  simp only [Statement.sharedNames, List.mem_cons, List.not_mem_nil, or_false] at shared
  cases kind with
  | classDecl decl =>
      rcases shared with rfl | rfl | rfl | rfl | rfl <;>
        simp [NodeKind.fields, named_members _ _ foreign]
  | interfaceDecl decl =>
      rcases shared with rfl | rfl | rfl | rfl | rfl <;>
        simp [NodeKind.fields, named_members _ _ foreign]
  | _ => rcases shared with rfl | rfl | rfl | rfl | rfl <;> simp [NodeKind.fields]

theorem function_of_named {fields : Fields} (decl : Function) (depth : Nat)
    (own : ∀ name ∉ Statement.sharedNames,
      fields.named name = (NodeKind.functionDecl decl).fields.named name)
    (deep : Json.depthOfFields (NodeKind.functionDecl decl).fields ≤ depth) :
    (ofDepth depth).nodeKind? fields .functionDecl = some (.functionDecl decl) := by
  obtain ⟨name, parameters, body, locals, docblock⟩ := decl
  simp only [NodeKind.fields, List.cons_append, Json.depthOfFields, Json.depth] at deep own
  have nameRead : fields.required "name" Json.string? = some name := by
    simp [Fields.required, own "name" (by decide), Json.string?]
  have parametersRead : fields.withDefault "parameters" []
      (Json.list? (ofDepth depth).parameter?) = some parameters :=
    Fields.withDefault_list (by simp [own "parameters" (by decide)])
      (parameters_toJson parameters depth (by omega))
  have bodyRead : (ofDepth depth).block? fields "statements" = some body :=
    Fields.withDefault_list (by simp [own "statements" (by decide)])
      (block_toJson body depth (by omega))
  have localsRead : fields.withDefault "locals" .empty Locals.ofJson? = some locals := by
    simp [Fields.withDefault, own "locals" (by decide), locals_toJson]
  have docblockRead : fields.optional "docblock" Json.string? = some docblock :=
    optional_string (by simp [own "docblock" (by decide)])
  simp only [nodeKind?, some_bind, nameRead, parametersRead, bodyRead, localsRead, docblockRead]
  rfl

theorem class_of_named {fields : Fields} (decl : Class) (depth : Nat)
    (own : ∀ name ∉ Statement.sharedNames,
      fields.named name = (NodeKind.classDecl decl).fields.named name)
    (deep : Json.depthOfFields (NodeKind.classDecl decl).fields ≤ depth) :
    (ofDepth depth).nodeKind? fields .classDecl = some (.classDecl decl) := by
  obtain ⟨name, isAbstract, isFinal, parent, interfaces, docblock, members⟩ := decl
  have bound := depthOfItems_nonempty "implements" (exprsJson interfaces)
  have foreign := named_members members
  simp only [NodeKind.fields, List.cons_append, Json.depthOfFields, depthOfFields_append]
    at deep own
  have nameRead : fields.required "name" Json.string? = some name := by
    simp [Fields.required, own "name" (by decide), foreign "name" (by decide), Json.string?]
  have abstractRead : fields.withDefault "abstract" false Json.flag? = some isAbstract := by
    simp [Fields.withDefault, own "abstract" (by decide), foreign "abstract" (by decide),
      Json.flag?]
  have finalRead : fields.withDefault "final" false Json.flag? = some isFinal := by
    simp [Fields.withDefault, own "final" (by decide), foreign "final" (by decide), Json.flag?]
  have parentRead : fields.optional "extends" Json.string? = some parent :=
    optional_string (by simp [own "extends" (by decide), foreign "extends" (by decide)])
  have interfacesRead : (ofDepth depth).exprs? fields "implements" = some interfaces :=
    Fields.withDefault_nonempty
      (by simp [own "implements" (by decide), foreign "implements" (by decide)])
      (exprs_toJson interfaces depth (by omega))
  have docblockRead : fields.optional "docblock" Json.string? = some docblock :=
    optional_string (by simp [own "docblock" (by decide), foreign "docblock" (by decide)])
  have membersRead : (ofDepth depth).members? fields = some members := by
    refine members_of_named members depth ?_ (by omega)
    intro name present
    have found := own name
    simp only [Members.names, List.mem_cons, List.not_mem_nil, or_false] at present
    rcases present with rfl | rfl | rfl | rfl <;> simp [found (by decide)]
  simp only [nodeKind?, some_bind, nameRead, abstractRead, finalRead, parentRead, interfacesRead,
    docblockRead, membersRead]
  rfl

theorem interface_of_named {fields : Fields} (decl : Interface) (depth : Nat)
    (own : ∀ name ∉ Statement.sharedNames,
      fields.named name = (NodeKind.interfaceDecl decl).fields.named name)
    (deep : Json.depthOfFields (NodeKind.interfaceDecl decl).fields ≤ depth) :
    (ofDepth depth).nodeKind? fields .interfaceDecl = some (.interfaceDecl decl) := by
  obtain ⟨name, parents, docblock, members⟩ := decl
  have bound := depthOfItems_nonempty "extends" (exprsJson parents)
  have foreign := named_members members
  simp only [NodeKind.fields, List.cons_append, Json.depthOfFields, depthOfFields_append]
    at deep own
  have nameRead : fields.required "name" Json.string? = some name := by
    simp [Fields.required, own "name" (by decide), foreign "name" (by decide), Json.string?]
  have parentsRead : (ofDepth depth).exprs? fields "extends" = some parents :=
    Fields.withDefault_nonempty
      (by simp [own "extends" (by decide), foreign "extends" (by decide)])
      (exprs_toJson parents depth (by omega))
  have docblockRead : fields.optional "docblock" Json.string? = some docblock :=
    optional_string (by simp [own "docblock" (by decide), foreign "docblock" (by decide)])
  have membersRead : (ofDepth depth).members? fields = some members := by
    refine members_of_named members depth ?_ (by omega)
    intro name present
    have found := own name
    simp only [Members.names, List.mem_cons, List.not_mem_nil, or_false] at present
    rcases present with rfl | rfl | rfl | rfl <;> simp [found (by decide)]
  simp only [nodeKind?, some_bind, nameRead, parentsRead, docblockRead, membersRead]
  rfl

theorem nodeKind_of_named {fields : Fields} (kind : NodeKind) (depth : Nat)
    (own : ∀ name ∉ Statement.sharedNames, fields.named name = kind.fields.named name)
    (deep : Json.depthOfFields kind.fields ≤ depth) :
    (ofDepth depth).nodeKind? fields kind.form = some kind := by
  cases kind with
  | namespaceDecl name =>
      simp [nodeKind?, NodeKind.form, NodeKind.fields, Fields.required, own "name" (by decide),
        Json.string?]
  | useDecl aliases =>
      have back : fields.withDefault "aliases" [] (Json.list? useAlias?) = some aliases :=
        Fields.withDefault_list (by simp [own "aliases" (by decide), NodeKind.fields])
          (mapM_map_some fun u _ => useAlias_toJson u)
      simp [nodeKind?, NodeKind.form, back]
  | require expr =>
      simp only [NodeKind.fields, Json.depthOfFields] at deep
      have back := expr_toJson expr depth (by omega)
      simp [nodeKind?, NodeKind.form, NodeKind.fields, Fields.required, own "expr" (by decide),
        back]
  | comment text =>
      simp [nodeKind?, NodeKind.form, NodeKind.fields, Fields.withDefault,
        own "value" (by decide), Json.string?]
  | cblock text =>
      simp [nodeKind?, NodeKind.form, NodeKind.fields, Fields.withDefault,
        own "value" (by decide), Json.string?]
  | functionDecl decl => exact function_of_named decl depth own deep
  | classDecl decl => exact class_of_named decl depth own deep
  | interfaceDecl decl => exact interface_of_named decl depth own deep

theorem node_toJson (n : Node) (depth : Nat) (deep : n.toJson.depth ≤ depth) :
    (ofDepth depth).node? n.toJson = some n := by
  obtain ⟨kind, pos, docblocks⟩ := n
  obtain ⟨fields, all⟩ : ∃ fields : Fields, fields =
      ("type", Json.string kind.tag) :: kind.fields ++ pos.fields ++
        docblockFields docblocks := ⟨_, rfl⟩
  simp only [Node.toJson, Json.depth, List.cons_append, Json.depthOfFields,
    depthOfFields_append] at deep
  have own : ∀ name ∉ Statement.sharedNames, fields.named name = kind.fields.named name := by
    intro name foreign
    simp only [Statement.sharedNames, List.mem_cons, List.not_mem_nil, or_false, not_or] at foreign
    simp [all, docblockFields, foreign, eq_comm]
  have form : fields.named "type" = [.string kind.form.tag] := by
    have none := named_nodeKind kind "type" (by decide)
    simp [all, docblockFields, none, NodeKind.tag]
  have tag : fields.required "type" (Json.choice? NodeForm.all fun form => [form.tag]) =
      some kind.form := by
    rw [Fields.required_of_named form, nodeForm_tag]
  have kindRead := nodeKind_of_named kind depth own (by omega)
  have place : Position.ofFields? fields = some pos := by
    apply position_of_named
    intro name present
    have none := named_nodeKind kind name
    simp only [List.mem_cons, List.not_mem_nil, or_false] at present
    obtain rfl | rfl | rfl := present <;> simp [all, docblockFields, none (by decide)]
  have comments : docblocks? fields = some docblocks := by
    have none := named_nodeKind kind "docblocks" (by decide)
    apply docblocks_of_named
    simp [all, none]
  rw [Node.toJson, ← all, node?, Json.object?]
  simp only [some_bind, tag, kindRead, place, comments]
  rfl

theorem unit_toJson (unit : List Node) :
    unitOfJson? (.array (unit.map Node.toJson)) = some unit := by
  rw [unitOfJson?, Json.list?]
  apply declarations_toJson fun n => node_toJson n _
  rw [Json.depth]
  omega

/-! ### Numbers in the dump -/

theorem integralFields_append {left right : Fields} :
    Json.IntegralFields (left ++ right) ↔
      Json.IntegralFields left ∧ Json.IntegralFields right := by
  induction left with
  | nil => simp [Json.IntegralFields]
  | cons field rest ih => simp [Json.IntegralFields, ih, and_assoc]

theorem integralItems_map {α : Type} {write : α → Json} (values : List α)
    (each : ∀ a, (write a).Integral) : Json.IntegralItems (values.map write) := by
  induction values with
  | nil => trivial
  | cons a rest ih => exact ⟨each a, ih⟩

theorem integralFields_map {α : Type} {write : α → Json} (entries : List (String × α))
    (each : ∀ a, (write a).Integral) :
    Json.IntegralFields (entries.map fun entry => (entry.1, write entry.2)) := by
  induction entries with
  | nil => trivial
  | cons entry rest ih => exact ⟨each entry.2, ih⟩

theorem integral_ofNat {n : Nat} (small : n ≤ UInt32.size) : (Json.ofNat n).Integral := by
  have bound : (n : Int) ≤ UInt32.size := by exact_mod_cast small
  rw [Json.ofNat, Json.Integral]
  simp only [UInt32.size] at bound
  omega

theorem integral_position (pos : Position) : Json.IntegralFields pos.fields := by
  have line := integral_ofNat (Nat.le_of_lt pos.line.toNat_lt)
  have column := integral_ofNat (Nat.le_of_lt pos.column.toNat_lt)
  simp [Position.fields, Json.IntegralFields, Json.Integral, line, column]

theorem integral_callType (callType : UInt8) : (Json.ofNat callType.toNat).Integral := by
  have small : callType.toNat < 256 := callType.toNat_lt
  exact integral_ofNat (by simp only [UInt32.size]; omega)

theorem integral_strings (texts : List String) : Json.IntegralItems (texts.map Json.string) :=
  integralItems_map texts fun _ => trivial

theorem integral_maybe (name : String) (text : Option String) :
    Json.IntegralFields (Fields.maybe name (text.map Json.string)) := by
  cases text <;> simp [Fields.maybe, Json.IntegralFields, Json.Integral]

theorem integral_nonempty {name : String} {items : List Json} (each : Json.IntegralItems items) :
    Json.IntegralFields (Fields.nonempty name items) := by
  cases items with
  | nil => trivial
  | cons item rest => exact ⟨each, trivial⟩

theorem integral_docblock (doc : Docblock) : doc.toJson.Integral := by
  obtain ⟨lines, multiLine, document, pos⟩ := doc
  have place := integral_position pos
  have text : lines.toJson.Integral := by
    cases lines with
    | one line => trivial
    | many lines => exact integral_strings lines
  simp [Docblock.toJson, Json.Integral, Json.IntegralFields, text, place]

theorem integral_docblocks (docblocks : List Docblock) :
    Json.IntegralFields (docblockFields docblocks) :=
  integral_nonempty (integralItems_map docblocks integral_docblock)

theorem integral_locals (locals : Locals) : locals.toJson.Integral := by
  refine integralFields_map locals.entries ?_
  intro var
  have place := integral_position var.pos
  simp [Local.toJson, Json.Integral, Json.IntegralFields, place]

mutual

theorem integral_expr : (e : Expr) → e.toJson.Integral
  | ⟨kind, pos, dataType, doCast⟩ => by
      have own := integral_exprKind kind
      have place := integral_position pos
      have typed := integral_maybe "data-type" dataType
      cases doCast <;>
        simp [Expr.toJson, Json.Integral, Json.IntegralFields, integralFields_append, own, place,
          typed]

theorem integral_exprKind : (kind : ExprKind) → Json.IntegralFields kind.fields
  | .null => trivial
  | .literal _ _ => ⟨trivial, trivial⟩
  | .emptyArray => trivial
  | .array entries => ⟨integral_arrayEntries entries, trivial⟩
  | .var _ => ⟨trivial, trivial⟩
  | .access _ object member => ⟨integral_expr object, integral_expr member, trivial⟩
  | .call _ callType arguments =>
      ⟨trivial, integral_callType callType, integral_arguments arguments, trivial⟩
  | .methodCall receiver _ callType arguments =>
      ⟨integral_expr receiver, trivial, integral_callType callType, integral_arguments arguments,
        trivial⟩
  | .staticCall _ arguments =>
      ⟨trivial, trivial, trivial, trivial, integral_arguments arguments, trivial⟩
  | .new _ _ arguments => ⟨trivial, trivial, integral_arguments arguments, trivial⟩
  | .newType _ arguments => ⟨trivial, integral_arguments arguments, trivial⟩
  | .unary _ operand => ⟨integral_expr operand, trivial⟩
  | .binary _ left right => ⟨integral_expr left, integral_expr right, trivial⟩
  | .instanceOf value className => ⟨integral_expr value, integral_expr className, trivial⟩
  | .range _ low high => ⟨integral_expr low, integral_expr high, trivial⟩
  | .ternary condition yes no =>
      ⟨integral_expr condition, integral_expr yes, integral_expr no, trivial⟩
  | .cast _ operand => ⟨trivial, integral_expr operand, trivial⟩
  | .typeHint hint operand => ⟨integral_expr hint, integral_expr operand, trivial⟩
  | .fetch target source => ⟨integral_expr target, integral_expr source, trivial⟩
  | .closure parameters body locals => by
      refine ⟨integral_parameters parameters, integral_block body, ?_⟩
      unfold Locals.closureFields
      split
      · trivial
      · exact ⟨integral_locals locals, trivial⟩
  | .closureArrow parameter body => ⟨integral_expr parameter, integral_expr body, trivial⟩

theorem integral_exprs : (exprs : List Expr) → Json.IntegralItems (exprsJson exprs)
  | [] => trivial
  | e :: rest => ⟨integral_expr e, integral_exprs rest⟩

theorem integral_arguments : (arguments : List Expr) → Json.IntegralItems (argumentsJson arguments)
  | [] => trivial
  | e :: rest => ⟨⟨integral_expr e, trivial⟩, integral_arguments rest⟩

theorem integral_exprField (name : String) : (value : Option Expr) →
    Json.IntegralFields (exprField name value)
  | none => trivial
  | some e => ⟨integral_expr e, trivial⟩

theorem integral_arrayEntries : (entries : List ArrayEntry) →
    Json.IntegralItems (arrayEntriesJson entries)
  | [] => trivial
  | ⟨key, value⟩ :: rest =>
      ⟨integralFields_append.mpr ⟨integral_exprField "key" key, integral_expr value, trivial⟩,
        integral_arrayEntries rest⟩

theorem integral_parameters : (parameters : List Parameter) →
    Json.IntegralItems (parametersJson parameters)
  | [] => trivial
  | ⟨name, dataType, initial, constant, reference, pos⟩ :: rest => by
      have default := integral_exprField "default" initial
      have place := integral_position pos
      have others := integral_parameters rest
      simp [parametersJson, Json.IntegralItems, Json.Integral, Json.IntegralFields,
        integralFields_append, default, place, others]

theorem integral_statement : (s : Statement) → s.toJson.Integral
  | ⟨kind, pos, docblocks⟩ => by
      have own := integral_statementKind kind
      have place := integral_position pos
      have comments := integral_docblocks docblocks
      rw [docblockFields] at comments
      simp [Statement.toJson, Json.Integral, Json.IntegralFields, integralFields_append, own,
        place, comments]

theorem integral_statementKind : (kind : StatementKind) → Json.IntegralFields kind.fields
  | .lets assignments => ⟨integral_letAssignments assignments, trivial⟩
  | .declare _ declared => ⟨trivial, integral_declaredVariables declared, trivial⟩
  | .fetch expr => ⟨integral_expr expr, trivial⟩
  | .assign _ assign => integral_assign assign
  | .echo expressions => ⟨integral_exprs expressions, trivial⟩
  | .effect _ expr => ⟨integral_expr expr, trivial⟩
  | .ret value => integral_exprField "expr" value
  | .jump _ => trivial
  | .empty => trivial
  | .branch condition body elseIfs none => by
      have others := @integral_nonempty "elseif_statements" _ (integral_elseIfs elseIfs)
      exact ⟨integral_expr condition, integral_block body,
        integralFields_append.mpr ⟨others, trivial⟩⟩
  | .branch condition body elseIfs (some otherwise) => by
      have others := @integral_nonempty "elseif_statements" _ (integral_elseIfs elseIfs)
      exact ⟨integral_expr condition, integral_block body,
        integralFields_append.mpr ⟨others, integral_block otherwise, trivial⟩⟩
  | .whileLoop _ condition body => ⟨integral_expr condition, integral_block body, trivial⟩
  | .loop body => ⟨integral_block body, trivial⟩
  | .forLoop head iterated body => by
      have key := integral_maybe "key" head.key
      have value := integral_maybe "value" head.value
      have length := integral_maybe "length" head.length
      have expr := integral_expr iterated
      have block := integral_block body
      simp [StatementKind.fields, Json.IntegralFields, Json.Integral, integralFields_append, key,
        value, length, expr, block]
  | .switch subject clauses => ⟨integral_expr subject, integral_clauses clauses, trivial⟩
  | .tryCatch body catches => ⟨integral_block body, integral_catches catches, trivial⟩
  | .comment _ => ⟨trivial, trivial⟩
  | .cblock _ => ⟨trivial, trivial⟩

theorem integral_block : (body : List Statement) → Json.IntegralItems (blockJson body)
  | [] => trivial
  | s :: rest => ⟨integral_statement s, integral_block rest⟩

theorem integral_assign : (assign : Assign) → Json.IntegralFields assign.fields
  | ⟨target, operator, base, property, index, value⟩ => by
      have operatorField : Json.IntegralFields
          (Fields.maybe "operator" (operator.map fun op => .string op.name)) := by
        cases operator <;> simp [Fields.maybe, Json.IntegralFields, Json.Integral]
      have propertyField := integral_maybe "property" property
      have indexField := @integral_nonempty "index-expr" _ (integral_exprs index)
      have valueField := integral_exprField "expr" value
      simp [Assign.fields, Json.IntegralFields, Json.Integral, integralFields_append,
        operatorField, propertyField, indexField, valueField]

theorem integral_letAssignments : (assignments : List LetAssignment) →
    Json.IntegralItems (letAssignmentsJson assignments)
  | [] => trivial
  | ⟨assign, pos⟩ :: rest =>
      ⟨integralFields_append.mpr ⟨integral_assign assign, integral_position pos⟩,
        integral_letAssignments rest⟩

theorem integral_declaredVariables : (declared : List DeclaredVariable) →
    Json.IntegralItems (declaredVariablesJson declared)
  | [] => trivial
  | ⟨_, value, pos⟩ :: rest =>
      ⟨⟨trivial, integralFields_append.mpr
        ⟨integral_exprField "expr" value, integral_position pos⟩⟩, integral_declaredVariables rest⟩

theorem integral_elseIfs : (elseIfs : List ElseIf) → Json.IntegralItems (elseIfsJson elseIfs)
  | [] => trivial
  | ⟨condition, body, pos⟩ :: rest =>
      ⟨⟨integral_expr condition, integral_block body, integral_position pos⟩,
        integral_elseIfs rest⟩

theorem integral_clauses : (clauses : List SwitchClause) →
    Json.IntegralItems (clausesJson clauses)
  | [] => trivial
  | ⟨some test, body⟩ :: rest =>
      ⟨⟨trivial, integral_expr test, integral_block body, trivial⟩, integral_clauses rest⟩
  | ⟨none, body⟩ :: rest => ⟨⟨trivial, integral_block body, trivial⟩, integral_clauses rest⟩

theorem integral_catches : (catches : List Catch) → Json.IntegralItems (catchesJson catches)
  | [] => trivial
  | ⟨classes, binding, body, pos⟩ :: rest => by
      have caught := integral_exprs classes
      have bound := integral_exprField "variable" binding
      have block := integral_block body
      have place := integral_position pos
      have others := integral_catches rest
      simp [catchesJson, Json.IntegralItems, Json.Integral, Json.IntegralFields,
        integralFields_append, caught, bound, block, place, others]

end

theorem integral_constant (c : Constant) : c.toJson.Integral := by
  have value := integral_exprField "default" c.value
  have docblock := integral_maybe "docblock" c.docblock
  have docblocks := integral_docblocks c.docblocks
  have place := integral_position c.pos
  simp [Constant.toJson, Json.Integral, Json.IntegralFields, integralFields_append, value,
    docblock, docblocks, place]

theorem integral_shortcut (s : Shortcut) : s.toJson.Integral :=
  ⟨trivial, integral_position s.pos⟩

theorem integral_property (p : Property) : p.toJson.Integral := by
  have visibility := @integral_nonempty "visibility" _ (integral_strings p.visibility)
  have value := integral_exprField "default" p.value
  have shortcuts := @integral_nonempty "shortcuts" _
    (integralItems_map p.shortcuts integral_shortcut)
  have docblock := integral_maybe "docblock" p.docblock
  have docblocks := integral_docblocks p.docblocks
  have place := integral_position p.pos
  simp [Property.toJson, Json.Integral, Json.IntegralFields, integralFields_append, visibility,
    value, shortcuts, docblock, docblocks, place]

theorem integral_method (m : Method) : m.toJson.Integral := by
  have visibility := integral_strings m.visibility
  have parameters := integral_parameters m.parameters
  have body := integral_block m.body
  have locals := integral_locals m.locals
  have shortcut := integral_maybe "shortcut" m.shortcut
  have docblock := integral_maybe "docblock" m.docblock
  have docblocks := integral_docblocks m.docblocks
  have place := integral_position m.pos
  simp [Method.toJson, Json.Integral, Json.IntegralFields, integralFields_append, visibility,
    parameters, body, locals, shortcut, docblock, docblocks, place]

theorem integral_section {α : Type} {write : α → Json} (name : String) (map : OrderedMap α)
    (each : ∀ a, (write a).Integral) : Json.IntegralFields (sectionFields name write map) := by
  unfold sectionFields
  split
  · trivial
  · exact ⟨integralFields_map map.entries each, trivial⟩

theorem integral_members (m : Members) : Json.IntegralFields m.fields := by
  have definition : Json.IntegralFields
      (Fields.maybe "definition" (m.definition.map Definition.toJson)) := by
    cases m.definition with
    | none => trivial
    | some d =>
        exact ⟨⟨integralItems_map d.constants integral_constant,
          integralItems_map d.properties integral_property,
          integralItems_map d.methods integral_method, trivial⟩, trivial⟩
  have constants := integral_section "constants" m.constants integral_constant
  have properties := integral_section "properties" m.properties integral_property
  have methods := integral_section "methods" m.methods integral_method
  simp [Members.fields, integralFields_append, definition, constants, properties, methods]

theorem integral_nodeKind (kind : NodeKind) : Json.IntegralFields kind.fields := by
  cases kind with
  | namespaceDecl name => exact ⟨trivial, trivial⟩
  | useDecl aliases =>
      refine ⟨integralItems_map aliases ?_, trivial⟩
      intro u
      exact ⟨trivial, integral_maybe "alias" u.shortName⟩
  | require expr => exact ⟨integral_expr expr, trivial⟩
  | comment text => exact ⟨trivial, trivial⟩
  | cblock text => exact ⟨trivial, trivial⟩
  | functionDecl decl =>
      exact ⟨trivial, integral_parameters decl.parameters, integral_block decl.body,
        integral_locals decl.locals, integral_maybe "docblock" decl.docblock⟩
  | classDecl decl =>
      have parent := integral_maybe "extends" decl.parent
      have interfaces := @integral_nonempty "implements" _ (integral_exprs decl.interfaces)
      have docblock := integral_maybe "docblock" decl.docblock
      have members := integral_members decl.members
      simp [NodeKind.fields, Json.Integral, Json.IntegralFields, integralFields_append, parent,
        interfaces, docblock, members]
  | interfaceDecl decl =>
      have parents := @integral_nonempty "extends" _ (integral_exprs decl.parents)
      have docblock := integral_maybe "docblock" decl.docblock
      have members := integral_members decl.members
      simp [NodeKind.fields, Json.Integral, Json.IntegralFields, integralFields_append, parents,
        docblock, members]

theorem integral_unit (unit : List Node) : (Json.array (unit.map Node.toJson)).Integral := by
  refine integralItems_map unit ?_
  intro n
  have own := integral_nodeKind n.kind
  have place := integral_position n.pos
  have comments := integral_docblocks n.docblocks
  simp [Node.toJson, Json.Integral, Json.IntegralFields, integralFields_append, own, place,
    comments]

/-! ### The round trip -/

theorem head_dumpUnit (unit : List Node) :
    (Text.dropBlank (dumpUnit unit).toList).head? = some '[' := by
  rw [dumpUnit, Json.pretty, String.toList_ofList]
  cases unit <;> rfl

/-- Loading the dump of a unit gives the unit back. -/
theorem load_dumpUnit (unit : List Node)
    (shallow : (Json.array (unit.map Node.toJson)).depth ≤ Json.depthLimit) :
    load (dumpUnit unit) = .ok unit := by
  have parsed : Json.parse? (dumpUnit unit) = some (.array (unit.map Node.toJson)) :=
    parse_pretty (integral_unit unit) shallow
  have list : ¬ (Text.dropBlank (dumpUnit unit).toList).head? = some '{' := by
    rw [head_dumpUnit]
    decide
  simp only [load, parsed, list, if_false, unit_toJson]

def dumpSample : List Node :=
  let pos : Position := { file := "a\\b.zep", line := 4294967295, column := 0 }
  let fetched : Expr := .plain (.fetch (.var "v" pos) (.var "x" pos)) pos
  let closure : Expr :=
    .plain (.closure [{ name := "p", dataType := "variable", reference := true, pos }]
      [{ kind := .ret (some (.str "\"\x01\n\t" pos)), pos }]
      (OrderedMap.empty.insert "q" { dataType := "", pos })) pos
  let body : List Statement :=
    [{ kind := .branch fetched [{ kind := .jump .leave, pos }]
        [{ condition := closure, body := [], pos }] (some []), pos,
       docblocks := [{ lines := .many [], multiLine := true, document := false, pos }] }]
  let method : Method := { Method.plain "run" pos with body, shortcut := some "" }
  [{ kind := .useDecl [{ name := "\\B", shortName := none }], pos, docblocks := [] },
    { kind := .classDecl
        { name := "A", isAbstract := true, isFinal := false, parent := none,
          interfaces := [closure], docblock := some "* é \x7f",
          members :=
            { definition := some { constants := [], properties := [], methods := [method] },
              constants := .empty, properties := .empty,
              methods := (OrderedMap.empty.insert "run" method).insert "type" method } },
      pos, docblocks := [] }]

theorem dumpSample_loaded :
    (Json.array (dumpSample.map Node.toJson)).depth ≤ Json.depthLimit ∧
      load (dumpUnit dumpSample) = .ok dumpSample :=
  ⟨by decide +kernel, load_dumpUnit dumpSample (by decide +kernel)⟩

end Zephir
