import Zephir.Php.Tree
import Zephir.Syntax.Declaration

/-!
PHP for declarations and whole units. The members of a class come in three sections, and each
section is ordered by name, so that the text does not depend on the order of the source.
-/

namespace Zephir.Php

open Script

def separate (path : String) : Script :=
  of [.blankLineIf path]

def modifiers (words : List String) : Script :=
  join (words.map word)

def constant (c : Constant) : Script :=
  docblocks c.docblocks ++ word "const" ++ text c.name ++ initial c.value ++ semicolon

def property (p : Property) : Script :=
  docblocks p.docblocks ++
    modifiers (if p.visibility.isEmpty then ["public"] else p.visibility) ++
    text (dollar p.name) ++ initial p.value ++ semicolon

/-- A method. Only its signature is written in an interface, or if it is abstract. -/
def method (signatureOnly : Bool) (m : Method) : Script :=
  docblocks m.docblocks ++ modifiers m.visibility ++ word "function" ++ text m.name ++
    parenthesized (parameters m.parameters) "call" ++
    (if signatureOnly || m.visibility.contains "abstract" then semicolon
    else block m.body.isEmpty (statements m.body) "method" "block" .braces)

def membersSection (isFirst : Bool) (members : List Script) : Script :=
  if members.isEmpty || isFirst then join members
  else separate "newlines.class.section" ++ join members

def methodList : List Script → List Script
  | [] => []
  | m :: rest => m :: rest.map (separate "newlines.method" ++ ·)

def members (m : Members) (signaturesOnly : Bool) : Script :=
  membersSection true (m.constants.valuesByName.map constant) ++
    membersSection m.constants.isEmpty (m.properties.valuesByName.map property) ++
    membersSection (m.constants.isEmpty && m.properties.isEmpty)
      (methodList (m.methods.valuesByName.map (method signaturesOnly)))

def body (context : String) (inner : Script) : Script :=
  opIn "\x7b" context ++ of [.indent] ++ inner ++ of [.unindent] ++ opIn "\x7d" "block"

def classList (keyword : String) (classes : List Expr) : Script :=
  if classes.isEmpty then empty else op keyword ++ commas (classNames classes)

def classDecl (c : Class) : Script :=
  modifiers ((if c.isAbstract then ["abstract"] else []) ++ (if c.isFinal then ["final"] else [])) ++
    word "class" ++ text c.name ++
    (match c.parent with
    | some parent => op "extends" ++ text parent
    | none => empty) ++
    classList "implements" c.interfaces ++ body "class" (members c.members false)

def interfaceDecl (i : Interface) : Script :=
  word "interface" ++ text i.name ++ classList "extends" i.parents ++
    body "interface" (members i.members true)

def functionDecl (f : Function) : Script :=
  word "function" ++ text f.name ++ parenthesized (parameters f.parameters) "call" ++
    block f.body.isEmpty (statements f.body) "function" "block" .braces

def useAlias (u : UseAlias) : Script :=
  text u.name ++
    (match u.shortName with
    | some short => word "as" ++ text short
    | none => empty)

def nodeKind (pos : Position) : NodeKind → Script
  | .namespaceDecl name =>
    word "namespace" ++ text name ++ semicolon ++ separate "newlines.namespace"
  | .useDecl aliases =>
    word "use" ++ commas (aliases.map useAlias) ++ semicolon ++ separate "newlines.use"
  | .require e => word "require" ++ expr e ++ semicolon
  | .functionDecl decl => functionDecl decl ++ separate "newlines.function"
  | .classDecl decl => classDecl decl ++ separate "newlines.class"
  | .interfaceDecl decl => interfaceDecl decl ++ separate "newlines.class"
  | .comment _ => unhandled NodeForm.comment.tag pos
  | .cblock _ => unhandled NodeForm.cblock.tag pos

def node (n : Node) : Script :=
  docblocks n.docblocks ++ nodeKind n.pos n.kind

def unit (nodes : List Node) : Script :=
  of [.line "<?php", .blankLine] ++ join (nodes.map node)

end Zephir.Php
