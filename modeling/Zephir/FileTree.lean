import Zephir.Text.Split

/-!
A file system as a value: reading and writing files by path, and the errors that doing so can meet.
A path leads through directories to the entry that it names at its end. Relative paths start in the
working directory; `..` leads to the directory above, and above the root there is the root.
-/

namespace Zephir

inductive FileError
  | notFound
  | alreadyExists
  | notADirectory
  | isADirectory
  | nameTooLong
  | zeroInName
  | noRoom
  | other (message : String)
  deriving DecidableEq

def FileError.message : FileError → String
  | .notFound => "No such file or directory (os error 2)"
  | .alreadyExists => "File exists (os error 17)"
  | .notADirectory => "Not a directory (os error 20)"
  | .isADirectory => "Is a directory (os error 21)"
  | .nameTooLong => "File name too long (os error 36)"
  | .zeroInName => "file name contained an unexpected NUL byte"
  | .noRoom => "No space left on device (os error 28)"
  | .other message => message

/-- What a name in a directory stands for. A device keeps nothing of what is written to it, and
there is nothing to read from it. -/
inductive FileNode
  | file (content : String)
  | device (hasRoom : Bool)
  | directory
  deriving DecidableEq

/-- A path: where it starts, the parts to go through, the name of the entry at its end, and whether
a slash follows. A path that ends in `.`, in `..` or at the root names no entry. -/
structure TreePath where
  isAbsolute : Bool
  way : List String
  last : Option String
  endsInSlash : Bool

namespace TreePath

def ofParts (isAbsolute : Bool) (parts : List String) : TreePath :=
  match parts.getLast? with
  | none | some ".." => { isAbsolute, way := parts, last := none, endsInSlash := false }
  | some name => { isAbsolute, way := parts.dropLast, last := some name, endsInSlash := false }

def parts (path : TreePath) : List String :=
  path.way ++ path.last.toList

def sizeLimit : Nat := 4095

def nameLimit : Nat := 255

/-- The path that a text spells. Empty parts mean nothing, and neither does `.`, except that what
stands in front of it is a directory. -/
def ofString (text : String) : Except FileError TreePath :=
  if text.toList.contains '\x00' then .error .zeroInName
  else if text.isEmpty then .error .notFound
  else if sizeLimit < text.utf8ByteSize then .error .nameTooLong
  else
    let written := (Text.split '/' text).filter (· != "")
    let isAbsolute := text.toList.head? == some '/'
    let parts := written.filter (· != ".")
    if written.getLast? = some "." then
      .ok { isAbsolute, way := parts, last := none, endsInSlash := false }
    else
      .ok { ofParts isAbsolute parts with endsInSlash := text.toList.getLast? == some '/' }

/-- Drops parts that mean nothing from the end of a path, given as its parts in reverse. The first
part of a path always stays. -/
def dropIdle : List (List Char) → List (List Char)
  | part :: next :: rest =>
    if part = [] || part = ['.'] then dropIdle (next :: rest) else part :: next :: rest
  | parts => parts

/-- The text of the path to the directory that a path ends in; empty if nothing stands in front of
the last part. -/
def parentText (text : String) : String :=
  let parts := dropIdle (dropIdle (Text.pieces '/' text.toList).reverse).tail
  "/".intercalate (parts.reverse.map String.ofList)

end TreePath

/-- The files and directories by their places, which are the names that lead to them from the root,
in the order in which they were made. The working directory is called `.` in places. No path goes
through a part of that name, so a path gets there only by starting there. What every system has is
not in the list. -/
structure FileTree where
  nodes : List (List String × FileNode)

namespace FileTree

def empty : FileTree := ⟨[]⟩

def workingPlace : List String := ["."]

def rootNames : List String :=
  ["bin", "boot", "dev", "etc", "home", "lib", "media", "mnt", "opt", "proc", "root", "run",
    "sbin", "srv", "sys", "tmp", "usr", "var"]

def standing? : List String → Option FileNode
  | [] => some .directory
  | [name] => if name = "." || rootNames.contains name then some .directory else none
  | ["dev", "null"] => some (.device true)
  | ["dev", "full"] => some (.device false)
  | _ => none

def node? (tree : FileTree) (place : List String) : Option FileNode :=
  standing? place <|> tree.nodes.lookup place

def put (tree : FileTree) (place : List String) (node : FileNode) : FileTree :=
  if (tree.node? place).isSome then
    ⟨tree.nodes.map fun entry => if entry.1 = place then (place, node) else entry⟩
  else ⟨tree.nodes ++ [(place, node)]⟩

def entry? (tree : FileTree) (place : List String) (name : String) :
    Except FileError (Option FileNode) :=
  if TreePath.nameLimit < name.utf8ByteSize then .error .nameTooLong
  else .ok (tree.node? (place ++ [name]))

def enter (tree : FileTree) (place : List String) (part : String) :
    Except FileError (List String) :=
  if part = ".." then .ok place.dropLast
  else
    match tree.entry? place part with
    | .error e => .error e
    | .ok none => .error .notFound
    | .ok (some .directory) => .ok (place ++ [part])
    | .ok (some _) => .error .notADirectory

def walk (tree : FileTree) (place : List String) : List String → Except FileError (List String)
  | [] => .ok place
  | part :: rest =>
    match tree.enter place part with
    | .error e => .error e
    | .ok next => tree.walk next rest

/-- The directory in which the entry at the end of a path is, or the directory that the path leads
to if it names no entry. -/
def locate (tree : FileTree) (path : TreePath) : Except FileError (List String) :=
  tree.walk (if path.isAbsolute then [] else workingPlace) path.way

def find (tree : FileTree) (path : TreePath) : Except FileError FileNode :=
  match tree.locate path, path.last with
  | .error e, _ => .error e
  | .ok _, none => .ok .directory
  | .ok place, some name =>
    match tree.entry? place name with
    | .error e => .error e
    | .ok none => .error .notFound
    | .ok (some .directory) => .ok .directory
    | .ok (some node) => if path.endsInSlash then .error .notADirectory else .ok node

def lookUp (tree : FileTree) (text : String) : Except FileError FileNode :=
  match TreePath.ofString text with
  | .error e => .error e
  | .ok path => tree.find path

def read (tree : FileTree) (path : String) : Except FileError String :=
  match tree.lookUp path with
  | .error e => .error e
  | .ok .directory => .error .isADirectory
  | .ok (.device _) => .ok ""
  | .ok (.file content) => .ok content

def exists? (tree : FileTree) (path : String) : Bool :=
  match tree.lookUp path with
  | .ok _ => true
  | .error _ => false

def isFile (tree : FileTree) (path : String) : Bool :=
  match tree.lookUp path with
  | .ok (.file _) => true
  | _ => false

def isDirectory (tree : FileTree) (path : TreePath) : Bool :=
  match tree.find path with
  | .ok .directory => true
  | _ => false

def makeDirectory (tree : FileTree) (path : TreePath) : Except FileError FileTree :=
  match tree.locate path, path.last with
  | .error e, _ => .error e
  | .ok _, none => .error .alreadyExists
  | .ok place, some name =>
    match tree.entry? place name with
    | .error e => .error e
    | .ok (some _) => .error .alreadyExists
    | .ok none => .ok (tree.put (place ++ [name]) .directory)

def ensureDirectory (tree : FileTree) (path : TreePath) : Except FileError FileTree :=
  match tree.makeDirectory path with
  | .ok tree => .ok tree
  | .error e => if tree.isDirectory path then .ok tree else .error e

/-- Makes the directories that the first `count` parts lead to, then those of one part more, up to
the last. -/
def ensureDirectories (tree : FileTree) (isAbsolute : Bool) (parts : List String) :
    Nat → Except FileError FileTree
  | 0 => .ok tree
  | count + 1 =>
    let path := TreePath.ofParts isAbsolute (parts.take (count + 1))
    match tree.makeDirectory path with
    | .ok tree => .ok tree
    | .error .notFound =>
      match tree.ensureDirectories isAbsolute parts count with
      | .error e => .error e
      | .ok tree => tree.ensureDirectory path
    | .error e => if tree.isDirectory path then .ok tree else .error e

def ensureParent (tree : FileTree) (text : String) : Except FileError FileTree :=
  if TreePath.parentText text = "" then .ok tree
  else
    match TreePath.ofString (TreePath.parentText text) with
    | .error e => .error e
    | .ok path => tree.ensureDirectories path.isAbsolute path.parts path.parts.length

def write (tree : FileTree) (text content : String) : Except FileError FileTree :=
  match TreePath.ofString text with
  | .error e => .error e
  | .ok path =>
    match tree.locate path, path.last with
    | .error e, _ => .error e
    | .ok _, none => .error .isADirectory
    | .ok place, some name =>
      if path.endsInSlash then .error .isADirectory
      else
        match tree.entry? place name with
        | .error e => .error e
        | .ok (some .directory) => .error .isADirectory
        | .ok (some (.device hasRoom)) =>
          if hasRoom || content = "" then .ok tree else .error .noRoom
        | .ok _ => .ok (tree.put (place ++ [name]) (.file content))

def add (tree : FileTree) (path : String) (node : FileNode) : FileTree :=
  let names := (Text.split '/' path).filter fun part => part != "" && part != "."
  let tree := (List.range (names.length - 1)).foldl (fun tree n =>
    let place := workingPlace ++ names.take (n + 1)
    if (tree.node? place).isSome then tree else tree.put place .directory) tree
  if names.isEmpty then tree else tree.put (workingPlace ++ names) node

def files (tree : FileTree) : List (String × String) :=
  tree.nodes.filterMap fun (place, node) =>
    match place, node with
    | "." :: names, .file content => some ("/".intercalate names, content)
    | _, _ => none

def changedSince (tree before : FileTree) : List (String × String) :=
  tree.files.filter fun file => !before.files.contains file

end FileTree

end Zephir
