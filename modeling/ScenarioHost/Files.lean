import ScenarioHost.Text.Utf8
import ScenarioHost.Text.Blank

/-!
A tree of files and directories, and the search for a script under a list of root directories.
-/
namespace ScenarioHost

inductive FileError where
  | notFound
  | denied
  | notDirectory
  | isDirectory
  | nameTooLong
  | nulByte
  | notUtf8
deriving DecidableEq

def FileError.message : FileError → String
  | .notFound => "No such file or directory (os error 2)"
  | .denied => "Permission denied (os error 13)"
  | .notDirectory => "Not a directory (os error 20)"
  | .isDirectory => "Is a directory (os error 21)"
  | .nameTooLong => "File name too long (os error 36)"
  | .nulByte => "file name contained an unexpected NUL byte"
  | .notUtf8 => "stream did not contain valid UTF-8"

/-- A file or a directory; what is closed cannot be opened or searched. -/
inductive FileNode where
  | file (content : ByteString) (closed : Bool)
  | directory (closed : Bool)
deriving DecidableEq

/-- Nodes by the names on the way to them. `base` is how paths may spell the top directory. -/
structure FileTree where
  base : String
  nodes : List (List String × FileNode)

namespace FileTree

def empty : FileTree := ⟨"", []⟩

def get? (t : FileTree) (names : List String) : Option FileNode :=
  if names.isEmpty then some (.directory false)
  else (t.nodes.find? fun n => decide (n.1 = names)).map Prod.snd

def set (t : FileTree) (names : List String) (node : FileNode) : FileTree :=
  { t with nodes := (names, node) :: t.nodes.filter fun n => decide (n.1 ≠ names) }

/-- The part of a path below the top directory; `none` for paths outside of it. -/
def below? (t : FileTree) (path : List Char) : Option (List Char) :=
  let base := t.base.toList
  if !base.isEmpty && base.isPrefixOf path then
    match path.drop base.length with
    | [] => some []
    | '/' :: rest => some rest
    | _ => none
  else
    match path with
    | '/' :: _ => none
    | _ => some path

/-- Walks down from a directory. Empty names and `.` stay where they are, and at the end they ask
for a directory. -/
def walk (t : FileTree) :
    (here : List String) → List String → Except FileError (List String × FileNode)
  | here, [] =>
    match t.get? here with
    | some node => .ok (here, node)
    | none => .error .notFound
  | here, name :: rest =>
    match t.get? here with
    | none => .error .notFound
    | some (.file ..) => .error .notDirectory
    | some (.directory true) =>
      if rest.isEmpty && name = "" then .ok (here, .directory true) else .error .denied
    | some (.directory false) =>
      if name = "" ∨ name = "." then walk t here rest
      else if name = ".." then
        match here.reverse with
        | [] => .error .notFound
        | _ :: parent => walk t parent.reverse rest
      else if 255 < name.utf8ByteSize then .error .nameTooLong
      else walk t (here ++ [name]) rest

def names (path : List Char) : List String := (splitChars '/' path).map String.ofList

def resolve (t : FileTree) (path : String) : Except FileError (List String × FileNode) :=
  if path.toList.contains '\x00' then .error .nulByte
  else if path.isEmpty then .error .notFound
  else
    match t.below? path.toList with
    | none => .error .notFound
    | some rest => t.walk [] (names rest)

def isFile (t : FileTree) (path : String) : Bool :=
  match t.resolve path with
  | .ok (_, .file ..) => true
  | _ => false

def read (t : FileTree) (path : String) : Except FileError ByteString :=
  match t.resolve path with
  | .ok (_, .file content false) => .ok content
  | .ok (_, .file _ true) => .error .denied
  | .ok (_, .directory true) => .error .denied
  | .ok (_, .directory false) => .error .isDirectory
  | .error e => .error e

def readText (t : FileTree) (path : String) : Except FileError String :=
  match t.read path with
  | .ok content =>
    match content.toText? with
    | .ok text => .ok text
    | .error _ => .error .notUtf8
  | .error e => .error e

def splitLast (path : List Char) : List Char × List Char :=
  ((path.reverse.dropWhile (· ≠ '/')).reverse, (path.reverse.takeWhile (· ≠ '/')).reverse)

/-- Writes a file, replacing what it held; its directory has to exist. The name `..` is that of a
directory, also at the top, from where it leads out of the tree. -/
def write (t : FileTree) (path : String) (content : ByteString) : Except FileError FileTree :=
  match t.resolve path with
  | .ok (at_, .file _ false) => .ok (t.set at_ (.file content false))
  | .ok (_, .file _ true) => .error .denied
  | .ok (_, .directory _) => .error .isDirectory
  | .error .notFound =>
    match t.below? path.toList with
    | none => .error .notFound
    | some rest =>
      let (parent, last) := splitLast rest
      if path.isEmpty then .error .notFound
      else
        match t.walk [] (names parent) with
        | .error e => .error e
        | .ok (_, .file ..) => .error .notDirectory
        | .ok (_, .directory true) => .error .denied
        | .ok (here, .directory false) =>
          if last.isEmpty || last = ['.', '.'] then .error .isDirectory
          else .ok (t.set (here ++ [String.ofList last]) (.file content false))
  | .error e => .error e

/-- Writes a text; a failure is told with the path. -/
def writeText (t : FileTree) (path text : String) : Except String FileTree :=
  (t.write path (.ofText text)).mapError fun e => "Failed to write " ++ path ++ ": " ++ e.message

def addDirectory (t : FileTree) (path : List String) : FileTree :=
  ((List.range path.length).map fun n => path.take (n + 1)).foldl
    (fun t names => if (t.get? names).isSome then t else t.set names (.directory false)) t

def addFile (t : FileTree) (path : List String) (content : ByteString) : FileTree :=
  (t.addDirectory path.dropLast).set path (.file content false)

def close (t : FileTree) (path : List String) : FileTree :=
  match t.get? path with
  | some (.file content _) => t.set path (.file content true)
  | some (.directory _) => t.set path (.directory true)
  | none => t

end FileTree

/-- A part of a path. Empty parts do not count, and `.` counts only where a path begins. -/
inductive Component where
  | root
  | here
  | parent
  | name (text : String)
deriving DecidableEq

namespace Component

def ofPart (part : List Char) : Option Component :=
  if part = [] ∨ part = ['.'] then none
  else if part = ['.', '.'] then some .parent
  else some (.name (String.ofList part))

def ofFirst (part : List Char) : Option Component :=
  if part = ['.'] then some .here else ofPart part

def ofPath (path : String) : List Component :=
  match splitChars '/' path.toList with
  | [] => []
  | first :: rest =>
    (if path.toList.head? = some '/' then some .root else ofFirst first).toList
      ++ rest.filterMap ofPart

end Component

namespace Roots

/-- Whether a name could lead out of a root: it is absolute or has a part `..`. -/
def escapes (name : String) : Bool :=
  (Component.ofPath name).any fun c => c = .parent || c = .root

def join (root name : String) : String :=
  if root.isEmpty then name
  else if root.toList.getLast? = some '/' then root ++ name
  else root ++ "/" ++ name

def locate (isFile : String → Bool) (roots : List String) (name : String) : Option String :=
  if escapes name then none else (roots.map fun root => join root name).find? isFile

end Roots

end ScenarioHost
