import BicepForge.Entries
import BicepForge.Files.Access

/-!
# File trees

Files and directories as data, seen from a working directory. Reading and writing fail as they do on
a disk that lacks neither space nor permissions.
-/

namespace BicepForge.Files

/-- What a file holds: a text, or bytes that are none. -/
inductive Contents where
  | text (text : String)
  | bytes (bytes : List UInt8)
deriving DecidableEq, Repr

def Contents.ofBytes (bytes : List UInt8) : Contents :=
  match String.fromUTF8? ⟨bytes.toArray⟩ with
  | some s => .text s
  | none => .bytes bytes

/-- A file, or a directory with its entries. -/
inductive Node where
  | file (contents : Contents)
  | directory (entries : List (String × Node))

namespace Node

def find? : List String → Node → Option Node
  | [], n => some n
  | name :: place, .directory entries => (entries.lookup name).bind (find? place)
  | _ :: _, .file _ => none

/-- Puts a new node at a place below another; directories on the way are made. -/
def put : Node → List String → Node → Node
  | _, [], new => new
  | .directory entries, name :: place, new =>
    let node := (entries.lookup name).getD (.directory [])
    .directory (Entries.put name (node.put place new) entries)
  | .file contents, _ :: _, _ => .file contents

end Node

/-- A tree of files with a working directory in it. -/
structure Tree where
  root : Node
  workingDirectory : List String := []

namespace Tree

/-- The most bytes that a name of a file can have. -/
def longestName : Nat := 255

/-- The most bytes that a path can have. -/
def longestPath : Nat := 4095

def start (t : Tree) (path : String) : List String :=
  if Path.isAbsolute path then [] else t.workingDirectory

def follow (root : Node) (place : List String) : List String → Except FileError (List String)
  | [] => .ok place
  | part :: parts =>
    match root.find? place with
    | some (.directory entries) =>
      if Path.isIdle part then follow root place parts
      else if part = ".." then follow root place.dropLast parts
      else if longestName < part.utf8ByteSize then .error .nameTooLong
      else if (entries.lookup part).isSome then follow root (place ++ [part]) parts
      else .error .notFound
    | some (.file _) => .error .notADirectory
    | none => .error .notFound

/-- Refuses what cannot be a path. -/
def checkPath (path : String) : Except FileError Unit :=
  if '\x00' ∈ path.toList then .error .nullInPath
  else if path = "" then .error .notFound
  else if longestPath < path.utf8ByteSize then .error .nameTooLong
  else .ok ()

def locate (t : Tree) (path : String) : Except FileError (List String) := do
  checkPath path
  follow t.root (t.start path) (Path.parts path)

def read (t : Tree) (path : String) : Except FileError String := do
  match t.root.find? (← t.locate path) with
  | some (.file (.text s)) => .ok s
  | some (.file (.bytes _)) => .error .notText
  | some (.directory _) => .error .isADirectory
  | none => .error .notFound

/-- The parts of a path with its last one apart, and whether slashes stand behind it. -/
def lastPart (path : String) : List String × String × Bool :=
  let all := Path.parts path
  let trimmed := (all.reverse.dropWhile (· = "")).reverse
  (trimmed.dropLast, trimmed.getLastD "", trimmed.length < all.length)

def write (t : Tree) (path text : String) : Except FileError Tree := do
  checkPath path
  let (parts, name, slashed) := lastPart path
  let place ← follow t.root (t.start path) parts
  match t.root.find? place with
  | some (.directory entries) =>
    if slashed ∨ Path.isIdle name ∨ name = ".." then .error .isADirectory
    else if longestName < name.utf8ByteSize then .error .nameTooLong
    else
      match entries.lookup name with
      | some (.directory _) => .error .isADirectory
      | _ => .ok { t with root := t.root.put (place ++ [name]) (.file (.text text)) }
  | some (.file _) => .error .notADirectory
  | none => .error .notFound

/-- Makes the directories on the way along the parts of a path from a place. -/
def ensureAlong (t : Tree) (place : List String) : List String → Except FileError Unit × Tree
  | [] => (.ok (), t)
  | part :: parts =>
    if Path.isIdle part then ensureAlong t place parts
    else if part = ".." then ensureAlong t place.dropLast parts
    else if longestName < part.utf8ByteSize then (.error .nameTooLong, t)
    else
      match t.root.find? (place ++ [part]) with
      | some (.directory _) => ensureAlong t (place ++ [part]) parts
      | some (.file _) => (.error (if parts.isEmpty then .alreadyThere else .notADirectory), t)
      | none =>
        ensureAlong { t with root := t.root.put (place ++ [part]) (.directory []) }
          (place ++ [part]) parts

/-- Makes the directory at a path with all that hold it. The empty path is always there. -/
def ensureDirectory (t : Tree) (path : String) : Except FileError Unit × Tree :=
  if path = "" then (.ok (), t)
  else
    match checkPath path with
    | .error e => (.error e, t)
    | .ok _ => t.ensureAlong (t.start path) (Path.parts path)

/-- The names of the files that stand directly in a directory. -/
def fileNames (t : Tree) (path : String) : List String :=
  match (t.locate path).toOption.bind (t.root.find? ·) with
  | some (.directory entries) =>
    entries.filterMap fun
      | (name, .file _) => some name
      | (_, .directory _) => none
  | _ => []

/-- The files below a node with the paths that lead to them. -/
def filesOf (path : String) : Node → List (String × Contents)
  | .file contents => [(path, contents)]
  | .directory entries => filesOfEntries entries
where
  filesOfEntries : List (String × Node) → List (String × Contents)
    | [] => []
    | (name, node) :: rest => filesOf (Path.join path name) node ++ filesOfEntries rest

/-- The files below the working directory, with their paths from there. -/
def files (t : Tree) : List (String × Contents) :=
  match t.root.find? t.workingDirectory with
  | some node => filesOf "" node
  | none => []

def access : FileAccess (StateM Tree) where
  read path := do return (← get).read path
  write path text := do
    match (← get).write path text with
    | .ok t => set t; return .ok ()
    | .error e => return .error e
  ensureDirectory path := do
    let (result, t) := (← get).ensureDirectory path
    set t
    return result

end Tree

end BicepForge.Files
