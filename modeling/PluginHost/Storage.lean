/-
  PluginHost.Storage

  Files and directories as seen from a working directory.  A path is followed
  part by part: every part but the last one must lead to a directory, `..` leads
  back, and a path that ends in a slash means a directory.
-/
import PluginHost.Error

namespace PluginHost

/-- What stands at a place. -/
inductive Storage.Node where
  | file (content : Bytes)
  | directory

/-- What stands below the working directory.  A place is given by the names
    that lead to it, and of two nodes at one place the first one counts. -/
structure Storage where
  nodes : List (List String × Storage.Node) := []
  /-- What paths are known to lead to, so that they need not be followed. -/
  known : List (String × Storage.Node) := []

namespace Storage

/-- What stands at a place. -/
def at? (s : Storage) (place : List String) : Option Node :=
  if place = [] then some .directory else s.nodes.lookup place

/-! ## Following a path -/

/-- Where the following of a path has led. -/
inductive Position where
  /-- To a place below the working directory. -/
  | inside (place : List String)
  /-- To a directory elsewhere, of which nothing is known but that it is there. -/
  | outside

/-- What stands at a position. -/
def atPosition? (s : Storage) : Position → Option Node
  | .inside place => s.at? place
  | .outside => some .directory

/-- One part of a path further. -/
def follow (s : Storage) (position : Position) (part : String) : Except IoFault Position :=
  match s.atPosition? position with
  | none => .error .notFound
  | some (.file _) => .error .notADirectory
  | some .directory =>
    if part = "" ∨ part = "." then .ok position
    else
      match position with
      | .inside place =>
        if part = ".." then
          match place with
          | [] => .ok .outside
          | _ => .ok (.inside place.dropLast)
        else .ok (.inside (place ++ [part]))
      | .outside => if part = ".." then .ok .outside else .error .notFound

/-- The parts of a path; two slashes in a row have an empty part between them. -/
def parts (path : String) : List String :=
  path.splitOn "/"

/-- The position that a path leads to. -/
def locate (s : Storage) (path : String) : Except IoFault Position :=
  if path.contains '\x00' then .error .illegalPath
  else if path = "" then .error .notFound
  else
    let start := if path.startsWith "/" then .outside else .inside []
    (parts path).foldlM s.follow start

/-- What a path leads to. -/
def node (s : Storage) (path : String) : Except IoFault Node :=
  match s.known.lookup path with
  | some n => .ok n
  | none => do
    let position ← s.locate path
    match s.atPosition? position with
    | some n => return n
    | none => throw .notFound

/-! ## Reading -/

/-- Whether a path leads to something. -/
def isPresent (s : Storage) (path : String) : Bool :=
  match s.node path with
  | .ok _ => true
  | .error _ => false

/-- The content of a file. -/
def read (s : Storage) (path : String) : Except IoFault Bytes := do
  match ← s.node path with
  | .file content => return content
  | .directory => throw .isADirectory

/-- The text of a file. -/
def readText (s : Storage) (path : String) : Except IoFault String := do
  match Utf8.decode? (← s.read path) with
  | some text => return text
  | none => throw .notText

/-! ## Changing -/

/-- The storage with a node at a place, in place of one that stood there. -/
def set (s : Storage) (place : List String) (n : Node) : Storage :=
  { s with nodes := (place, n) :: s.nodes.filter (·.1 ≠ place) }

/-- The place of a path that does not leave the working directory. -/
def placeOf (path : String) : List String :=
  (parts path).filter fun part => part ≠ "" ∧ part ≠ "."

/-- The storage with the directories on the way to a place. -/
def addDirectories (s : Storage) (place : List String) : Storage :=
  (List.range (place.length + 1)).foldl
    (fun s n => if (s.at? (place.take n)).isSome then s else s.set (place.take n) .directory) s

/-- The storage with a directory, and those on the way to it. -/
def addDirectory (s : Storage) (path : String) : Storage :=
  s.addDirectories (placeOf path)

/-- The storage with a file, and the directories on the way to it. -/
def addFile (s : Storage) (path : String) (content : Bytes) : Storage :=
  (s.addDirectories (placeOf path).dropLast).set (placeOf path) (.file content)

/-- Writes a file.  Its directory must be there, and it must not be a directory
    itself. -/
def writeFile (s : Storage) (path : String) (content : Bytes) : Except IoFault Storage := do
  match ← s.locate path with
  | .outside => throw .isADirectory
  | .inside place =>
    match s.at? place with
    | some .directory => throw .isADirectory
    | _ => return s.set place (.file content)

/-- Removes a file. -/
def removeFile (s : Storage) (path : String) : Except IoFault Storage := do
  match ← s.locate path with
  | .outside => throw .isADirectory
  | .inside place =>
    match s.at? place with
    | none => throw .notFound
    | some .directory => throw .isADirectory
    | some (.file _) => return { s with nodes := s.nodes.filter (·.1 ≠ place) }

end Storage

end PluginHost
