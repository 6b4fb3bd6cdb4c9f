import Transcript.Failure
import Transcript.Table

/-!
# Trees of files

A `FileTree` is what a directory holds: files with their bytes, and further directories. Its
operations are refused for the reasons that an operating system has, and in the order in which it
finds them: a path that is too long as a whole, and then, from the top down, a place that is no
directory and a name that is too long to be looked up in one.
-/

namespace Transcript

/-- The way from the top directory to a file or directory, name by name. -/
abbrev Path := List String

/-- What is found at a path. -/
inductive FileNode where
  /-- A file with its bytes. -/
  | file (bytes : List UInt8)
  /-- A directory. -/
  | directory
deriving DecidableEq, Repr

/-- What a directory holds. The directory itself, which has the empty path, is not listed. -/
structure FileTree where
  /-- What is found at each path. -/
  nodes : Table Path FileNode := ∅

namespace FileTree

/-- How many bytes a name may have. -/
def nameLimit : Nat := 255

/-- How many bytes a whole path may have as text. -/
def textLimit : Nat := 4095

/-- A path as text. -/
def pathText (path : Path) : String := "/".intercalate path

/-! ## Looking up -/

/-- What is found at a path. -/
def node? (t : FileTree) (path : Path) : Option FileNode :=
  if path = [] then some .directory else t.nodes.find? path

/-- Whether a path is that of a directory. -/
def isDirectory (t : FileTree) (path : Path) : Bool := t.node? path == some .directory

/-- What stands in the way of looking up a name at a path. -/
def nameObstacle? (t : FileTree) (path : Path) (name : String) : Option SystemFault :=
  match t.node? path with
  | none => some .notFound
  | some (.file _) => some .notDirectory
  | some .directory => if nameLimit < name.utf8ByteSize then some .nameTooLong else none

/-- What stands in the way of looking up one name after the other. The last need not be found. -/
def namesObstacle? (t : FileTree) (path : Path) : List String → Option SystemFault
  | [] => none
  | name :: names => t.nameObstacle? path name <|> t.namesObstacle? (path ++ [name]) names

/-- Whether a path is too long for anything to be looked up. -/
def isTooLong (path : Path) : Bool := textLimit < (pathText path).utf8ByteSize

/-- What stands in the way of using a path, at which nothing need be found. -/
def obstacle? (t : FileTree) (path : Path) : Option SystemFault :=
  if isTooLong path then some .nameTooLong else t.namesObstacle? [] path

/-- The bytes of what is found at a path. -/
def bytes (t : FileTree) (path : Path) : Except SystemFault (List UInt8) :=
  match t.node? path with
  | some (.file bytes) => .ok bytes
  | some .directory => .error .isDirectory
  | none => .error .notFound

/-- The bytes of a file. -/
def read (t : FileTree) (path : Path) : Except SystemFault (List UInt8) :=
  match t.obstacle? path with
  | some f => .error f
  | none => t.bytes path

/-! ## Changing -/

/--
The tree with the directories that are missing on the way down from a directory. Those that come
in front of an obstacle are there in any case.
-/
def makeDirectories (t : FileTree) (dir : Path) : List String → Except SystemFault Unit × FileTree
  | [] => (.ok (), t)
  | name :: names =>
    let path := dir ++ [name]
    match t.nameObstacle? dir name, t.node? path with
    | some f, _ => (.error f, t)
    | none, some .directory => t.makeDirectories path names
    | none, some (.file _) => (.error (if names.isEmpty then .alreadyExists else .notDirectory), t)
    | none, none => makeDirectories ⟨t.nodes.insert path .directory⟩ path names

/-- The tree with a directory at a path, and with those that lead to it. -/
def makeDirectory (t : FileTree) (path : Path) : Except SystemFault Unit × FileTree :=
  if isTooLong path then (.error .nameTooLong, t) else t.makeDirectories [] path

/-- The tree with the bytes in a file, which need not have been there. -/
def write (t : FileTree) (path : Path) (bytes : List UInt8) : Except SystemFault FileTree :=
  match t.obstacle? path with
  | some f => .error f
  | none =>
    if t.isDirectory path then .error .isDirectory else .ok ⟨t.nodes.insert path (.file bytes)⟩

/-- The tree without what is found at a path. -/
def remove (t : FileTree) (path : Path) : FileTree := ⟨t.nodes.erase path⟩

/-- The tree with a file moved to another path, where it replaces a file but not a directory. -/
def rename (t : FileTree) (source target : Path) : Except SystemFault FileTree := do
  let bytes ← t.read source
  let moved ← t.write target bytes
  return moved.remove source

/-! ## Listing -/

/-- The text of an entry, which for a directory ends in a slash. -/
def entryText (path : Path) : FileNode → String
  | .directory => pathText path ++ "/"
  | .file _ => pathText path

/-- The text of an entry as it is seen from a directory, if it is below it. -/
def textBelow? (dir path : Path) (node : FileNode) : Option String :=
  match dir.isPrefixOf? path with
  | some (name :: names) => some (entryText (name :: names) node)
  | _ => none

/-- The texts of all entries below a directory, in the order of their characters. -/
def listing (t : FileTree) (dir : Path) : List String :=
  (t.nodes.entries.filterMap fun (path, node) => textBelow? dir path node).mergeSort
    fun a b => a ≤ b

end FileTree

/-- The text that bytes stand for. -/
def textOfBytes (bytes : List UInt8) : Except SystemFault String :=
  match String.fromUTF8? ⟨bytes.toArray⟩ with
  | some text => .ok text
  | none => .error .notText

/-- The bytes of a text. -/
def bytesOfText (text : String) : List UInt8 := text.toUTF8.data.toList

end Transcript
