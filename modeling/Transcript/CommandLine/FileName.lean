import Transcript.Store.FileTree
import Transcript.Text.Pattern

/-!
# Names of files

A file is named as a user types it: in segments between slashes, from the top of all files or from
a working directory. `readNamed` reads the file that a name leads to.
-/

namespace Transcript.FileTree

/-- The segments of a name. -/
def segments (name : String) : List String := (Text.pieces ['/'] name.toList).map String.ofList

/--
The path that a segment of a name leads to from another. Even one that stays there can only be
looked up in a directory. Above the top directory there is the top directory.
-/
def follow (t : FileTree) (path : Path) (segment : String) : Except SystemFault Path :=
  match t.nameObstacle? path segment with
  | some f => .error f
  | none =>
    .ok (if segment = "" || segment = "." then path
      else if segment = ".." then path.dropLast
      else path ++ [segment])

/-- The path that a name leads to from a working directory. -/
def resolve (t : FileTree) (dir : Path) (name : String) : Except SystemFault Path :=
  if name.isEmpty then .error .notFound
  else if textLimit < name.utf8ByteSize then .error .nameTooLong
  else (segments name).foldlM t.follow (if name.toList.head? = some '/' then [] else dir)

/-- The text of the file that a name leads to from a working directory. -/
def readNamed (t : FileTree) (dir : Path) (name : String) : Except SystemFault String := do
  textOfBytes (← t.bytes (← t.resolve dir name))

end Transcript.FileTree
