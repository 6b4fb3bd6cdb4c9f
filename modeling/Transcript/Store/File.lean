import Transcript.Json.Printer
import Transcript.Store.FileTree
import Transcript.Summary.Basic
import Transcript.Text.Percent

/-!
# A store of files

A `FileStore` keeps every summary in a file of its own, in a directory for its session. A new
summary is first written to another file, which then takes the place of the old one, so that at any
time a reader finds the one or the other.
-/

namespace Transcript

/-- A store that keeps its summaries in files. -/
structure FileStore where
  /-- The path of the top directory, which is made when the first summary is stored. -/
  root : Path
  /-- The files of the machine. -/
  tree : FileTree := {}
  /-- The number of the next file that is written before it takes its place. -/
  nextDraft : Nat := 0

namespace FileStore

/-- The path of the directory of a session below the top directory. -/
def sessionPath (session : SessionKey) : Path :=
  [Text.Percent.encode session.app, Text.Percent.encode session.user,
    Text.Percent.encode session.session]

/-- The name of the file of a filter. -/
def fileName (filter : String) : String :=
  (if filter.isEmpty then "_session" else Text.Percent.encode filter) ++ ".json"

/-- The path of the file of a scope below the top directory. -/
def scopePath (scope : Scope) : Path := sessionPath scope.session ++ [fileName scope.filter]

/-- The directory of a session. -/
def directory (s : FileStore) (session : SessionKey) : Path := s.root ++ sessionPath session

/-- The path of the summary of a scope. -/
def summaryPath (s : FileStore) (scope : Scope) : Path := s.root ++ scopePath scope

/-- The name of a file that has not taken its place yet. -/
def draftName (n : Nat) : String :=
  ".summary-" ++ String.ofList (Nat.toDigits 16 n) ++ ".json.tmp"

/-- The failure to do something with a file. -/
def failure (attempt : String) (path : Path) (f : SystemFault) : Failure :=
  .store ("failed to " ++ attempt ++ " " ++ FileTree.pathText path ++ ": " ++ f.message)

/-- The text of the summary of a scope. -/
def readText (s : FileStore) (scope : Scope) : Except SystemFault String := do
  textOfBytes (← s.tree.read (s.summaryPath scope))

/-- The summary of a scope. -/
def load (s : FileStore) (scope : Scope) : Except Failure (Option Summary) :=
  match s.readText scope with
  | .ok text =>
    match Json.decodeText Summary.decode text with
    | .ok summary => .ok (some summary)
    | .error f => .error (.json f)
  | .error .notFound => .ok none
  | .error f => .error (failure "read" (s.summaryPath scope) f)

/-- Writes the text to a draft, which then takes the place of the file. -/
def replace (s : FileStore) (draft path : Path) (text : String) : Except Failure Unit × FileStore :=
  match s.tree.write draft (bytesOfText text) with
  | .error f => (.error (.system f), s)
  | .ok tree =>
    match tree.rename draft path with
    | .ok tree => (.ok (), { s with tree })
    | .error f => (.error (failure "replace" path f), { s with tree := tree.remove draft })

/-- Replaces the summary of a scope. -/
def store (s : FileStore) (scope : Scope) (summary : Summary) : Except Failure Unit × FileStore :=
  let dir := s.directory scope.session
  match s.tree.makeDirectory dir with
  | (.error f, tree) => (.error (.system f), { s with tree })
  | (.ok (), tree) =>
    { s with tree, nextDraft := s.nextDraft + 1 }.replace (dir ++ [draftName s.nextDraft])
      (s.summaryPath scope) summary.encode.pretty

instance : SummaryStore FileStore := ⟨load, store⟩

end FileStore

end Transcript
