import TlsTransport.Bytes
import TlsTransport.IoError

/-! # File trees

The files that a configuration can name: a directory of names, each a file or a directory again.
Nothing here changes a tree.

* `FileTree.read`: the content of a file; `FileTree.list`: the entries of a directory.
-/

namespace TlsTransport

/-- A name in a directory. It need not be text. -/
abbrev FileName := Bytes

/-- What a directory holds under one name. -/
structure DirectoryEntry where
  name : FileName
  /-- The bytes of a file; `none` for a directory. -/
  content : Option Bytes
  deriving DecidableEq, Repr

/-- Files and directories by their place, each a list of names from the root. What stands above an
entry is a directory. -/
structure FileTree where
  entries : List (List FileName × Option Bytes)

namespace FileTree

/-- A tree with nothing in it. -/
def empty : FileTree := ⟨[]⟩

/-- The longest name that a directory holds. -/
def maxNameLength : Nat := 255

/-- The names of a path, without empty ones and dots. -/
def steps (path : String) : List String :=
  (path.splitOn "/").filter fun s => !s.isEmpty && s != "."

/-- Whether a path says of itself that it names a directory. -/
def wantsDirectory (path : String) : Bool :=
  match (path.splitOn "/").getLast? with
  | some last => last.isEmpty || last == "."
  | none => false

/-- What stands at a place: a file, a directory or nothing. -/
def at? (t : FileTree) (place : List FileName) : Option (Option Bytes) :=
  match t.entries.find? fun e => e.1 == place with
  | some e => some e.2
  | none =>
    if place.isEmpty || t.entries.any fun e => place.isPrefixOf e.1 then some none else none

/-- Walks down from a place that is a directory. -/
def walk (t : FileTree) (place : List FileName) : List String → Except IoError (List FileName)
  | [] => .ok place
  | step :: rest =>
    if step = ".." then t.walk place.dropLast rest
    else
      let name := Bytes.ofString step
      if maxNameLength < name.length then .error (.system 36)
      else
        let next := place ++ [name]
        match t.at? next with
        | none => .error (.system 2)
        | some none => t.walk next rest
        | some (some _) => if rest.isEmpty then .ok next else .error (.system 20)

/-- The place and the content that a path names. -/
def locate (t : FileTree) (path : String) : Except IoError (List FileName × Option Bytes) :=
  if path.isEmpty then .error (.system 2)
  else if path.toList.contains '\x00' then
    .error (.described .invalidInput "file name contained an unexpected NUL byte")
  else do
    let place ← t.walk [] (steps path)
    match t.at? place with
    | none => .error (.system 2)
    | some (some bytes) =>
      if wantsDirectory path then .error (.system 20) else .ok (place, some bytes)
    | some none => .ok (place, none)

/-- The content of a file. -/
def read (t : FileTree) (path : String) : Except IoError Bytes := do
  match (← t.locate path).2 with
  | some bytes => .ok bytes
  | none => .error (.system 21)

/-- The names that stand directly under a place. -/
def namesUnder (t : FileTree) (place : List FileName) : List FileName :=
  (t.entries.filterMap fun e =>
    if place.isPrefixOf e.1 then (e.1.drop place.length).head? else none).eraseDups

/-- The entries of a directory, in the order of the tree. -/
def list (t : FileTree) (path : String) : Except IoError (List DirectoryEntry) := do
  match ← t.locate path with
  | (_, some _) => .error (.system 20)
  | (place, none) =>
    .ok <| (t.namesUnder place).map fun name => ⟨name, (t.at? (place ++ [name])).join⟩

end FileTree
end TlsTransport
