import Stylesheet.Text.Split

/-!
# Files

A disk as it is seen from the directory that a command runs in.

* `FileError`: why a file cannot be read or written, with the message of the system.
* `Place`: where a path leads to.
* `Disk.read`, `Disk.write`: files by path. A path is walked segment by segment, and what it passes
  through has to be a directory.
-/

namespace Stylesheet

/-- Why a file cannot be read or written. -/
inductive FileError where
  | notFound
  | notDirectory
  | isDirectory
  | nameTooLong
  | notText
  | other (text : String)
  deriving DecidableEq

def FileError.message : FileError → String
  | notFound => "No such file or directory (os error 2)"
  | notDirectory => "Not a directory (os error 20)"
  | isDirectory => "Is a directory (os error 21)"
  | nameTooLong => "File name too long (os error 36)"
  | notText => "stream did not contain valid UTF-8"
  | other text => text

inductive DiskEntry where
  | file (data : ByteArray)
  | directory

/-- A place that a path leads to. -/
inductive Place where
  /-- Names from the directory that the command runs in. -/
  | inside (names : List String)
  /-- Names from a directory above that one, of which nothing else is known. -/
  | above (names : List String)
  /-- Names from the root of the system. -/
  | system (names : List String)
  deriving DecidableEq

namespace Place

def child (place : Place) (name : String) : Place :=
  match place with
  | inside names => inside (names ++ [name])
  | above names => above (names ++ [name])
  | system names => system (names ++ [name])

/-- The directory that holds a place; the root holds itself. -/
def parent : Place → Place
  | inside [] => above []
  | inside names => inside names.dropLast
  | above names => above names.dropLast
  | system names => system names.dropLast

end Place

/-- Files and directories by the names that lead to them. -/
structure Disk where
  entries : List (List String × DiskEntry) := []

namespace Disk

/-- The segments of a path. -/
def segments (path : String) : List String := (Text.splitOn '/' path.toList).map String.ofList

/-- The longest name of a file, in bytes. -/
def maxNameLength : Nat := 255

/-- The longest path, in bytes. -/
def maxPathLength : Nat := 4095

/-- What stands at a place; the place itself is a directory. -/
def entry? (d : Disk) (place : List String) : Option DiskEntry :=
  if place.isEmpty then some .directory else d.entries.lookup place

/-- Puts an entry at a place. -/
def put (d : Disk) (place : List String) (entry : DiskEntry) : Disk :=
  ⟨(place, entry) :: d.entries.filter fun e => e.1 != place⟩

/-- Puts an entry at a place, with the directories that lead to it. -/
def add (d : Disk) (place : List String) (entry : DiskEntry) : Disk :=
  let parents := (List.range place.length).map place.take
  let missing := parents.filter fun p => (d.entry? p).isNone
  (missing.foldl (fun d p => d.put p .directory) d).put place entry

/-! ## Walking -/

/-- What there is in every system: its first directories, and a file that forgets what is written to
it. -/
def systemEntries : List (List String × DiskEntry) :=
  ["bin", "dev", "etc", "home", "lib", "mnt", "opt", "proc", "root", "run", "sbin", "srv", "sys",
    "tmp", "usr", "var"].map (fun name => ([name], DiskEntry.directory)) ++
    [(["dev", "null"], .file .empty)]

/-- What stands at a place. -/
def entryAt? (d : Disk) : Place → Option DiskEntry
  | .inside names => d.entry? names
  | .system [] => some .directory
  | .system names => systemEntries.lookup names
  | .above [] => some .directory
  | .above _ => none

/-- Looks a name up in a directory. -/
def enter (d : Disk) (here : Place) (name : String) : Except FileError (Place × DiskEntry) :=
  if maxNameLength < name.utf8ByteSize then .error .nameTooLong
  else
    match d.entryAt? (here.child name) with
    | none => .error .notFound
    | some entry => .ok (here.child name, entry)

/-- Walks from a directory along some segments. -/
def walk (d : Disk) (here : Place) : List String → Except FileError (Place × DiskEntry)
  | [] => .ok (here, .directory)
  | s :: rest =>
    if s.isEmpty ∨ s = "." then d.walk here rest
    else if s = ".." then d.walk here.parent rest
    else do
      match ← d.enter here s with
      | (place, .directory) => d.walk place rest
      | (place, .file data) =>
        if rest.isEmpty then .ok (place, .file data) else .error .notDirectory

/-- Where a path starts, which must not be empty or too long. -/
def start (path : String) : Except FileError Place :=
  if path.isEmpty then .error .notFound
  else if maxPathLength < path.utf8ByteSize then .error .nameTooLong
  else if path.toList.head? = some '/' then .ok (.system [])
  else .ok (.inside [])

/-! ## Reading and writing -/

/-- The text of a file. -/
def read (d : Disk) (path : String) : Except FileError String := do
  match (← d.walk (← start path) (segments path)).2 with
  | .directory => .error .isDirectory
  | .file data =>
    match String.fromUTF8? data with
    | some text => .ok text
    | none => .error .notText

/-- Puts a file at a place. What is written elsewhere than in the directory that the command runs in
is not seen again. -/
def putAt (d : Disk) (text : String) : Place → Disk
  | .inside names => d.put names (.file text.toUTF8)
  | _ => d

/-- Writes a file, in place of one that is there already. Its directory has to be there, and a path
that ends in a slash or in dots names a directory. -/
def write (d : Disk) (path : String) (text : String) : Except FileError Disk := do
  let here ← start path
  match (segments path).reverse.dropWhile String.isEmpty with
  | [] => .error .isDirectory
  | name :: above =>
    match ← d.walk here above.reverse with
    | (_, .file _) => .error .notDirectory
    | (here, .directory) =>
      if name = "." ∨ name = ".." ∨ path.toList.getLast? = some '/' then .error .isDirectory
      else
        match d.enter here name with
        | .ok (_, .directory) => .error .isDirectory
        | .ok (place, .file _) => .ok (d.putAt text place)
        | .error .notFound => .ok (d.putAt text (here.child name))
        | .error e => .error e

end Disk

end Stylesheet
