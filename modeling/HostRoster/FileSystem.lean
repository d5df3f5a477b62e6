import HostRoster.KeyMap
import HostRoster.Path
import HostRoster.Text.Utf8

/-!
# File systems

The calls on a file system that the records of a cluster and its configuration
need, and a tree of files in memory that carries them out. Each call is one step:
nothing else happens between its beginning and its end.
-/
namespace HostRoster

inductive FileCall where
  | contains (path : String)
  | read (path : String)
  /-- Makes a directory and all directories above it that are missing. -/
  | makeDirectory (path : String)
  /-- Makes an empty file, or empties one that exists. -/
  | create (path : String)
  /-- Puts a text at the start of a file that was created empty. -/
  | write (path text : String)
  | append (path text : String)
  /-- Waits until what was written is on the disk. -/
  | sync (path : String)
  /-- Gives a file another path, in place of the file that was there. -/
  | rename (source target : String)
  | delete (path : String)
deriving DecidableEq, Repr

/-- What a call gives: a failed call gives the reason. -/
def FileCall.Answer : FileCall → Type
  | contains _ => Bool
  | read _ => Except String String
  | _ => Except String Unit

/-- What a file holds: a text, or bytes that are not the encoding of any text. -/
inductive FileContent where
  | text (content : String)
  | bytes (content : List UInt8)
deriving DecidableEq, Repr

def FileContent.ofBytes (content : List UInt8) : FileContent :=
  (String.fromUTF8? content.toByteArray).elim (bytes content) text

def FileContent.shown : FileContent → String
  | text content => content
  | bytes content => Text.lossy content

def FileContent.append : FileContent → String → FileContent
  | text old, more => .text (old ++ more)
  | bytes old, more => .bytes (old ++ more.toUTF8.toList)

/-- What stands at a path. -/
inductive FileEntry where
  | directory
  | file (content : FileContent)
deriving DecidableEq, Repr

/-- A tree of files. Entries are kept under their full paths without dots; the root is always
there. -/
structure FileTree where
  entries : KeyMap String FileEntry := ∅
  /-- The directory from which paths are seen. -/
  present : String := "/"

namespace FileTree

inductive Trouble where
  | missing
  | notDirectory
  | isDirectory
  | taken
  | notText
deriving DecidableEq, Repr

def Trouble.message : Trouble → String
  | missing => "No such file or directory (os error 2)"
  | notDirectory => "Not a directory (os error 20)"
  | isDirectory => "Is a directory (os error 21)"
  | taken => "File exists (os error 17)"
  | notText => "stream did not contain valid UTF-8"

def entry? (t : FileTree) (place : String) : Option FileEntry :=
  if place = "/" then some .directory else t.entries.get? place

def child (place name : String) : String :=
  if place = "/" then "/" ++ name else place ++ "/" ++ name

/-- The place that a segment leads to. -/
def follow (place segment : String) : String :=
  match segment with
  | "." => place
  | ".." => (Path.parent? place).getD "/"
  | name => child place name

/-- Follows a segment from a place that has to be a directory. -/
def step (t : FileTree) (place segment : String) : Except Trouble String :=
  match t.entry? place with
  | none => .error .missing
  | some (.file _) => .error .notDirectory
  | some .directory => .ok (follow place segment)

def start (t : FileTree) (path : String) : String :=
  if Path.isAbsolute path then "/" else t.present

/-- The place that a path leads to; its directory has to be there. -/
def locate (t : FileTree) (path : String) : Except Trouble String :=
  if path = "" then .error .missing else (Path.segments path).foldlM t.step (t.start path)

def put (t : FileTree) (place : String) (entry : FileEntry) : FileTree :=
  { t with entries := t.entries.insert place entry }

/-- Puts a directory and the directories above it. -/
def plantDirectory (t : FileTree) (place : String) : FileTree :=
  ((Path.ancestors place).filter (· ≠ "/")).foldl (fun t above => t.put above .directory) t

/-- Puts a file and the directories above it. -/
def plant (t : FileTree) (place : String) (content : FileContent) : FileTree :=
  (((Path.parent? place).elim t t.plantDirectory)).put place (.file content)

/-- The files under a directory, by what follows its name in theirs. -/
def filesUnder (t : FileTree) (directory : String) : List (String × FileContent) :=
  t.entries.entries.filterMap fun
    | (place, .file content) =>
      if place.startsWith (child directory "") then
        some ((place.drop (child directory "").length).toString, content)
      else none
    | (_, .directory) => none

def content (t : FileTree) (path : String) : Except Trouble FileContent := do
  match t.entry? (← t.locate path) with
  | none => .error .missing
  | some .directory => .error .isDirectory
  | some (.file content) => .ok content

def read (t : FileTree) (path : String) : Except Trouble String := do
  match ← t.content path with
  | .text text => .ok text
  | .bytes _ => .error .notText

/-- Goes down one segment and makes its directory when it is missing. -/
def descend (visit : FileTree × String) (segment : String) :
    Except Trouble (FileTree × String) := do
  let (t, place) := visit
  let place ← t.step place segment
  match t.entry? place with
  | some .directory => .ok (t, place)
  | some (.file _) => .error .taken
  | none => .ok (t.put place .directory, place)

def makeDirectory (t : FileTree) (path : String) : Except Trouble FileTree := do
  return (← (Path.segments path).foldlM descend (t, t.start path)).1

/-- Replaces the file at a path, which may be missing. -/
def overwrite (t : FileTree) (path text : String) : Except Trouble FileTree := do
  let place ← t.locate path
  match t.entry? place with
  | some .directory => .error .isDirectory
  | _ => .ok (t.put place (.file (.text text)))

/-- Changes the content of a file that is there. -/
def edit (t : FileTree) (path : String) (f : FileContent → FileContent) :
    Except Trouble FileTree := do
  let place ← t.locate path
  match t.entry? place with
  | none => .error .missing
  | some .directory => .error .isDirectory
  | some (.file content) => .ok (t.put place (.file (f content)))

def delete (t : FileTree) (path : String) : Except Trouble FileTree := do
  let place ← t.locate path
  match t.entry? place with
  | none => .error .missing
  | some .directory => .error .isDirectory
  | some (.file _) => .ok { t with entries := t.entries.erase place }

def rename (t : FileTree) (source target : String) : Except Trouble FileTree := do
  let old ← t.locate source
  let new ← t.locate target
  match t.entry? old, t.entry? new with
  | none, _ => .error .missing
  | some .directory, _ => .error .isDirectory
  | _, some .directory => .error .isDirectory
  | some entry, _ => .ok { t with entries := (t.entries.erase old).insert new entry }

/-- The answer and the new tree of a call that changes the tree. -/
def changed (t : FileTree) (result : Except Trouble FileTree) : Except String Unit × FileTree :=
  match result with
  | .ok t => (.ok (), t)
  | .error trouble => (.error trouble.message, t)

def carryOut (t : FileTree) : (call : FileCall) → call.Answer × FileTree
  | .contains path => (((t.locate path).toOption >>= t.entry?).isSome, t)
  | .read path => ((t.read path).mapError Trouble.message, t)
  | .makeDirectory path => t.changed (t.makeDirectory path)
  | .create path => t.changed (t.overwrite path "")
  | .write path text => t.changed (t.edit path fun _ => .text text)
  | .append path text => t.changed (t.edit path (·.append text))
  | .sync _ => (.ok (), t)
  | .rename source target => t.changed (t.rename source target)
  | .delete path => t.changed (t.delete path)

end FileTree

end HostRoster
