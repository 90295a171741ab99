import BackgroundTasks.Program

/-!
# Where files are kept

A store keeps its files in one folder. This is as much of a file system as that takes: the folder
may not be there yet or may not be possible, a path in it leads to a file of bytes or to another
folder, and each call either does what it says or fails and leaves everything as it was. Nothing is
ever in a folder that is not there.

A store reaches its folder through these calls alone, one at a time, so a run of the store can be
cut between any two of them.
-/

namespace BackgroundTasks

/-- The names that lead from the folder to a file or to another folder; none leads to itself. -/
abbrev Path := List String

/-- The path that a text spells. -/
def Path.ofText (text : String) : Path :=
  (text.splitOn "/").filter fun name => name != "" && name != "."

/-- What a path leads to. -/
inductive FolderEntry where
  | file (bytes : List UInt8)
  | folder
deriving DecidableEq, Repr

/-- What is found where a store is to keep its files. -/
inductive Place where
  | absent
  /-- A file where the folder should be, or somewhere above it. -/
  | blocked
  | folder (entries : List (Path × FolderEntry))
deriving DecidableEq, Repr

/-- A call to the file system. -/
inductive FileCall where
  /-- Makes the folder, unless it is there. -/
  | makeRoot
  | isThere (name : String)
  | read (name : String)
  /-- Makes a file, or replaces its content. -/
  | write (name : String) (bytes : List UInt8)
  /-- Gives a file another name, which then stands for no other file any more. -/
  | rename (source target : String)
  /-- Opens a file at its end, making an empty one if there is none. -/
  | openAtEnd (name : String)
  | size (name : String)
  | append (name : String) (bytes : List UInt8)
  | truncate (name : String) (length : Nat)
deriving DecidableEq, Repr

namespace FileCall

/-- What a call returns. -/
@[reducible] def Result : FileCall → Type
  | isThere _ => Bool
  | read _ => List UInt8
  | size _ => Nat
  | _ => Unit

/-- A call returns its result, or nothing when it fails. -/
abbrev Answer (c : FileCall) : Type := Option c.Result

/-- Programs that work on files. -/
abbrev signature : Signature := ⟨FileCall, Answer⟩

end FileCall

/-- A program that works on files. -/
abbrev FileProgram : Type → Type := Program FileCall.signature

namespace Place

/-- What a path leads to, if the folder is there. -/
def find? : Place → Path → Option FolderEntry
  | folder _, [] => some .folder
  | folder entries, path => entries.lookup path
  | _, _ => none

/-- The content of a file. -/
def bytes? (p : Place) (path : Path) : Option (List UInt8) :=
  match p.find? path with
  | some (.file bytes) => some bytes
  | _ => none

/-- Whether there is a folder in which a path can end. -/
def hasRoom (p : Place) (path : Path) : Bool :=
  !path.isEmpty && p.find? path.dropLast = some .folder

/-- The entries without a path. -/
def without (entries : List (Path × FolderEntry)) (path : Path) : List (Path × FolderEntry) :=
  entries.filter fun e => e.1 != path

/-- Whether a folder has something in it. -/
def isFilled (entries : List (Path × FolderEntry)) (path : Path) : Bool :=
  entries.any fun e => e.1 != path && path.isPrefixOf e.1

/-- The place with a file of the given content; fails where the path leads to a folder. -/
def putFile? (p : Place) (path : Path) (bytes : List UInt8) : Option Place :=
  match p with
  | folder entries =>
    if p.find? path = some .folder || !p.hasRoom path then none
    else some (folder ((path, .file bytes) :: without entries path))
  | _ => none

/-- The place with a file under another path. -/
def rename? (p : Place) (source target : Path) : Option Place :=
  match p.bytes? source, p with
  | some bytes, folder entries => (folder (without entries source)).putFile? target bytes
  | _, _ => none

/-- The place with an empty folder at a path that leads nowhere yet. -/
def addFolder? (p : Place) (path : Path) : Option Place :=
  match p with
  | folder entries =>
    if (p.find? path).isSome || !p.hasRoom path then none
    else some (folder ((path, .folder) :: entries))
  | _ => none

/-- The place without the folder at a path, which has to be empty. -/
def removeFolder? (p : Place) (path : Path) : Option Place :=
  match p with
  | folder entries =>
    if p.find? path != some .folder || isFilled entries path then none
    else if path.isEmpty then some absent
    else some (folder (without entries path))
  | _ => none

/-- The place without the file at a path. -/
def removeFile? (p : Place) (path : Path) : Option Place :=
  match p.bytes? path, p with
  | some _, folder entries => some (folder (without entries path))
  | _, _ => none

/-- The place with its folder made. -/
def makeRoot? : Place → Option Place
  | absent => some (folder [])
  | blocked => none
  | folder entries => some (folder entries)

/-- The place with a file where the folder should be. -/
def block? : Place → Option Place
  | folder _ => none
  | _ => some blocked

/-- A call that changes the place or fails. -/
def changed (p : Place) : Option Place → Option Unit × Place
  | some p => (some (), p)
  | none => (none, p)

/-- What a call returns, and the place it leaves behind. -/
def answer : (c : FileCall) → Place → c.Answer × Place
  | .makeRoot, p => p.changed p.makeRoot?
  | .isThere name, p => (some (p.find? [name]).isSome, p)
  | .read name, p => (p.bytes? [name], p)
  | .write name bytes, p => p.changed (p.putFile? [name] bytes)
  | .rename source target, p => p.changed (p.rename? [source] [target])
  | .openAtEnd name, p => p.changed (p.putFile? [name] ((p.bytes? [name]).getD []))
  | .size name, p => ((p.bytes? [name]).map List.length, p)
  | .append name bytes, p =>
    p.changed ((p.bytes? [name]).bind fun content => p.putFile? [name] (content ++ bytes))
  | .truncate name length, p =>
    p.changed ((p.bytes? [name]).bind fun content => p.putFile? [name] (content.take length))

end Place

end BackgroundTasks
