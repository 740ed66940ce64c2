import ParallelShell.FileTree.Walk

set_option autoImplicit false

/-! # Building a file tree

A tree is built entry by entry. Each entry is given by a path, which is used from some directory.
The directories on the way are made first, where nothing stands yet; links on the way are followed.
Then the entry itself is made, by kind: a directory is made like those on the way, a file is written
to whatever the path leads to, and a link takes a place that is free.

An entry that cannot be made is an error, and its cause is the one that the system would give.
-/

namespace ParallelShell

namespace FileTree

/-- The names of a path that lead somewhere. -/
def steps (path : Text) : List Text :=
  (Path.names path).filter fun name => name ≠ [] ∧ name ≠ Path.here

/-- Why no directory can be made, or gone through, where something stands in its place. A link that
leads nowhere is gone back to, and is itself in the way. -/
def obstacle : Except Cause Found → Cause
  | .error (.errno .noEntry) => .errno .taken
  | .error cause => cause
  | .ok (.absent _ _) => .errno .taken
  | .ok _ => .errno .notDirectory

/-- The directory that some names lead to, one after the other, made where nothing stands yet. -/
def enter (t : FileTree) (directory : Location) : List Text → Except Cause (FileTree × Location)
  | [] => .ok (t, directory)
  | name :: names =>
    match t.node? (name :: directory), t.locate false directory name with
    | _, .ok (.directory loc) => t.enter loc names
    | none, .ok _ => (t.put (name :: directory) .directory).enter (name :: directory) names
    | none, .error cause => .error cause
    | some _, found => .error (if names.isEmpty then .errno .taken else obstacle found)

def withDirectories (t : FileTree) (directory : Location) (path : Text) (names : List Text) :
    Except Cause FileTree :=
  match refusal? (Path.join directory.path path), t.enter directory names with
  | some cause, _ => .error cause
  | none, .error cause => .error cause
  | none, .ok (t, _) => .ok t

/-- Where an entry stands or could be made, whatever it is. -/
structure Slot where
  /-- The directory. -/
  directory : Location
  /-- The last name of the path. -/
  name : Text
  /-- Whether the path goes on with a slash. -/
  slashed : Bool

/-- The slot that a path leads to. A link is followed on the way, but not at the end. -/
def slot (t : FileTree) (directory : Location) (path : Text) : Except Cause Slot :=
  let names := (Path.names (Path.join directory.path path)).reverse
  match names.dropWhile List.isEmpty with
  | [] => .error (.errno .noEntry)
  | name :: before =>
    match t.walk false maxLinks [] before.reverse with
    | .error e => .error (.errno e)
    | .ok (.directory loc) => .ok { directory := loc, name, slashed := names.head? = some [] }
    | .ok (.absent _ _) => .error (.errno .noEntry)
    | .ok _ => .error (.errno .notDirectory)

def Slot.isMove (s : Slot) : Bool := s.name = Path.here ∨ s.name = Path.parent

def addDirectory (t : FileTree) (directory : Location) (path : Text) : Except Cause FileTree :=
  t.withDirectories directory path (steps path)

/-- Writes a file: the one that the path leads to, or a new one. -/
def addFile (t : FileTree) (directory : Location) (path : Text) (mode : Mode) (content : Content) :
    Except Cause FileTree := do
  let t ← t.withDirectories directory path (steps path).dropLast
  match ← t.locate true [] (Path.join directory.path path) with
  | .absent parent name => return t.put (name :: parent) (.file mode content)
  | .file loc old _ =>
    if old.mayWrite then return t.put loc (.file mode content)
    else throw (.errno .permissionDenied)
  | .directory _ => throw (.errno .isDirectory)
  | .device _ _ => throw (.errno .notOwner)

def addLink (t : FileTree) (directory : Location) (path target : Text) : Except Cause FileTree := do
  let t ← t.withDirectories directory path (steps path).dropLast
  match refusal? target with
  | some cause => throw cause
  | none =>
    let s ← t.slot directory path
    if s.isMove then throw (.errno .taken)
    else if maxName < Text.size s.name then throw (.errno .nameTooLong)
    else
      match t.node? (s.name :: s.directory) with
      | some _ => throw (.errno .taken)
      | none =>
        if s.slashed then throw (.errno .noEntry)
        else return t.put (s.name :: s.directory) (.link target)

def remove (t : FileTree) (directory : Location) (path : Text) : Except Cause FileTree := do
  match refusal? (Path.join directory.path path) with
  | some cause => throw cause
  | none =>
    let s ← t.slot directory path
    if s.isMove then throw (.errno .isDirectory)
    else if maxName < Text.size s.name then throw (.errno .nameTooLong)
    else
      match t.node? (s.name :: s.directory) with
      | none => throw (.errno .noEntry)
      | some .directory => throw (.errno .isDirectory)
      | some _ =>
        if s.slashed then throw (.errno .notDirectory)
        else return t.erase (s.name :: s.directory)

end FileTree

end ParallelShell
