import ParallelShell.Errno
import ParallelShell.FileTree.Basic

set_option autoImplicit false

/-! # Walking a path

What a path names is found by **walking** it: from the root, or from the current directory, one
name after the other. An empty name and `.` stay in a directory, `..` goes to its parent, and any
other name goes to the entry of that name; a symbolic link is followed, also at the end of a
path, by walking its target and then what is left of the path. Every name is walked from a
directory: what stands in the place of one ends the walk with an error.

The walk ends at a `Found`: a directory, a file, a device, or a place in a directory that is not
taken yet. The last matters only to those who want to create something there. Because they may
not create a directory in this way, a path that ends with a slash is refused when `creating`.

Three limits keep a walk finite and small: the octets of a path, the octets of a name, and the
number of links that may be followed in one walk. The last is what makes `walk` a recursion: each
link costs one of the links that are left, and between two links the names only get fewer.
-/

namespace ParallelShell

inductive Found where
  /-- A directory. -/
  | directory (loc : Location)
  /-- A file. -/
  | file (loc : Location) (mode : Mode) (content : Content)
  /-- A device. -/
  | device (loc : Location) (device : Device)
  /-- A place for an entry of that name in a directory that has none. -/
  | absent (directory : Location) (name : Text)
  deriving DecidableEq, Repr

namespace FileTree

def maxName : Nat := 255

def maxPath : Nat := 4095

def maxLinks : Nat := 40

/-- Where the walk of a path starts that stands in, or is used from, a directory. -/
def base (directory : Location) (path : Text) : Location :=
  if Path.isAbsolute path then [] else directory

/-- Walks names. What happens at a link is left to `follow`, which gets the directory the link
stands in, its target, and the names that come after it. -/
def descend (t : FileTree) (creating : Bool)
    (follow : Location → Text → List Text → Except Errno Found) :
    Found → List Text → Except Errno Found
  | found, [] => .ok found
  | .absent _ _, _ :: _ => .error .noEntry
  | .file _ _ _, _ :: _ => .error .notDirectory
  | .device _ _, _ :: _ => .error .notDirectory
  | .directory loc, name :: rest =>
    if name = [] ∨ name = Path.here then descend t creating follow (.directory loc) rest
    else if name = Path.parent then descend t creating follow (.directory loc.tail) rest
    else if creating && !rest.isEmpty && rest.all List.isEmpty then .error .isDirectory
    else if maxName < Text.size name then .error .nameTooLong
    else
      match t.node? (name :: loc) with
      | none => if rest.isEmpty then .ok (.absent loc name) else .error .noEntry
      | some .directory => descend t creating follow (.directory (name :: loc)) rest
      | some (.file mode content) =>
          descend t creating follow (.file (name :: loc) mode content) rest
      | some (.device device) => descend t creating follow (.device (name :: loc) device) rest
      | some (.link target) => follow loc target rest

/-- Walks names, following at most a given number of links. -/
def walk (t : FileTree) (creating : Bool) : Nat → Location → List Text → Except Errno Found
  | 0, loc, names =>
    descend t creating (fun _ _ _ => .error .tooManyLinks) (.directory loc) names
  | links + 1, loc, names =>
    descend t creating
      (fun loc target rest => walk t creating links (base loc target) (Path.names target ++ rest))
      (.directory loc) names

/-- Why a text is not used as a path at all, if it is not. -/
def refusal? (path : Text) : Option Cause :=
  if Path.hasNul path then some .nulInPath
  else if path.isEmpty then some (.errno .noEntry)
  else if maxPath < Text.size path then some (.errno .nameTooLong)
  else none

/-- What a path names when it is used from a directory; with `creating`, possibly a place where
something can be created. -/
def locate (t : FileTree) (creating : Bool) (directory : Location) (path : Text) :
    Except Cause Found :=
  match refusal? path with
  | some cause => .error cause
  | none =>
    match t.walk creating maxLinks (base directory path) (Path.names path) with
    | .error e => .error (.errno e)
    | .ok found => .ok found

def find (t : FileTree) (directory : Location) (path : Text) : Except Cause Found :=
  match t.locate false directory path with
  | .ok (.absent _ _) => .error (.errno .noEntry)
  | result => result

def isExecutable (t : FileTree) (directory : Location) (path : Text) : Bool :=
  match t.find directory path with
  | .ok (.file _ mode _) => mode.mayExecute
  | _ => false

def findDirectory (t : FileTree) (directory : Location) (path : Text) : Except Cause Location :=
  match t.find directory path with
  | .ok (.directory loc) => .ok loc
  | .ok _ => .error (.errno .notDirectory)
  | .error cause => .error cause

/-- A directory whose entries can be read, for a path that names one; otherwise the cause. -/
def readDirectory (t : FileTree) (directory : Location) (path : Text) : Except Cause Location :=
  match t.findDirectory directory path with
  | .ok loc => if t.sight.isClosed loc then .error (.errno .permissionDenied) else .ok loc
  | .error cause => .error cause

end FileTree

end ParallelShell
