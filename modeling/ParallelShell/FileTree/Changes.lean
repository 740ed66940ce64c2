import ParallelShell.FileTree.Basic

set_option autoImplicit false

/-! # What has changed in a file tree

A **snapshot** is what can be read of the files below a directory at some time; there is none if
one of the files may not be read. Two snapshots are compared file by file: `Snapshot.changes` names
the files that are new, that differ in mode or content, or that are gone. Only entries that are
files themselves count; a link is not followed.
-/

namespace ParallelShell

/-- A file as it is found: the names that lead to it, the outermost first, its mode and its
content. -/
structure FoundFile where
  names : List Text
  mode : Mode
  content : Content
  deriving DecidableEq, Repr

abbrev Snapshot := List FoundFile

namespace FileTree

def below? (directory loc : Location) : Option (List Text) :=
  let n := loc.length - directory.length
  if loc.drop n = directory then some (loc.take n).reverse else none

/-- The file that an entry of a tree is, seen from a directory above it. -/
def file? (directory : Location) : Location × Node → Option FoundFile
  | (loc, .file mode content) =>
    (below? directory loc).map fun names => { names, mode, content }
  | _ => none

def snapshot? (t : FileTree) (directory : Location) : Option Snapshot :=
  let files := t.entries.filterMap (file? directory)
  if files.all fun f => f.mode.mayRead then some files else none

end FileTree

namespace Snapshot

def find? (s : Snapshot) (names : List Text) : Option FoundFile :=
  List.find? (fun f => f.names = names) s

/-- The files that are not what they were: the names that lead to each, and what it is now, if it
is still there. -/
def changes (before after : Snapshot) : List (List Text × Option FoundFile) :=
  let changed := after.filter fun f => before.find? f.names ≠ some f
  let gone := before.filter fun f => (after.find? f.names).isNone
  changed.map (fun f => (f.names, some f)) ++ gone.map fun f => (f.names, none)

end Snapshot

end ParallelShell
