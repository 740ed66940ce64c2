import ParallelShell.Text.Split

set_option autoImplicit false

/-! # Paths

A **path** is a text that names something in the file tree: names with `/` between them, starting
at the root if the first character is a `/` and at the current directory otherwise. A path is
kept as it was written. What it names is found by walking it (`ParallelShell.FileTree.Walk`);
this file has what can be said of a path without a tree.

* `Path.names`: the names to be walked, one after the other. Two slashes in a row, or one at
  either end, give an empty name, and an empty name stays where it is, like the name `.`.
* `Path.join`: a name seen from a directory, put together letter by letter.
* `Path.components`: what a path amounts to when such superfluous names are left out. Two paths
  are the **same** if their components are (`Path.same`); so `bin`, `bin/` and `bin/.` are the
  same path, but `./bin` is another one.
-/

namespace ParallelShell

namespace Path

def slash : Char := '/'

def here : Text := ['.']

/-- The name that leads to the parent of a directory. -/
def parent : Text := ['.', '.']

def isAbsolute (path : Text) : Bool := path.head? == some slash

def names (path : Text) : List Text := Text.split slash path

/-- A path seen from a directory: an absolute path as it is; any other one behind the directory
and a slash, unless the directory is the empty text or already ends with a slash. -/
def join (directory path : Text) : Text :=
  if isAbsolute path then path
  else if directory.isEmpty || directory.getLast? == some slash then directory ++ path
  else directory ++ slash :: path

inductive Component where
  /-- The root, where an absolute path starts. -/
  | root
  /-- The current directory, where a path that starts with `.` starts. -/
  | current
  /-- Up to the parent directory. -/
  | up
  /-- Down to the entry of that name. -/
  | down (name : Text)
  deriving DecidableEq, Repr

/-- The step that a name stands for, if it stands for one. -/
def step? (name : Text) : Option Component :=
  if name = [] ∨ name = here then none
  else if name = parent then some .up
  else some (.down name)

/-- The steps of a path. A `.` counts at the start of a relative path only. -/
def components (path : Text) : List Component :=
  let steps := (names path).filterMap step?
  if isAbsolute path then .root :: steps
  else if (names path).head? = some here then .current :: steps
  else steps

def same (p q : Text) : Bool := components p = components q

def hasNul (path : Text) : Bool := path.contains (Char.ofNat 0)

theorem same_refl (p : Text) : same p p = true := by simp [same]

/-- An absolute path is the same from everywhere. -/
theorem join_of_isAbsolute {path : Text} (h : isAbsolute path = true) (directory : Text) :
    join directory path = path := by simp [join, h]

/-- What is joined to a non-empty directory has a slash in it. -/
theorem slash_mem_join {directory : Text} (h : directory ≠ []) (path : Text) :
    slash ∈ join directory path := by
  unfold join
  split
  · rename_i ha
    simp only [isAbsolute, beq_iff_eq] at ha
    exact List.mem_of_mem_head? (by simp [ha])
  · split
    · rename_i hd
      simp only [Bool.or_eq_true, List.isEmpty_iff, h, false_or, beq_iff_eq] at hd
      exact List.mem_append_left _ (List.mem_of_getLast? hd)
    · simp

end Path

end ParallelShell
