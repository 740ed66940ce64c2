import ParallelShell.FileTree.Walk

set_option autoImplicit false

/-! # The search path

The **search path** is the list of directories in which programs are looked for. It is used in
two ways, and both come down to one test, whether a directory joined with a name is a file that
may be executed:

* `find?` takes a command name and gives the first place where the test succeeds, so an earlier
  directory hides a later one. The name may itself be a path; an absolute one is found through
  any directory at all, and through none if the search path is empty.
* `names` lists the entries of all directories that pass the test, with repetitions, for
  completion. A directory that cannot be read is passed over. A file whose name is not UTF-8 is
  listed under the text that the name is decoded to, though that text does not lead to it.

Two search paths are the **same** if their directories are, one by one, the same paths.
-/

namespace ParallelShell

/-- The directories in which programs are looked for, in order. -/
structure SearchPath where
  directories : List Text
  deriving DecidableEq, Repr

namespace SearchPath

def standard : SearchPath := { directories := [text "/bin", text "/usr/bin"] }

def places (s : SearchPath) (name : Text) : List Text :=
  s.directories.map fun d => Path.join d name

def find? (s : SearchPath) (t : FileTree) (directory : Location) (name : Text) : Option Text :=
  (s.places name).find? (t.isExecutable directory)

/-- Whether a stray file may be executed, by its name behind the path of its directory. -/
def isStrayProgram (path : Text) (x : Stray) : Bool :=
  x.mode.mayExecute && Text.size (Path.join path []) + x.name.length ≤ FileTree.maxPath

def straysIn (t : FileTree) (loc : Location) (path : Text) : List Text :=
  (t.sight.strays.filter fun x => x.directory = loc && isStrayProgram path x).map fun x =>
    Text.decode x.name

/-- The programs that are seen in a directory; none if it cannot be read. -/
def programsIn (t : FileTree) (directory : Location) (path : Text) : List Text :=
  match t.readDirectory directory path with
  | .ok loc =>
    ((t.children loc).filter fun name => t.isExecutable directory (Path.join path name)) ++
      straysIn t loc path
  | .error _ => []

/-- The names of all programs, in no particular order; a name counts once per directory. -/
def names (s : SearchPath) (t : FileTree) (directory : Location) : List Text :=
  s.directories.flatMap (programsIn t directory)

def samePaths : List Text → List Text → Bool
  | [], [] => true
  | p :: ps, q :: qs => Path.same p q && samePaths ps qs
  | _, _ => false

/-- Whether two search paths have the same directories in the same order. -/
def same (s r : SearchPath) : Bool := samePaths s.directories r.directories

/-- An empty search path finds nothing, whatever the name. -/
@[simp]
theorem find?_nil (t : FileTree) (directory : Location) (name : Text) :
    find? { directories := [] } t directory name = none := rfl

/-- **The first place of a program**: a directory of the search path joined with its name, and none
of the directories before has one. -/
theorem find?_eq_some_iff {s : SearchPath} {t : FileTree} {directory : Location}
    {name path : Text} : s.find? t directory name = some path ↔ ∃ before d after,
      s.directories = before ++ d :: after ∧ path = Path.join d name ∧
      t.isExecutable directory path = true ∧
      ∀ e ∈ before, t.isExecutable directory (Path.join e name) = false := by
  rw [find?, List.find?_eq_some_iff_append]
  constructor
  · rintro ⟨hexec, before, after, hplaces, hbefore⟩
    obtain ⟨ds, es, hdirectories, hds, hes⟩ := List.map_eq_append_iff.mp hplaces
    obtain ⟨d, rest, rfl, rfl, -⟩ := List.map_eq_cons_iff.mp hes
    refine ⟨ds, d, rest, hdirectories, rfl, hexec, fun e he => ?_⟩
    have hplace : Path.join e name ∈ before := hds ▸ List.mem_map_of_mem he
    simpa using hbefore _ hplace
  · rintro ⟨before, d, after, hdirectories, rfl, hexec, hbefore⟩
    refine ⟨hexec, before.map fun e => Path.join e name, after.map fun e => Path.join e name,
      ?_, ?_⟩
    · rw [places, hdirectories, List.map_append, List.map_cons]
    · intro place hplace
      obtain ⟨e, he, rfl⟩ := List.mem_map.mp hplace
      rw [hbefore e he]
      rfl

end SearchPath

end ParallelShell
