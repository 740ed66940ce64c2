import ParallelShell.Proofs.FileTree.Content
import ParallelShell.Proofs.FileTree.SamePath

set_option autoImplicit false

/-! # Which names are known

The names on a search path are read off the file tree, from a directory. A completer keeps what was
read once, so it matters when they would be read differently. There are three things that could
change: what files hold, the directory, and the spelling of the search path. This file has one
statement on each of the first two; the third has a file of its own
(`ParallelShell.Proofs.SearchPath.Spelling`).

* What files hold makes no difference (`SearchPath.mem_names_iff_of_sameBut`).
* The directory makes none if every path starts at the root
  (`SearchPath.mem_names_iff_of_isAbsolute`).
-/

namespace ParallelShell

namespace FileTree

/-- The entries of a directory are the places in it that are taken. -/
theorem mem_children_iff (t : FileTree) (loc : Location) (name : Text) :
    name ∈ t.children loc ↔ t.node? (name :: loc) ≠ none := by
  have hnode : t.node? (name :: loc) ≠ none ↔ name :: loc ∈ t.entries.map Prod.fst := by
    rw [node?, if_neg (List.cons_ne_nil _ _), ne_eq, lookup_eq_none_iff, not_not]
  rw [hnode, children, List.mem_filterMap, List.mem_map]
  constructor
  · rintro ⟨⟨l, node⟩, hmem, h⟩
    cases l with
    | nil => cases h
    | cons other parent =>
        by_cases hp : parent = loc
        · simp only [hp, if_true, Option.some_inj] at h
          exact ⟨_, hmem, by rw [hp, h]⟩
        · simp [hp] at h
  · rintro ⟨⟨l, node⟩, hmem, rfl⟩
    exact ⟨_, hmem, by simp⟩

theorem SameBut.mem_children_iff {W : Location → Prop} {t u : FileTree} (h : SameBut W t u)
    (loc : Location) (name : Text) : name ∈ t.children loc ↔ name ∈ u.children loc := by
  rw [FileTree.mem_children_iff, FileTree.mem_children_iff]
  rcases h (name :: loc) with hn | ⟨-, mode, c, c', ht, hu⟩
  · rw [hn]
  · simp [ht, hu]

theorem readDirectory_eq_ok_iff {t : FileTree} {directory loc : Location} {path : Text} :
    t.readDirectory directory path = .ok loc ↔
      t.findDirectory directory path = .ok loc ∧ t.sight.isClosed loc = false := by
  unfold readDirectory
  cases t.findDirectory directory path with
  | error cause => simp
  | ok found =>
      simp only [Except.ok.injEq]
      split
      · rename_i hclosed
        refine iff_of_false (by simp) ?_
        rintro ⟨rfl, hopen⟩
        simp [hclosed] at hopen
      · rename_i hopen
        rw [Except.ok.injEq, iff_self_and]
        rintro rfl
        simpa using hopen

theorem readDirectory_eq {W : Location → Prop} {t u : FileTree} (h : SameBut W t u)
    (hsight : t.sight = u.sight) : t.readDirectory = u.readDirectory := by
  funext directory path
  rw [readDirectory, readDirectory, findDirectory_eq h, hsight]

/-- An absolute path leads to the same place from everywhere. -/
theorem locate_eq_of_isAbsolute {path : Text} (h : Path.isAbsolute path = true) (t : FileTree)
    (creating : Bool) (d e : Location) : t.locate creating d path = t.locate creating e path := by
  rw [locate, locate, base, base, if_pos h, if_pos h]

end FileTree

namespace SearchPath

variable {s r : SearchPath} {t u : FileTree}

theorem mem_programsIn_iff (t : FileTree) (directory : Location) (path name : Text) :
    name ∈ programsIn t directory path ↔
      ∃ loc, t.readDirectory directory path = .ok loc ∧
        (name ∈ t.children loc ∧ t.isExecutable directory (Path.join path name) = true ∨
          name ∈ straysIn t loc path) := by
  unfold programsIn
  cases t.readDirectory directory path with
  | error cause => simp
  | ok loc => simp

theorem mem_names_iff (s : SearchPath) (t : FileTree) (directory : Location) (name : Text) :
    name ∈ s.names t directory ↔ ∃ path ∈ s.directories, name ∈ programsIn t directory path :=
  List.mem_flatMap

/-- **What files hold is no matter for the names.** -/
theorem mem_names_iff_of_sameBut {W : Location → Prop} (h : FileTree.SameBut W t u)
    (hsight : t.sight = u.sight) (s : SearchPath) (directory : Location) (name : Text) :
    name ∈ s.names t directory ↔ name ∈ s.names u directory := by
  simp only [mem_names_iff, mem_programsIn_iff, FileTree.readDirectory_eq h hsight,
    h.mem_children_iff, FileTree.isExecutable_eq h, straysIn, hsight]

/-- Whether all directories are given by absolute paths. -/
def IsAbsolute (s : SearchPath) : Prop := ∀ path ∈ s.directories, Path.isAbsolute path = true

/-- **Absolute paths have the same names from everywhere.** -/
theorem mem_names_iff_of_isAbsolute (h : s.IsAbsolute) (t : FileTree) (d e : Location)
    (name : Text) : name ∈ s.names t d ↔ name ∈ s.names t e := by
  have hprograms : ∀ path ∈ s.directories,
      (name ∈ programsIn t d path ↔ name ∈ programsIn t e path) := by
    intro path hpath
    have hjoin : Path.isAbsolute (Path.join path name) = true := by
      by_cases hn : Path.isAbsolute name = true
      · rw [Path.join_of_isAbsolute hn, hn]
      · have hne : path ≠ [] := by
          rintro rfl
          exact absurd (h [] hpath) (by decide)
        rw [Path.isAbsolute_join hne (Bool.not_eq_true _ ▸ hn), h path hpath]
    rw [mem_programsIn_iff, mem_programsIn_iff]
    simp only [FileTree.readDirectory, FileTree.findDirectory, FileTree.isExecutable, FileTree.find,
      FileTree.locate_eq_of_isAbsolute (h path hpath) t false d e,
      FileTree.locate_eq_of_isAbsolute hjoin t false d e]
  rw [mem_names_iff, mem_names_iff]
  exact exists_congr fun path => and_congr_right (hprograms path)

end SearchPath

end ParallelShell
