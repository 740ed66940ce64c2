import ParallelShell.Proofs.Completion.Offers
import ParallelShell.Proofs.Completion.Names
import ParallelShell.Proofs.FileTree.Entry

set_option autoImplicit false

/-! # Search paths that are written in another way

A completer is not rebuilt for a search path that is the same as the one it was built for, though
it may be written in another way: with slashes at the end of a directory, or two in a row, or with
`.` between. This file says that nothing is missed by that (`SearchPath.spelling_agrees`). The
same names are listed, the same number of times; and a name is found on both search paths or on
neither, and leads to the same file.

A path that is too long is refused, however short it could be written
(`SearchPath.exists_same_and_names_ne`). So all paths have to be short enough: the directories, what
is listed in them, and the places where a name is looked for (`SearchPath.FitsFrom`,
`SearchPath.FitsFor`).
-/

namespace ParallelShell

namespace SearchPath

variable {s r : SearchPath} {t : FileTree} {directory : Location} {name p q : Text}

theorem samePaths_iff (ps qs : List Text) :
    samePaths ps qs = true ↔ ps.map Path.components = qs.map Path.components := by
  induction ps generalizing qs with
  | nil => cases qs <;> simp [samePaths]
  | cons p ps ih =>
      cases qs with
      | nil => simp [samePaths]
      | cons q qs => simp [samePaths, Path.same, ih]

theorem same_iff (s r : SearchPath) :
    s.same r = true ↔
      s.directories.map Path.components = r.directories.map Path.components :=
  samePaths_iff _ _

theorem same_refl (s : SearchPath) : s.same s = true := (same_iff s s).mpr rfl

theorem same_symm (h : s.same r = true) : r.same s = true := by
  rw [same_iff] at h ⊢
  exact h.symm

theorem same_trans {s r q : SearchPath} (h : s.same r = true) (h' : r.same q = true) :
    s.same q = true := by
  rw [same_iff] at h h' ⊢
  exact h.trans h'

/-- Whether what is in a directory has paths that are short enough, behind the path of that
directory. -/
def EntriesFit (t : FileTree) (path : Text) (loc : Location) : Prop :=
  (∀ name ∈ t.children loc, Text.size (Path.join path name) ≤ FileTree.maxPath) ∧
    ∀ x ∈ t.sight.strays, x.directory = loc →
      Text.size (Path.join path []) + x.name.length ≤ FileTree.maxPath

instance (t : FileTree) (path : Text) (loc : Location) : Decidable (EntriesFit t path loc) :=
  inferInstanceAs (Decidable (_ ∧ _))

/-- Whether the directories, and what is listed in them, have paths that are short enough. -/
def FitsFrom (s : SearchPath) (t : FileTree) (directory : Location) : Prop :=
  ∀ path ∈ s.directories, Text.size path ≤ FileTree.maxPath ∧
    ∀ loc, t.findDirectory directory path = .ok loc → EntriesFit t path loc

def FitsFor (s : SearchPath) (name : Text) : Prop :=
  ∀ path ∈ s.directories, Text.size (Path.join path name) ≤ FileTree.maxPath

instance (s : SearchPath) (t : FileTree) (directory : Location) :
    Decidable (s.FitsFrom t directory) :=
  decidable_of_iff (∀ path ∈ s.directories, Text.size path ≤ FileTree.maxPath ∧
      ∀ loc ∈ (t.findDirectory directory path).toOption, EntriesFit t path loc) <| by
    refine forall₂_congr fun path _ => and_congr_right fun _ => forall_congr' fun loc => ?_
    cases t.findDirectory directory path <;> simp [Except.toOption]

instance (s : SearchPath) (name : Text) : Decidable (s.FitsFor name) :=
  inferInstanceAs (Decidable (∀ path ∈ s.directories, _))

/-! ## Listing -/

/-- What is the same for two directories that are the same path, is the same for all directories of
two search paths that are the same. -/
theorem forall₂_of_same {R : Text → Text → Prop} (h : s.same r = true)
    (hR : ∀ p ∈ s.directories, ∀ q ∈ r.directories,
      Path.components p = Path.components q → R p q) :
    List.Forall₂ R s.directories r.directories := by
  rw [same_iff] at h
  generalize s.directories = ps at h hR
  generalize r.directories = qs at h hR
  induction ps generalizing qs with
  | nil =>
      rw [List.map_eq_nil_iff.mp h.symm]
      exact .nil
  | cons p ps ih =>
      obtain ⟨q, qs, rfl⟩ := List.exists_cons_of_ne_nil (l := qs) (by rintro rfl; cases h)
      obtain ⟨hpq, hrest⟩ := List.cons.inj h
      refine .cons (hR p List.mem_cons_self q List.mem_cons_self hpq) (ih qs hrest ?_)
      intro p' hp' q' hq' hpq'
      exact hR p' (List.mem_cons_of_mem p hp') q' (List.mem_cons_of_mem q hq') hpq'

theorem straysIn_eq {loc : Location} (hp : EntriesFit t p loc) (hq : EntriesFit t q loc) :
    straysIn t loc p = straysIn t loc q := by
  refine congrArg (List.map fun x : Stray => Text.decode x.name) (List.filter_congr fun x hx => ?_)
  by_cases hloc : x.directory = loc
  · simp only [isStrayProgram, hp.2 x hx hloc, hq.2 x hx hloc]
  · simp only [hloc, decide_false, Bool.false_and]

/-- **Directories that are the same path** have the same programs. -/
theorem programsIn_eq (h : Path.components p = Path.components q)
    (hp : Text.size p ≤ FileTree.maxPath) (hq : Text.size q ≤ FileTree.maxPath)
    (hentries : ∀ loc, t.findDirectory directory p = .ok loc →
      EntriesFit t p loc ∧ EntriesFit t q loc) :
    programsIn t directory p = programsIn t directory q := by
  have hdirectory := FileTree.findDirectory_eq_ok_iff (t := t) h hp hq directory
  have hread : ∀ loc, t.readDirectory directory p = .ok loc ↔
      t.readDirectory directory q = .ok loc := fun loc => by
    rw [FileTree.readDirectory_eq_ok_iff, FileTree.readDirectory_eq_ok_iff, hdirectory]
  unfold programsIn
  cases hfind : t.readDirectory directory p with
  | error cause =>
      cases hfind' : t.readDirectory directory q with
      | error cause' => rfl
      | ok loc =>
          rw [(hread loc).mpr hfind'] at hfind
          cases hfind
  | ok loc =>
      rw [(hread loc).mp hfind]
      obtain ⟨hfits, hfits'⟩ := hentries loc (FileTree.readDirectory_eq_ok_iff.mp hfind).1
      have hexec : ∀ name ∈ t.children loc, t.isExecutable directory (Path.join p name) =
          t.isExecutable directory (Path.join q name) := fun name hname =>
        FileTree.isExecutable_join_eq h (hfits.1 name hname) (hfits'.1 name hname) directory
      have hnames := List.filter_congr hexec
      exact congrArg₂ (· ++ ·) hnames (straysIn_eq hfits hfits')

/-- **Search paths that are the same list the same names**, each as often. -/
theorem names_eq_of_same (h : s.same r = true) (hs : s.FitsFrom t directory)
    (hr : r.FitsFrom t directory) : s.names t directory = r.names t directory := by
  have hprograms : List.Forall₂ (fun p q => programsIn t directory p = programsIn t directory q)
      s.directories r.directories := by
    refine forall₂_of_same h fun p hp q hq hpq => ?_
    refine programsIn_eq hpq (hs p hp).1 (hr q hq).1 fun loc hloc => ?_
    have hloc' := (FileTree.findDirectory_eq_ok_iff hpq (hs p hp).1 (hr q hq).1 _ _).mp hloc
    exact ⟨(hs p hp).2 loc hloc, (hr q hq).2 loc hloc'⟩
  unfold names
  generalize s.directories = ps at hprograms
  generalize r.directories = qs at hprograms
  induction hprograms with
  | nil => rfl
  | cons hpq _ ih => rw [List.flatMap_cons, List.flatMap_cons, hpq, ih]

/-- Whether the directories, and the entries of a tree seen from them, have paths that are short
enough to be used. -/
def Fits (s : SearchPath) (t : FileTree) : Prop :=
  ∀ path ∈ s.directories, Text.size path ≤ FileTree.maxPath ∧ ∀ loc, EntriesFit t path loc

theorem Fits.fitsFrom (h : s.Fits t) (directory : Location) : s.FitsFrom t directory := by
  intro path hpath
  obtain ⟨hsize, hentries⟩ := h path hpath
  exact ⟨hsize, fun loc _ => hentries loc⟩

/-- **Search paths that are the same have the same names**, if all paths can be used. -/
theorem mem_names_iff_of_same (h : s.same r = true) (hs : s.Fits t) (hr : r.Fits t)
    (directory : Location) (name : Text) :
    name ∈ s.names t directory ↔ name ∈ r.names t directory := by
  rw [names_eq_of_same h (hs.fitsFrom directory) (hr.fitsFrom directory)]

/-- A path with so many `.` behind it. -/
def dotted (path : Text) : Nat → Text
  | 0 => path
  | dots + 1 => dotted path dots ++ Path.slash :: Path.here

theorem components_dotted {path : Text} (h : path ≠ []) (dots : Nat) :
    dotted path dots ≠ [] ∧ Path.components (dotted path dots) = Path.components path := by
  induction dots with
  | zero => exact ⟨h, rfl⟩
  | succ dots ih =>
      obtain ⟨hne, ih⟩ := ih
      refine ⟨List.append_ne_nil_of_left_ne_nil hne _, ?_⟩
      have hnames : Path.names (dotted path (dots + 1)) =
          Path.names (dotted path dots) ++ [Path.here] :=
        Text.split_append_cons Path.slash (dotted path dots) Path.here
      have hsome : Path.names (dotted path dots) ≠ [] := Text.split_ne_nil Path.slash _
      have habs : Path.isAbsolute (dotted path (dots + 1)) =
          Path.isAbsolute (dotted path dots) := by
        rw [Path.isAbsolute, Path.isAbsolute, dotted, List.head?_append_of_ne_nil _ hne]
      have hsteps : (Path.names (dotted path (dots + 1))).filterMap Path.step? =
          (Path.names (dotted path dots)).filterMap Path.step? := by
        rw [hnames, List.filterMap_append]
        simp [Path.step?]
      rw [← ih, Path.components, Path.components, hsteps, habs, hnames,
        List.head?_append_of_ne_nil _ hsome]

theorem size_dotted (path : Text) (dots : Nat) :
    Text.size (dotted path dots) = Text.size path + 2 * dots := by
  induction dots with
  | zero => rfl
  | succ dots ih =>
      have hdot : Text.size (Path.slash :: Path.here) = 2 := by decide
      rw [dotted, Text.size_append, ih, hdot]
      omega

/-- Paths that are too long to be used have no names. -/
theorem names_eq_nil_of_lt (h : ∀ path ∈ s.directories, FileTree.maxPath < Text.size path)
    (t : FileTree) (directory : Location) : s.names t directory = [] := by
  rw [List.eq_nil_iff_forall_not_mem]
  intro name hname
  obtain ⟨path, hpath, hprogram⟩ := (mem_names_iff _ _ _ _).mp hname
  obtain ⟨loc, hread, -⟩ := (mem_programsIn_iff _ _ _ _).mp hprogram
  have hdirectory := (FileTree.readDirectory_eq_ok_iff.mp hread).1
  have hused := ((FileTree.findDirectory_eq_ok_iff_walk _ _ _).mp hdirectory).1
  have hshort := ((FileTree.refusal?_eq_none_iff path).mp hused).2.2
  exact absurd (h path hpath) (Nat.not_lt.mpr hshort)

/-- A tree with one program, `bin/x`. -/
def oneProgram : FileTree :=
  (FileTree.empty.put [text "bin"] .directory).put [text "x", text "bin"] (.file Mode.new .program)

/-- A path that is too long to be used may be the same as one that has names. -/
theorem exists_same_and_names_ne : ∃ s r : SearchPath,
    s.same r = true ∧ s.names oneProgram [] = [text "x"] ∧ r.names oneProgram [] = [] := by
  refine ⟨{ directories := [text "bin"] },
    { directories := [dotted (text "bin") 2047] }, ?_, ?_, ?_⟩
  · have hbin : text "bin" ≠ [] := by decide
    rw [same_iff, List.map_singleton, List.map_singleton, (components_dotted hbin 2047).2]
  · decide
  · refine names_eq_nil_of_lt ?_ _ _
    rw [List.forall_mem_singleton, size_dotted]
    decide

/-! ## Finding -/

/-- What two search paths that are the same find for a name. -/
inductive FoundAlike (t : FileTree) (directory : Location) : Option Text → Option Text → Prop
  /-- Nothing is found on either. -/
  | nothing : FoundAlike t directory none none
  /-- Two paths are found that lead to one file. -/
  | file {p q : Text} {loc : Location} {mode : Mode} {content : Content} :
      t.find directory p = .ok (.file loc mode content) →
      t.find directory q = .ok (.file loc mode content) → mode.mayExecute = true →
      FoundAlike t directory (some p) (some q)

/-- **Search paths that are the same find the same file**, if they find any. -/
theorem foundAlike_of_same (h : s.same r = true) (hs : s.FitsFor name) (hr : r.FitsFor name)
    (t : FileTree) (directory : Location) :
    FoundAlike t directory (s.find? t directory name) (r.find? t directory name) := by
  have hplaces : List.Forall₂ (fun p q => t.find directory (Path.join p name) =
      t.find directory (Path.join q name)) s.directories r.directories := by
    refine forall₂_of_same h fun p hp q hq hpq => ?_
    rw [FileTree.find, FileTree.find, FileTree.locate_join_eq hpq (hs p hp) (hr q hq)]
  unfold find? places
  generalize s.directories = ps at hplaces
  generalize r.directories = qs at hplaces
  induction hplaces with
  | nil => exact .nothing
  | @cons p q ps qs hpq _ ih =>
      have hexec : t.isExecutable directory (Path.join p name) =
          t.isExecutable directory (Path.join q name) := by
        rw [FileTree.isExecutable, FileTree.isExecutable, hpq]
      rw [List.map_cons, List.map_cons, List.find?_cons, List.find?_cons, ← hexec]
      -- a program in the first directory is found on both, else the others are looked at
      cases hp : t.isExecutable directory (Path.join p name) with
      | true =>
          obtain ⟨loc, mode, content, hfile, hmode⟩ := FileTree.exists_file_of_isExecutable hp
          exact .file hfile (hpq ▸ hfile) hmode
      | false => exact ih

/-- **The spelling of a search path makes no difference.** If two search paths are the same, and no
path is too long, the same names are listed as often, what is found for a name is the same file, and
a completer that was built for one of them, which is not rebuilt for the other, offers what it would
offer if it was. -/
theorem spelling_agrees (h : s.same r = true) (hs : s.FitsFrom t directory)
    (hr : r.FitsFrom t directory) :
    (s.names t directory).Perm (r.names t directory) ∧
    (∀ name, s.FitsFor name → r.FitsFor name →
      FoundAlike t directory (s.find? t directory name) (r.find? t directory name)) ∧
    (Completer.build s t directory).refresh r t directory = Completer.build s t directory ∧
    ∀ line cursor, (Completer.build s t directory).complete line cursor =
      (Completer.build r t directory).complete line cursor := by
  have hnames := names_eq_of_same h hs hr
  refine ⟨hnames ▸ List.Perm.refl _, ?_, if_pos h, ?_⟩
  · intro name hname hname'
    exact foundAlike_of_same h hname hname' t directory
  · intro line cursor
    apply Completer.complete_congr
    intro name
    rw [Completer.build, Completer.build, hnames]

/-- Two ways to write a search path: plainly, and with slashes and dots that can be left out. -/
theorem spelling_oneProgram :
    let s : SearchPath := { directories := [text "bin", text "/"] }
    let r : SearchPath := { directories := [text "bin//./", text "//."] }
    s.same r = true ∧ s.FitsFrom oneProgram [] ∧ r.FitsFrom oneProgram [] ∧
      s.FitsFor (text "x") ∧ r.FitsFor (text "x") ∧
      s.names oneProgram [] = [text "x"] ∧
      s.find? oneProgram [] (text "x") = some (text "bin/x") ∧
      (s.names oneProgram []).Perm (r.names oneProgram []) ∧
      FoundAlike oneProgram [] (s.find? oneProgram [] (text "x"))
        (r.find? oneProgram [] (text "x")) := by
  intro s r
  have hsame : s.same r = true := by decide
  have hs : s.FitsFrom oneProgram [] := by decide
  have hr : r.FitsFrom oneProgram [] := by decide
  have hname : s.FitsFor (text "x") := by decide
  have hname' : r.FitsFor (text "x") := by decide
  obtain ⟨hperm, hfound, -⟩ := spelling_agrees hsame hs hr
  exact ⟨hsame, hs, hr, hname, hname', by decide, by decide, hperm, hfound _ hname hname'⟩

end SearchPath

end ParallelShell
