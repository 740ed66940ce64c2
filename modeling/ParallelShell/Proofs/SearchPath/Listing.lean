import ParallelShell.Completion
import ParallelShell.Proofs.Completion.Names
import ParallelShell.Proofs.FileTree.Entry
import ParallelShell.Proofs.Text.Lossy
import ParallelShell.Shell.Command

set_option autoImplicit false

/-! # Listing and finding

A search path is used in two ways. To run a command, its name is joined to one directory after the
other, and the first place with a program is taken; to complete a command, the directories are
read, and their entries listed that are programs. This file says how far the two agree
(`SearchPath.listing_agrees`): a name is listed once for each directory that can be read and in
which it is found. So it is listed exactly if it is found, and a completer knows it exactly if the
shell would carry it out, save for three things (`SearchPath.listing_disagrees`):

* A directory that one may go through need not be readable. Its programs are found, and not listed.
* A file whose name is not UTF-8 is listed under a text, in which U+FFFD stands for what could not
  be decoded. It is not found under that text.
* A completer belongs to the directory in which it was built, and what the shell finds depends on
  the one that is current.

And the empty text has to be left out. It names no directory, and yet a name that is joined to it is
looked for, in the current directory.
-/

namespace ParallelShell

namespace FileTree

/-- **No entry is there twice.** -/
theorem nodup_children (t : FileTree) (loc : Location) : (t.children loc).Nodup := by
  have hdistinct : t.entries.Pairwise fun e e' => e.1 ≠ e'.1 := List.pairwise_map.mp t.distinct
  refine List.Pairwise.filterMap _ ?_ hdistinct
  rintro ⟨l, node⟩ ⟨l', node'⟩ hne a ha b hb rfl
  apply hne
  cases l with
  | nil => cases ha
  | cons name parent =>
      cases l' with
      | nil => cases hb
      | cons name' parent' =>
          simp only [Option.ite_none_right_eq_some, Option.some_inj] at ha hb
          rw [ha.1, ha.2, hb.1, hb.2]

end FileTree

namespace SearchPath

variable {s : SearchPath} {t : FileTree} {directory : Location} {name path : Text}

/-! ## Stray files -/

/-- What is listed of stray files for a directory. -/
def straysOf (t : FileTree) (directory : Location) (path : Text) : List Text :=
  match t.readDirectory directory path with
  | .ok loc => straysIn t loc path
  | .error _ => []

def strays (s : SearchPath) (t : FileTree) (directory : Location) : List Text :=
  s.directories.flatMap (straysOf t directory)

/-- In what stands for a stray file, something has been replaced. -/
theorem replacement_mem_of_mem_strays (h : name ∈ s.strays t directory) : replacement ∈ name := by
  obtain ⟨path, -, hpath⟩ := List.mem_flatMap.mp h
  unfold straysOf at hpath
  split at hpath
  · obtain ⟨x, -, rfl⟩ := List.mem_map.mp hpath
    exact Text.replacement_mem_decode x.isNoText
  · cases hpath

/-! ## What is listed -/

/-- What is found in a directory is one of its entries. -/
theorem mem_children_of_isExecutable (hp : path ≠ []) (hn : Path.IsName name)
    (hexec : t.isExecutable directory (Path.join path name) = true) {loc : Location}
    (hread : t.readDirectory directory path = .ok loc) : name ∈ t.children loc := by
  obtain ⟨loc', hdirectory, hentry⟩ := FileTree.findDirectory_of_isExecutable_join hp hn hexec
  obtain rfl := Except.ok.inj
    (hdirectory.symm.trans (FileTree.readDirectory_eq_ok_iff.mp hread).1)
  exact (FileTree.mem_children_iff _ _ _).mpr hentry

/-- **A name is listed for a directory** once if the directory can be read and the name is found
there, and once more for each stray file that it stands for. -/
theorem count_programsIn (hp : path ≠ []) (hn : Path.IsName name) :
    (programsIn t directory path).count name =
      (if (t.readDirectory directory path).isOk && t.isExecutable directory (Path.join path name)
        then 1 else 0) + (straysOf t directory path).count name := by
  unfold programsIn straysOf
  cases hread : t.readDirectory directory path with
  | error cause => rfl
  | ok loc =>
      have hnodup : ((t.children loc).filter fun name =>
          t.isExecutable directory (Path.join path name)).Nodup := (t.nodup_children loc).filter _
      have hmem : name ∈ ((t.children loc).filter fun name =>
          t.isExecutable directory (Path.join path name)) ↔
            t.isExecutable directory (Path.join path name) = true := by
        rw [List.mem_filter]
        exact and_iff_right_of_imp fun hexec => mem_children_of_isExecutable hp hn hexec hread
      simp only [List.count_append, hnodup.count, hmem, Except.isOk, Except.toBool, Bool.true_and]

/-- **How often a name is listed.** -/
theorem count_names (hs : [] ∉ s.directories) (hn : Path.IsName name) :
    (s.names t directory).count name =
      (s.directories.countP fun d => (t.readDirectory directory d).isOk &&
        t.isExecutable directory (Path.join d name)) + (s.strays t directory).count name := by
  unfold names strays
  generalize s.directories = ds at hs ⊢
  induction ds with
  | nil => rfl
  | cons d ds ih =>
      obtain ⟨hd, hds⟩ := not_or.mp (mt List.mem_cons.mpr hs)
      rw [List.flatMap_cons, List.count_append, ih hds, List.countP_cons, List.flatMap_cons,
        List.count_append, count_programsIn (Ne.symm hd) hn]
      omega

/-- Whether all directories in which a name is found can be read. -/
def IsReadableFor (s : SearchPath) (t : FileTree) (directory : Location) (name : Text) : Prop :=
  ∀ d ∈ s.directories, t.isExecutable directory (Path.join d name) = true →
    (t.readDirectory directory d).isOk = true

/-- A name without U+FFFD is listed once for each directory in which it is found, if these can be
read. -/
theorem count_names_of_isReadableFor (hs : [] ∉ s.directories) (hn : Path.IsName name)
    (htext : replacement ∉ name) (hread : s.IsReadableFor t directory name) :
    (s.names t directory).count name =
      s.directories.countP fun d => t.isExecutable directory (Path.join d name) := by
  have hstrays : (s.strays t directory).count name = 0 :=
    List.count_eq_zero.mpr (mt replacement_mem_of_mem_strays htext)
  rw [count_names hs hn, hstrays, Nat.add_zero]
  refine List.countP_congr fun d hd => ?_
  rw [Bool.and_eq_true]
  exact and_iff_right_of_imp (hread d hd)

theorem isSome_find?_iff (s : SearchPath) (t : FileTree) (directory : Location) (name : Text) :
    (s.find? t directory name).isSome = true ↔
      ∃ d ∈ s.directories, t.isExecutable directory (Path.join d name) = true := by
  rw [find?, places, List.find?_isSome]
  simp

/-- **What is listed is what is found**, of such names. -/
theorem mem_names_iff_isSome_find? (hs : [] ∉ s.directories) (hn : Path.IsName name)
    (htext : replacement ∉ name) (hread : s.IsReadableFor t directory name) :
    name ∈ s.names t directory ↔ (s.find? t directory name).isSome = true := by
  rw [← List.count_pos_iff, count_names_of_isReadableFor hs hn htext hread, List.countP_pos_iff,
    isSome_find?_iff]

end SearchPath

theorem Completer.mem_names_build_iff {s : SearchPath} {t : FileTree} {directory : Location}
    {name : Text} : name ∈ (Completer.build s t directory).names ↔
      BuiltIn.ofName? name ≠ none ∨ name ∈ s.names t directory := by
  have hbuiltIn : name ∈ BuiltIn.all.map BuiltIn.name ↔ BuiltIn.ofName? name ≠ none := by
    rw [List.mem_map, Option.ne_none_iff_exists']
    simp only [BuiltIn.ofName?_eq_some_iff]
    constructor
    · rintro ⟨b, -, hb⟩
      exact ⟨b, hb⟩
    · rintro ⟨b, hb⟩
      exact ⟨b, by cases b <;> decide, hb⟩
  show name ∈ BuiltIn.all.map BuiltIn.name ++ s.names t directory ↔ _
  rw [List.mem_append, hbuiltIn]

/-- A name means something to a shell if it is found, or is that of a built-in. -/
theorem Shell.meaning_ne_unknown_iff {s : Shell} {name : Text} : s.meaning name ≠ .unknown ↔
    BuiltIn.ofName? name ≠ none ∨
      (s.searchPath.find? s.system.tree s.system.directory name).isSome = true := by
  show _ ↔ _ ∨ (s.program? name).isSome = true
  unfold meaning
  cases s.program? name with
  | some path => simp
  | none =>
      cases BuiltIn.ofName? name with
      | some b => simp
      | none => simp

namespace SearchPath

/-- **How far listing and finding agree** on a name that an entry can have. What is found is the
place of the name in the first directory in which it is a program. It is listed as often as there
are directories that can be read and in which it is a program, and once more for each stray file
that it stands for, of which there is none unless U+FFFD is in the name. A completer that has just
been built knows what is listed, and the built-ins.

So if all the directories in which the name is found can be read, and U+FFFD is not in it, it is
listed exactly if it is found, as often as there are directories in which it is found; and a
completer that has just been built knows it exactly if the shell would carry it out. -/
theorem listing_agrees {s : SearchPath} {name : Text} (hs : [] ∉ s.directories)
    (hn : Path.IsName name) (t : FileTree) (directory : Location) :
    (∀ path, s.find? t directory name = some path ↔ ∃ before d after,
      s.directories = before ++ d :: after ∧ path = Path.join d name ∧
      t.isExecutable directory path = true ∧
      ∀ e ∈ before, t.isExecutable directory (Path.join e name) = false) ∧
    (s.names t directory).count name =
      (s.directories.countP fun d => (t.readDirectory directory d).isOk &&
        t.isExecutable directory (Path.join d name)) + (s.strays t directory).count name ∧
    (replacement ∉ name → (s.strays t directory).count name = 0) ∧
    (name ∈ (Completer.build s t directory).names ↔
      BuiltIn.ofName? name ≠ none ∨ name ∈ s.names t directory) ∧
    (replacement ∉ name → s.IsReadableFor t directory name →
      (name ∈ s.names t directory ↔ (s.find? t directory name).isSome = true) ∧
      (s.names t directory).count name =
        s.directories.countP (fun d => t.isExecutable directory (Path.join d name)) ∧
      ∀ sh : Shell, sh.searchPath = s → sh.system.tree = t → sh.system.directory = directory →
        (name ∈ (Completer.build s t directory).names ↔ sh.meaning name ≠ .unknown)) := by
  refine ⟨fun path => find?_eq_some_iff, count_names hs hn, fun htext => ?_,
    Completer.mem_names_build_iff, fun htext hread => ?_⟩
  · exact List.count_eq_zero.mpr (mt replacement_mem_of_mem_strays htext)
  · have hlisted := mem_names_iff_isSome_find? hs hn htext hread
    refine ⟨hlisted, count_names_of_isReadableFor hs hn htext hread, ?_⟩
    rintro sh rfl rfl rfl
    rw [Completer.mem_names_build_iff, Shell.meaning_ne_unknown_iff, hlisted]

/-- A tree with a program `bin/x`, a link `bin/y` to it, a link `bin/z` to itself, a link `lib` to
the directory, and a program `shut/w`. The directory `shut` cannot be read, and there is one more
program in `bin`, with the name 0xFF. -/
def linked : FileTree :=
  let t := FileTree.empty
    |>.put [text "bin"] .directory
    |>.put [text "x", text "bin"] (.file Mode.new .program)
    |>.put [text "y", text "bin"] (.link (text "x"))
    |>.put [text "z", text "bin"] (.link (text "z"))
    |>.put [text "lib"] (.link (text "bin"))
    |>.put [text "shut"] .directory
    |>.put [text "w", text "shut"] (.file Mode.new .program)
  { t with sight := {
    closed := [[text "shut"]]
    strays := [{ directory := [text "bin"], name := [0xFF], mode := Mode.new, isNoText := rfl }] } }

/-- A search path with a directory that is not there, one that is a file, one that is there three
times, and one that cannot be read. -/
def repeated : SearchPath :=
  { directories := [text "none", text "lib", text "bin/x", text "bin/", text "./bin", text "shut"] }

/-- The link to the program is listed three times, and found in the first of the three. The link to
itself is not listed, and neither is what is in the directory that cannot be read. The program with
the name 0xFF is listed three times. -/
theorem listing_linked :
    [] ∉ repeated.directories ∧ Path.IsName (text "y") ∧ replacement ∉ text "y" ∧
      repeated.IsReadableFor linked [] (text "y") ∧
      (repeated.names linked []).count (text "y") = 3 ∧
      repeated.find? linked [] (text "y") = some (text "lib/y") ∧
      (repeated.names linked []).count (text "z") = 0 ∧
      (repeated.names linked []).count (text "w") = 0 ∧
      (repeated.names linked []).count [replacement] = 3 := by
  have hs : [] ∉ repeated.directories := by decide
  have hy : Path.IsName (text "y") := by decide
  have hz : Path.IsName (text "z") := by decide
  have hw : Path.IsName (text "w") := by decide
  have hreplaced : Path.IsName [replacement] := by decide
  have htext : replacement ∉ text "y" := by decide
  have hread : repeated.IsReadableFor linked [] (text "y") := by
    unfold IsReadableFor
    decide
  obtain ⟨hfind, -, -, -, hagree⟩ := listing_agrees hs hy linked []
  obtain ⟨-, hz, -⟩ := listing_agrees hs hz linked []
  obtain ⟨-, hw, -⟩ := listing_agrees hs hw linked []
  obtain ⟨-, hreplaced, -⟩ := listing_agrees hs hreplaced linked []
  refine ⟨hs, hy, htext, hread, ?_, (hfind _).mpr ⟨[text "none"], text "lib", _, rfl, ?_, ?_, ?_⟩,
    ?_, ?_, ?_⟩
  · rw [(hagree htext hread).2.1]
    decide
  · decide
  · decide
  · decide
  · rw [hz]
    decide
  · rw [hw]
    decide
  · rw [hreplaced]
    decide

/-- A shell in `sub`, with the search path `bin`. There is a program `bin/aa`, and in `sub` there is
a program `bin/ab`. -/
def inSub : Shell where
  system := {
    tree := FileTree.empty
      |>.put [text "bin"] .directory
      |>.put [text "aa", text "bin"] (.file Mode.new .program)
      |>.put [text "sub"] .directory
      |>.put [text "bin", text "sub"] .directory
      |>.put [text "ab", text "bin", text "sub"] (.file Mode.new .program)
    directory := [text "sub"]
    running := []
    supply := .available
    programPath := [] }
  searchPath := { directories := [text "bin"] }

/-- **Where listing and finding disagree.** A program in a directory that cannot be read is found,
and not listed. What stands for the name 0xFF is listed, and not found. And a completer that was
built before the shell went to `sub`, and has been brought up to date there, does not know the
program that the shell would start, but one that means nothing to the shell. -/
theorem listing_disagrees :
    ([] ∉ repeated.directories ∧ Path.IsName (text "w") ∧
      (repeated.find? linked [] (text "w")).isSome = true ∧
        text "w" ∉ repeated.names linked []) ∧
    (Path.IsName [replacement] ∧ (repeated.find? linked [] [replacement]).isSome = false ∧
      [replacement] ∈ repeated.names linked []) ∧
    let before := Completer.build inSub.searchPath inSub.system.tree []
    let completer := before.refresh inSub.searchPath inSub.system.tree inSub.system.directory
    inSub.meaning (text "ab") = .program (text "bin/ab") ∧ text "ab" ∉ completer.names ∧
      inSub.meaning (text "aa") = .unknown ∧ text "aa" ∈ completer.names := by
  decide +kernel

end SearchPath

end ParallelShell
