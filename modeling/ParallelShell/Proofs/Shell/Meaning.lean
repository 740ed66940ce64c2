import ParallelShell.Proofs.FileTree.Put
import ParallelShell.Proofs.Shell.Commands
import ParallelShell.Shell.Line

set_option autoImplicit false

/-! # What a redirection does to the meaning of a name

The target of a command is opened before its name is given a meaning, and the two steps see the same
file tree. A file that is there already is emptied, and keeps the right to be executed or the lack
of it; so no name changes its meaning. A file that is not there is created, and it may be executed.
If that happens where the name of the command itself is looked for, and no program is found before,
then the new file is the program that the name now leads to: `exit > bin/exit`, with the search path
`bin`, does not exit.

`Shell.Shadowed` says when this is the case, and `meaning_of_openTarget` that nothing else happens.
-/

namespace ParallelShell

namespace Shell

def created? (s : Shell) (target : Option Text) : Option Location :=
  match target with
  | none => none
  | some path =>
    match s.system.tree.locate true s.system.directory path with
    | .ok (.absent directory name) => some (name :: directory)
    | _ => none

/-- Whether a place leads to the file that opening a target creates. -/
def leadsToCreated (s : Shell) (target : Option Text) (path : Text) : Bool :=
  match s.created? target with
  | none => false
  | some loc => s.system.tree.leadsToFree s.system.directory path loc

/-- **A command shadowed by its own target**: of the places where its name is looked for, this one
leads to the file that opening its target creates, and none before leads there or to a program. -/
def Shadowed (s : Shell) (c : Command) (path : Text) : Prop :=
  s.leadsToCreated c.target path = true ∧
    ∃ before after, s.searchPath.places c.name = before ++ path :: after ∧
      ∀ q ∈ before, s.system.tree.isExecutable s.system.directory q = false ∧
        s.leadsToCreated c.target q = false

variable {s s' : Shell} {c : Command} {into : Destination}

/-- **What opening a target does to the places where programs are looked for.** -/
theorem isExecutable_of_openTarget {target : Option Text}
    (h : s.openTarget target = .ok (s', into)) (path : Text) :
    s'.system.tree.isExecutable s.system.directory path =
      (s.system.tree.isExecutable s.system.directory path || s.leadsToCreated target path) := by
  cases target with
  | none =>
      simp only [openTarget, Except.ok.injEq, Prod.mk.injEq] at h
      obtain ⟨rfl, -⟩ := h
      simp [leadsToCreated, created?]
  | some target =>
      simp only [openTarget, System.openFile] at h
      unfold leadsToCreated created?
      cases hl : s.system.tree.locate true s.system.directory target with
      | error cause =>
          simp only [hl] at h
          cases h
      | ok found =>
          have hstands := FileTree.stands_of_locate hl
          simp only [hl] at h ⊢
          cases found with
          | directory loc => cases h
          | device loc device =>
              obtain ⟨rfl, -⟩ := Prod.mk.inj (Except.ok.inj h)
              exact (Bool.or_false _).symm
          | absent directory name =>
              obtain ⟨rfl, -⟩ := Prod.mk.inj (Except.ok.inj h)
              have hnew : Mode.mayExecute .new = true := by decide
              exact FileTree.isExecutable_put_free (List.cons_ne_nil _ _) hstands hnew _ path
          | file loc mode content =>
              -- the file is there already: if it can be opened, only what it holds changes
              by_cases hw : mode.mayWrite = true
              · by_cases hx : s.system.isExecuted loc = true
                · simp only [hw, hx, Bool.not_true, Bool.false_eq_true, if_false, if_true] at h
                  cases h
                · simp only [hw, hx, Bool.not_true, Bool.false_eq_true, if_false] at h
                  obtain ⟨rfl, -⟩ := Prod.mk.inj (Except.ok.inj h)
                  refine Eq.trans ?_ (Bool.or_false _).symm
                  exact FileTree.isExecutable_put_file hstands mode.mayExecute_afterWrite _ path
              · simp only [hw, Bool.not_false, if_true] at h
                cases h

theorem program?_of_openTarget {target : Option Text} (h : s.openTarget target = .ok (s', into))
    (name : Text) :
    s'.program? name = (s.searchPath.places name).find? fun path =>
      s.system.tree.isExecutable s.system.directory path || s.leadsToCreated target path := by
  obtain ⟨hsearch, hdir⟩ := searchPath_of_openTarget h
  have hexec : s'.system.tree.isExecutable s.system.directory = fun path =>
      s.system.tree.isExecutable s.system.directory path || s.leadsToCreated target path :=
    funext (isExecutable_of_openTarget h)
  rw [program?, SearchPath.find?, hsearch, hdir, hexec]

/-- **What a redirection does to the meaning of a name.** Whatever the shell, opening the target of
a command leaves its name the meaning it has without the redirection, unless that creates a file
which the name leads to before it leads to a program. Then the name means that file. -/
theorem meaning_of_openTarget (h : s.openTarget c.target = .ok (s', into)) :
    ((∀ path, ¬ s.Shadowed c path) → s'.meaning c.name = s.meaning c.name) ∧
      ∀ path, s.Shadowed c path → s'.meaning c.name = .program path := by
  have hprogram := program?_of_openTarget h c.name
  constructor
  · intro hnone
    have hsame : s'.program? c.name = s.program? c.name := by
      rw [hprogram, program?, SearchPath.find?]
      cases hfind : (s.searchPath.places c.name).find? fun path =>
          s.system.tree.isExecutable s.system.directory path || s.leadsToCreated c.target path with
      | none =>
          symm
          rw [List.find?_eq_none] at hfind ⊢
          intro path hpath hexec
          exact hfind path hpath (by rw [hexec, Bool.true_or])
      | some path =>
          obtain ⟨hpath, before, after, hplaces, hbefore⟩ := List.find?_eq_some_iff_append.mp hfind
          have hclear : ∀ q ∈ before, s.system.tree.isExecutable s.system.directory q = false ∧
              s.leadsToCreated c.target q = false := by
            intro q hq
            simpa using hbefore q hq
          -- the first place to lead to something leads to a program, or shadows the command
          rcases Bool.or_eq_true_iff.mp hpath with hexec | hnew
          · symm
            rw [List.find?_eq_some_iff_append]
            exact ⟨hexec, before, after, hplaces, fun q hq => by simp [(hclear q hq).1]⟩
          · exact absurd ⟨hnew, before, after, hplaces, hclear⟩ (hnone path)
    unfold meaning
    rw [hsame]
  · rintro path ⟨hnew, before, after, hplaces, hclear⟩
    have hfound : s'.program? c.name = some path := by
      rw [hprogram, List.find?_eq_some_iff_append]
      refine ⟨by rw [hnew, Bool.or_true], before, after, hplaces, ?_⟩
      intro q hq
      simp [hclear q hq]
    unfold meaning
    rw [hfound]

/-! ## A command that is shadowed -/

/-- The shell that some lines have left, one after the other. -/
def afterLines (s : Shell) (lines : List Text) : Shell :=
  lines.foldl (fun s line => (s.runLine line).shell) s

def bareBin : System where
  tree := FileTree.empty.put [text "bin"] .directory
  directory := []
  running := []
  supply := .available
  programPath := []

def overBin : Shell := afterLines { system := bareBin, searchPath := .standard } [text "path bin"]

def exitIntoBin : Command where
  name := text "exit"
  operands := []
  target := some (text "bin/exit")

/-- Here the name of a built-in means a program once the target has been opened. -/
theorem meaning_exitIntoBin : ∃ s' into, overBin.openTarget exitIntoBin.target = .ok (s', into) ∧
    s'.meaning exitIntoBin.name = .program (text "bin/exit") := by
  have hshadowed : overBin.Shadowed exitIntoBin (text "bin/exit") :=
    ⟨by decide, [], [], by decide, by simp⟩
  have hopen : (overBin.openTarget exitIntoBin.target).isOk = true := by decide
  cases h : overBin.openTarget exitIntoBin.target with
  | error fault =>
      rw [h] at hopen
      cases hopen
  | ok x => exact ⟨x.1, x.2, rfl, (meaning_of_openTarget h).2 _ hshadowed⟩

/-- **A redirection may change what a command is**, and the shell can be brought to this by its own
lines. -/
theorem not_forall_meaning_eq :
    ¬ ∀ (system : System) (lines : List Text) (c : Command) (s' : Shell) (into : Destination),
      (afterLines { system, searchPath := .standard } lines).openTarget c.target =
          .ok (s', into) →
        s'.meaning c.name =
          (afterLines { system, searchPath := .standard } lines).meaning c.name := by
  intro h
  have hsame := h bareBin [text "path bin"] exitIntoBin _ _ rfl
  exact absurd hsame (by decide)

end Shell

end ParallelShell
