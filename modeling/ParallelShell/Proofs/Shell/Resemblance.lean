import ParallelShell.Proofs.Shell.Content

set_option autoImplicit false

/-! # Shells that differ in files that are not executed

When a command fails, its target may have been emptied, and written to. A shell that has never seen
this command has another file there, perhaps with another mode: a write takes away the mark for the
rights of the owner. `Shell.Resembles W` relates two such shells. All that matters of the files of
`W` is their rights, and these are the same; what they hold matters only to a start that opens one
of them for execution (`Shell.executes`).

So targets are opened alike (`openTarget_resembles`), and commands are carried out alike if no file
of `W` is executed (`carryOut_resembles`).
-/

namespace ParallelShell

variable {W : Location → Prop}

/-- The files that a start opens for execution: of those it looks into, the ones that may be
executed, and are not open for writing. -/
def System.executedFiles (s : System) (path : Text) (arguments : List Text) (into : Destination) :
    List Location :=
  (s.startFiles path arguments into).filter
    (Image.mayOpen s.tree fun loc => into = .file loc || s.isWritten loc)

/-- A file that is there is emptied, and keeps its mode but for some marks. -/
theorem System.openFile_of_node? {s s' : System} {path : Text} {loc : Location} {mode : Mode}
    {content : Content} (h : s.openFile path = .ok (s', .file loc))
    (hn : s.tree.node? loc = some (.file mode content)) :
    s' = { s with tree := s.tree.put loc (.file mode.afterWrite (.octets [])) } := by
  unfold openFile at h
  split at h
  · cases h
  · cases h
  · cases h
  · rename_i directory name hl
    -- the place was not free
    have hfree : s.tree.node? (name :: directory) = none := FileTree.stands_of_locate hl
    obtain ⟨-, hloc⟩ := Prod.mk.inj (Except.ok.inj h)
    obtain rfl := Destination.file.inj hloc
    cases hfree.symm.trans hn
  · rename_i l m c hl
    have hstands : s.tree.node? l = some (.file m c) := FileTree.stands_of_locate hl
    split at h
    · cases h
    split at h
    · cases h
    obtain ⟨rfl, hloc⟩ := Prod.mk.inj (Except.ok.inj h)
    obtain rfl := Destination.file.inj hloc
    obtain ⟨rfl, -⟩ := Node.file.inj (Option.some.inj (hstands.symm.trans hn))
    rfl

namespace Shell

/-- The files that are opened for execution to carry out a command: the file of its program, if its
name stands for one, and those of the interpreters of scripts. -/
def executes (s : Shell) (c : Command) (into : Destination) : List Location :=
  match s.meaning c.name with
  | .program path => s.system.executedFiles path (c.name :: c.operands) into
  | _ => []

/-- **The same but for files of `W`**, which have the same rights. -/
structure Resembles (W : Location → Prop) (s t : Shell) : Prop where
  searchPath : s.searchPath = t.searchPath
  directory : s.system.directory = t.system.directory
  supply : s.system.supply = t.system.supply
  programPath : s.system.programPath = t.system.programPath
  running : s.system.running = t.system.running
  tree : FileTree.AlikeBut Mode.rights W s.system.tree t.system.tree

variable {s t : Shell}

theorem Resembles.refl (W : Location → Prop) (s : Shell) : Resembles W s s :=
  ⟨rfl, rfl, rfl, rfl, rfl, .refl _ _ _⟩

theorem Resembles.withRunning (h : Resembles W s t) (launch : Launch) :
    Resembles W (s.withRunning launch) (t.withRunning launch) :=
  { h with running := congrArg (launch :: ·) h.running }

theorem Resembles.ended (h : Resembles W s t) (launch : Launch) :
    Resembles W (s.ended launch) (t.ended launch) :=
  { h with running := congrArg (List.erase · launch) h.running }

theorem Resembles.meaning (h : Resembles W s t) (name : Text) :
    s.meaning name = t.meaning name := by
  unfold Shell.meaning program?
  rw [h.searchPath, h.directory,
    SearchPath.find?_eq (h.tree.isExecutable_eq Mode.tells_rights _)]

/-- In one of the shells the notice may be written into a file of `W`. -/
theorem Resembles.notify_right (h : Resembles W s t) {into : Destination}
    (hinto : ∀ loc, into = .file loc → W loc) : Resembles W s (t.notify into) := by
  cases into with
  | inherited => exact h
  | device d => exact h
  | file loc =>
      exact { h with tree := (h.tree.symm.writeAt_left (hinto loc rfl) 0 Fault.notice).symm }

/-- **A target is opened alike.** -/
theorem openTarget_resembles (h : Resembles W s t) (target : Option Text) :
    Agree (fun a b => Resembles W a.1 b.1 ∧ a.2 = b.2) (s.openTarget target)
      (t.openTarget target) := by
  cases target with
  | none => exact .ok ⟨h, rfl⟩
  | some path =>
      have hexec : ∀ loc, s.system.isExecuted loc = t.system.isExecuted loc := fun loc => by
        rw [System.isExecuted, System.isExecuted, h.running]
      have hput : Agree (System.PutAlike Mode.rights W s.system t.system)
          (s.system.openFile path) (t.system.openFile path) :=
        System.openFile_alikeBut h.tree Mode.tells_rights h.directory fun loc _ => hexec loc
      simp only [openTarget]
      generalize s.system.openFile path = a at hput ⊢
      generalize t.system.openFile path = b at hput ⊢
      cases hput with
      | error cause => exact .error _
      | ok hab =>
          obtain ⟨htree, ha, hb, hinto⟩ := hab
          refine .ok ⟨?_, hinto⟩
          rw [ha, hb]
          exact { h with tree := htree }

/-- A target may be opened in one of the shells, if it leads to a file of `W`, or to no file. -/
theorem Resembles.openTarget_right (h : Resembles W s t) {t' : Shell} {target : Option Text}
    {into : Destination} (ho : t.openTarget target = .ok (t', into))
    (hw : ∀ loc, into = .file loc →
      W loc ∧ ∃ mode content, t.system.tree.node? loc = some (.file mode content)) :
    Resembles W s t' := by
  cases target with
  | none =>
      obtain ⟨rfl, -⟩ := Prod.mk.inj (Except.ok.inj ho)
      exact h
  | some path =>
      simp only [openTarget] at ho
      split at ho
      · cases ho
      · rename_i hopen
        obtain ⟨rfl, rfl⟩ := Prod.mk.inj (Except.ok.inj ho)
        rcases System.openFile_eq_ok hopen with ⟨_, _, _, _, rfl⟩ | ⟨loc, _, _, rfl, _⟩
        · exact h
        · obtain ⟨hloc, mode, content, hn⟩ := hw loc rfl
          obtain rfl := System.openFile_of_node? hopen hn
          exact { h with
            tree := (h.tree.symm.replace hloc hn (Mode.rights_afterWrite mode) _).symm }

/-- A command is carried out alike, if starting its program comes to the same. -/
theorem carryOut_agree (h : Resembles W s t) {c : Command} {into : Destination}
    (hstart : ∀ path, t.meaning c.name = .program path →
      s.system.start path (c.name :: c.operands) into =
        t.system.start path (c.name :: c.operands) into) :
    Agree (fun a b => Resembles W a.1 b.1 ∧ a.2 = b.2) (s.carryOut c into)
      (t.carryOut c into) := by
  unfold carryOut
  rw [h.meaning]
  split
  · rename_i path hm
    exact startProgram_agree (congrArg Supply.copying h.supply) (hstart path hm) fun launch _ =>
      h.withRunning launch
  · refine runBuiltIn_agree h (fun path => ?_) (fun _ => { h with directory := rfl })
      (fun _ => { h with searchPath := rfl }) _ _
    rw [h.directory, h.tree.findDirectory_eq]
  · exact .error _

theorem Resembles.isWritten_eq (h : Resembles W s t) :
    s.system.isWritten = t.system.isWritten := by
  funext loc
  rw [System.isWritten, System.isWritten, h.running]

/-- **A command is carried out alike**, if no file of `W` is executed. -/
theorem carryOut_resembles (h : Resembles W s t) {c : Command} {into : Destination}
    (hf : ∀ loc ∈ t.executes c into, ¬ W loc) :
    Agree (fun a b => Resembles W a.1 b.1 ∧ a.2 = b.2) (s.carryOut c into)
      (t.carryOut c into) := by
  refine carryOut_agree h fun path hm => ?_
  simp only [executes, hm] at hf
  let isWritten := fun loc => decide (into = .file loc) || t.system.isWritten loc
  have hopens : Image.OpensAlike t.system.tree s.system.tree t.system.directory isWritten
      (fun loc => into = .file loc || s.system.isWritten loc)
      fun loc => W loc ∧ Image.mayOpen t.system.tree isWritten loc = true := by
    rw [h.isWritten_eq]
    exact Image.opensAlike_of_alikeBut h.tree.symm Mode.tells_rights
  have hrefusal : s.system.supply.refusal? s.system.running.length =
      t.system.supply.refusal? t.system.running.length := by rw [h.supply, h.running]
  refine System.start_eq h.directory hrefusal h.programPath hopens ?_
  rintro loc hloc ⟨hw, hopen⟩
  exact hf loc (List.mem_filter.mpr ⟨hloc, hopen⟩) hw

end Shell

end ParallelShell
