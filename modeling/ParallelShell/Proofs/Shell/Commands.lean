import ParallelShell.Proofs.FileTree.Content
import ParallelShell.Shell.Line

set_option autoImplicit false

/-! # Commands in a row

What each step of a command can do is said once, here, and so is how commands in a row go on.

* **Opening a target** leaves everything but the tree alone, and puts at most one empty file into
  it (`openTarget_eq_ok`).
* **Carrying out** a command leaves the tree alone; it adds a running program, changes the current
  directory or the search path, or changes nothing (`carryOut_eq_ok`).
* **A command** either stops the line (`Outcome.stop?`) or hands the shell on to the next one, and
  at most one event comes of it (`Outcome.event?`): `runCommands_cons`.
* `Shell.reached` lists the commands that are reached, each with the shell it finds. Commands in a
  row that come in two parts are run, and reached, part after part (`runCommands_append`,
  `reached_append`).
* **Of the system**, a line changes the nodes of the tree, the current directory and the list of the
  programs that are running, and nothing else (`sameGround_runLine`).
-/

namespace ParallelShell

/-! ## What the steps can do -/

namespace System

/-- The file that an output target names, whether it can be opened or not: one that is there, or
one that would be created. -/
def targetFile? (s : System) (path : Text) : Option Location :=
  match s.tree.locate true s.directory path with
  | .ok (.file loc _ _) => some loc
  | .ok (.absent directory name) => some (name :: directory)
  | _ => none

/-- At a place that a target names there is a file, or nothing yet. -/
theorem node?_of_targetFile? {s : System} {path : Text} {loc : Location}
    (h : s.targetFile? path = some loc) :
    loc ≠ [] ∧ (s.tree.node? loc = none ∨
      ∃ mode content, s.tree.node? loc = some (.file mode content)) := by
  unfold targetFile? at h
  split at h
  · rename_i hl
    have hn := FileTree.stands_of_locate hl
    obtain rfl := Option.some.inj h
    exact ⟨FileTree.ne_nil_of_node?_file hn, Or.inr ⟨_, _, hn⟩⟩
  · rename_i hl
    obtain rfl := Option.some.inj h
    exact ⟨List.cons_ne_nil _ _, Or.inl (FileTree.stands_of_locate hl)⟩
  · cases h

/-- The system with an empty file put somewhere. -/
def withEmptyFile (s : System) (loc : Location) (mode : Mode) : System :=
  { s with tree := s.tree.put loc (.file mode (.octets [])) }

/-- **What opening a file can do**: nothing, if there is a device; otherwise it puts an empty file
where the path leads, and that is a place that was free, or the file that was there. -/
theorem openFile_cases {s s' : System} {path : Text} {into : Destination}
    (h : s.openFile path = .ok (s', into)) :
    (∃ loc device, s.tree.locate true s.directory path = .ok (.device loc device) ∧
        into = .device device ∧ s' = s) ∨
      (∃ directory name, s.tree.locate true s.directory path = .ok (.absent directory name) ∧
        into = .file (name :: directory) ∧ s' = s.withEmptyFile (name :: directory) .new) ∨
      ∃ loc mode content, s.tree.locate true s.directory path = .ok (.file loc mode content) ∧
        into = .file loc ∧ s' = s.withEmptyFile loc mode.afterWrite := by
  unfold openFile at h
  split at h
  · cases h
  · cases h
  · rename_i loc device hl
    obtain ⟨rfl, rfl⟩ := Prod.mk.inj (Except.ok.inj h)
    exact Or.inl ⟨loc, device, hl, rfl, rfl⟩
  · rename_i directory name hl
    obtain ⟨rfl, rfl⟩ := Prod.mk.inj (Except.ok.inj h)
    exact Or.inr (Or.inl ⟨directory, name, hl, rfl, rfl⟩)
  · rename_i loc mode content hl
    split at h
    · cases h
    split at h
    · cases h
    obtain ⟨rfl, rfl⟩ := Prod.mk.inj (Except.ok.inj h)
    exact Or.inr (Or.inr ⟨loc, mode, content, hl, rfl, rfl⟩)

theorem openFile_eq_ok {s s' : System} {path : Text} {into : Destination}
    (h : s.openFile path = .ok (s', into)) :
    (∃ loc device, s.tree.locate true s.directory path = .ok (.device loc device) ∧
        into = .device device ∧ s' = s) ∨
      ∃ loc mode, s.targetFile? path = some loc ∧ into = .file loc ∧
        s' = { s with tree := s.tree.put loc (.file mode (.octets [])) } := by
  unfold targetFile?
  rcases openFile_cases h with hdevice | ⟨directory, name, hl, hinto, hs⟩ |
    ⟨loc, mode, content, hl, hinto, hs⟩
  · exact Or.inl hdevice
  · exact Or.inr ⟨name :: directory, .new, by rw [hl], hinto, hs⟩
  · exact Or.inr ⟨loc, mode.afterWrite, by rw [hl], hinto, hs⟩

end System

namespace Shell

/-- The shell with an empty file put somewhere. -/
def withEmptyFile (s : Shell) (loc : Location) (mode : Mode) : Shell :=
  { s with system := { s.system with tree := s.system.tree.put loc (.file mode (.octets [])) } }

/-- **What opening a target can do.** -/
theorem openTarget_eq_ok {s s' : Shell} {target : Option Text} {into : Destination}
    (h : s.openTarget target = .ok (s', into)) :
    (target = none ∧ into = .inherited ∧ s' = s) ∨
      (∃ path loc device, target = some path ∧
        s.system.tree.locate true s.system.directory path = .ok (.device loc device) ∧
        into = .device device ∧ s' = s) ∨
      ∃ path loc mode, target = some path ∧ s.system.targetFile? path = some loc ∧
        into = .file loc ∧ s' = s.withEmptyFile loc mode := by
  cases target with
  | none =>
      obtain ⟨rfl, rfl⟩ := Prod.mk.inj (Except.ok.inj h)
      exact Or.inl ⟨rfl, rfl, rfl⟩
  | some path =>
      simp only [openTarget] at h
      split at h
      · cases h
      · rename_i ho
        obtain ⟨rfl, rfl⟩ := Prod.mk.inj (Except.ok.inj h)
        rcases System.openFile_eq_ok ho with ⟨loc, device, hl, rfl, rfl⟩ | ⟨loc, mode, hf, rfl, rfl⟩
        · exact Or.inr (Or.inl ⟨path, loc, device, rfl, hl, rfl, rfl⟩)
        · exact Or.inr (Or.inr ⟨path, loc, mode, rfl, hf, rfl, rfl⟩)

/-- **A target that has been opened as a file** was free or a file before, and is an empty file
now. -/
theorem openTarget_eq_ok_file {s s' : Shell} {target : Option Text} {loc : Location}
    (h : s.openTarget target = .ok (s', .file loc)) : ∃ path mode, target = some path ∧
      s'.system = s.system.withEmptyFile loc mode ∧
      ((∃ directory name,
          s.system.tree.locate true s.system.directory path = .ok (.absent directory name) ∧
          loc = name :: directory ∧ mode = .new) ∨
        ∃ old content,
          s.system.tree.locate true s.system.directory path = .ok (.file loc old content) ∧
          mode = old.afterWrite) := by
  cases target with
  | none => cases h
  | some path =>
      simp only [openTarget] at h
      split at h
      · cases h
      · rename_i ho
        obtain ⟨rfl, rfl⟩ := Prod.mk.inj (Except.ok.inj h)
        rcases System.openFile_cases ho with ⟨_, _, -, hinto, -⟩ |
          ⟨directory, name, hl, hinto, hs⟩ | ⟨_, old, content, hl, hinto, hs⟩
        · cases hinto
        · obtain rfl := Destination.file.inj hinto
          exact ⟨path, .new, rfl, hs, Or.inl ⟨directory, name, hl, rfl, rfl⟩⟩
        · obtain rfl := Destination.file.inj hinto
          exact ⟨path, old.afterWrite, rfl, hs, Or.inr ⟨old, content, hl, rfl⟩⟩

/-- What goes wrong with a target says so. -/
theorem openTarget_eq_error {s : Shell} {target : Option Text} {fault : Fault}
    (h : s.openTarget target = .error fault) :
    ∃ path cause, target = some path ∧ fault = .openTarget path cause := by
  cases target with
  | none => cases h
  | some path =>
      simp only [openTarget] at h
      split at h
      · rename_i cause _
        exact ⟨path, cause, rfl, (Except.error.inj h).symm⟩
      · cases h

/-- Of the shell, opening a target changes the tree and nothing else. -/
theorem exists_tree_of_openTarget {s s' : Shell} {target : Option Text} {into : Destination}
    (h : s.openTarget target = .ok (s', into)) :
    ∃ tree, s' = { s with system := { s.system with tree } } := by
  rcases openTarget_eq_ok h with ⟨-, -, rfl⟩ | ⟨_, _, _, -, -, -, rfl⟩ | ⟨_, _, _, -, -, -, rfl⟩
  · exact ⟨s'.system.tree, rfl⟩
  · exact ⟨s'.system.tree, rfl⟩
  · exact ⟨_, rfl⟩

theorem searchPath_of_openTarget {s s' : Shell} {target : Option Text} {into : Destination}
    (h : s.openTarget target = .ok (s', into)) :
    s'.searchPath = s.searchPath ∧ s'.system.directory = s.system.directory := by
  obtain ⟨tree, rfl⟩ := exists_tree_of_openTarget h
  exact ⟨rfl, rfl⟩

/-- A target that cannot be copied makes the same fault as one that cannot be opened. -/
theorem startProgram_of_uncopied {s : Shell} {path : Text} {c : Command} {into : Destination}
    {cause : Cause} (h : s.system.copyTarget into = .error cause) :
    s.startProgram path c into = .error (.openTarget (c.target.getD []) cause) := by
  simp only [startProgram, h]

theorem startProgram_of_refused {s : Shell} {path : Text} {c : Command} {into : Destination}
    {cause : Cause} (hcopy : s.system.copyTarget into = .ok ())
    (h : s.system.start path (c.name :: c.operands) into = .error cause) :
    s.startProgram path c into = .error (.ofStart path cause) := by
  simp only [startProgram, hcopy, h]

theorem startProgram_of_started {s : Shell} {path : Text} {c : Command} {into : Destination}
    {launch : Launch} (hcopy : s.system.copyTarget into = .ok ())
    (h : s.system.start path (c.name :: c.operands) into = .ok launch) :
    s.startProgram path c into = .ok (s.withRunning launch, .started launch) := by
  simp only [startProgram, hcopy, h]

/-- **What starting a program can do.** -/
theorem startProgram_eq_ok {s s' : Shell} {path : Text} {c : Command} {into : Destination}
    {action : Action} (h : s.startProgram path c into = .ok (s', action)) :
    ∃ launch, s.system.start path (c.name :: c.operands) into = .ok launch ∧
      s' = s.withRunning launch ∧ action = .started launch := by
  cases hcopy : s.system.copyTarget into with
  | error cause =>
      rw [startProgram_of_uncopied hcopy] at h
      cases h
  | ok u =>
      cases hstart : s.system.start path (c.name :: c.operands) into with
      | error cause =>
          rw [startProgram_of_refused hcopy hstart] at h
          cases h
      | ok launch =>
          rw [startProgram_of_started hcopy hstart] at h
          obtain ⟨hs, ha⟩ := Prod.mk.inj (Except.ok.inj h)
          exact ⟨launch, rfl, hs.symm, ha.symm⟩

/-- **Why a program is not started.** -/
theorem startProgram_eq_error {s : Shell} {path : Text} {c : Command} {into : Destination}
    {fault : Fault} (h : s.startProgram path c into = .error fault) : ∃ cause,
      (s.system.copyTarget into = .error cause ∧ fault = .openTarget (c.target.getD []) cause) ∨
        (s.system.copyTarget into = .ok () ∧
          s.system.start path (c.name :: c.operands) into = .error cause ∧
          fault = .ofStart path cause) := by
  cases hcopy : s.system.copyTarget into with
  | error cause =>
      rw [startProgram_of_uncopied hcopy] at h
      exact ⟨cause, Or.inl ⟨rfl, (Except.error.inj h).symm⟩⟩
  | ok u =>
      cases hstart : s.system.start path (c.name :: c.operands) into with
      | error cause =>
          rw [startProgram_of_refused hcopy hstart] at h
          exact ⟨cause, Or.inr ⟨rfl, rfl, (Except.error.inj h).symm⟩⟩
      | ok launch =>
          rw [startProgram_of_started hcopy hstart] at h
          cases h

/-- **What carrying out a command can do.** -/
theorem carryOut_eq_ok {s s' : Shell} {c : Command} {into : Destination} {action : Action}
    (h : s.carryOut c into = .ok (s', action)) :
    (∃ path launch, s.meaning c.name = .program path ∧
        s.system.start path (c.name :: c.operands) into = .ok launch ∧
        s' = s.withRunning launch ∧ action = .started launch) ∨
      (s.meaning c.name = .builtIn .exit ∧ c.operands = [] ∧ s' = s ∧ action = .exit) ∨
      (∃ path loc, s.meaning c.name = .builtIn .cd ∧ c.operands = [path] ∧
        s.system.tree.findDirectory s.system.directory path = .ok loc ∧
        s' = { s with system := { s.system with directory := loc } } ∧ action = .done) ∨
      (s.meaning c.name = .builtIn .path ∧
        s' = { s with searchPath := { directories := c.operands } } ∧ action = .done) := by
  unfold carryOut at h
  split at h
  · rename_i path hm
    obtain ⟨launch, hl, hs, ha⟩ := startProgram_eq_ok h
    exact Or.inl ⟨path, launch, hm, hl, hs, ha⟩
  · rename_i b hm
    unfold runBuiltIn at h
    split at h
    · rename_i ho
      injection h with h
      injection h with hs ha
      exact Or.inr (Or.inl ⟨hm, ho, hs.symm, ha.symm⟩)
    · cases h
    · rename_i path ho
      unfold changeDirectory at h
      cases hd : s.system.tree.findDirectory s.system.directory path with
      | error cause =>
          rw [hd] at h
          cases h
      | ok loc =>
          rw [hd] at h
          injection h with h
          injection h with hs ha
          exact Or.inr (Or.inr (Or.inl ⟨path, loc, hm, ho, hd, hs.symm, ha.symm⟩))
    · cases h
    · injection h with h
      injection h with hs ha
      exact Or.inr (Or.inr (Or.inr ⟨hm, hs.symm, ha.symm⟩))
  · cases h

theorem tree_of_carryOut {s s' : Shell} {c : Command} {into : Destination} {action : Action}
    (h : s.carryOut c into = .ok (s', action)) : s'.system.tree = s.system.tree := by
  rcases carryOut_eq_ok h with ⟨_, _, _, _, rfl, _⟩ | ⟨_, _, rfl, _⟩ | ⟨_, _, _, _, _, rfl, _⟩ |
    ⟨_, rfl, _⟩ <;> rfl

/-! ## What comes of a command -/

theorem runCommand_of_unopened {s : Shell} {c : Command} {fault : Fault}
    (h : s.openTarget c.target = .error fault) :
    s.runCommand c = (s, .failed fault .inherited) := by
  simp only [runCommand, h]

theorem runCommand_of_completed {s s₁ s₂ : Shell} {c : Command} {into : Destination}
    {action : Action} (h : s.openTarget c.target = .ok (s₁, into))
    (h' : s₁.carryOut c into = .ok (s₂, action)) :
    s.runCommand c = (s₂, .completed action) := by
  simp only [runCommand, h, h']

theorem runCommand_of_fatal {s s₁ : Shell} {c : Command} {into : Destination} {fault : Fault}
    (h : s.openTarget c.target = .ok (s₁, into)) (h' : s₁.carryOut c into = .error fault)
    (hf : fault.isFatal = true) : s.runCommand c = (s₁, .fatal fault) := by
  simp only [runCommand, h, h', hf, if_true]

theorem runCommand_of_failed {s s₁ : Shell} {c : Command} {into : Destination} {fault : Fault}
    (h : s.openTarget c.target = .ok (s₁, into)) (h' : s₁.carryOut c into = .error fault)
    (hf : fault.isFatal = false) : s.runCommand c = (s₁.notify into, .failed fault into) := by
  simp only [runCommand, h, h', hf, if_false, Bool.false_eq_true]

end Shell

namespace Outcome

/-- How the line ends, if a command ends it. -/
def stop? : Outcome → Option Status
  | completed .exit => some .exits
  | fatal fault => some (.fails fault)
  | _ => none

def event? : Outcome → Option Event
  | completed (.started launch) => some (.started launch)
  | failed fault into => some (.reported fault into)
  | _ => none

theorem ne_continues_of_stop? {o : Outcome} {status : Status} (h : o.stop? = some status) :
    status ≠ .continues := by
  rintro rfl
  cases o with
  | completed action => cases action <;> cases h
  | failed fault into => cases h
  | fatal fault => cases h

theorem event?_of_stop? {o : Outcome} {status : Status} (h : o.stop? = some status) :
    o.event? = none := by
  cases o with
  | completed action =>
      cases action with
      | started launch => cases h
      | done => rfl
      | exit => rfl
  | failed fault into => cases h
  | fatal fault => rfl

end Outcome

namespace LineRun

/-- What has come of commands, if some events had come before, and nothing was waited for. -/
def after (events : List Event) (r : LineRun) : LineRun :=
  { r with events := events ++ r.events
           children := events.filterMap Event.launch? ++ r.children }

@[simp]
theorem after_nil (r : LineRun) : r.after [] = r := rfl

@[simp]
theorem after_after (es fs : List Event) (r : LineRun) :
    (r.after fs).after es = r.after (es ++ fs) := by
  simp [after]

@[simp]
theorem after_children (es : List Event) (r : LineRun) :
    (r.after es).children = es.filterMap Event.launch? ++ r.children := rfl

@[simp]
theorem after_shell (es : List Event) (r : LineRun) : (r.after es).shell = r.shell := rfl

@[simp]
theorem after_status (es : List Event) (r : LineRun) : (r.after es).status = r.status := rfl

@[simp]
theorem after_events (es : List Event) (r : LineRun) : (r.after es).events = es ++ r.events := rfl

@[simp]
theorem faults_after (es : List Event) (r : LineRun) :
    (r.after es).faults = es.filterMap Event.fault? ++ r.faults := by
  simp [faults]

@[simp]
theorem launches_after (es : List Event) (r : LineRun) :
    (r.after es).launches = es.filterMap Event.launch? ++ r.launches := by
  simp [launches]

/-! ## Waiting for children -/

/-- When programs end, only the list of those that are running changes. -/
theorem foldl_ended (s : Shell) (launches : List Launch) :
    launches.foldl Shell.ended s =
      { s with system := { s.system with
        running := launches.foldl List.erase s.system.running } } := by
  induction launches generalizing s with
  | nil => rfl
  | cons launch launches ih =>
      rw [List.foldl_cons, ih]
      rfl

theorem awaitFrom_eq {r : LineRun} {children : List Launch} (h : r.children = children)
    (waited : Nat) : awaitFrom waited children r =
      { r with events := r.events ++ (List.range' waited children.length).map .waited
               children := [] } := by
  induction children generalizing waited r with
  | nil =>
      rw [awaitFrom, List.length_nil, List.range'_zero, List.map_nil, List.append_nil, ← h]
  | cons launch children ih =>
      rw [awaitFrom, ih rfl, List.length_cons, List.range'_succ, List.map_cons]
      simp only [List.append_assoc, List.singleton_append]

/-- **Each child is waited for once**, in the order of their start, and then none is left. -/
theorem await_eq (r : LineRun) : r.await =
    { r with events := r.events ++ (List.range r.children.length).map .waited
             children := [] } := by
  rw [await, awaitFrom_eq rfl, List.range_eq_range']

@[simp]
theorem shell_await (r : LineRun) : r.await.shell = r.shell := by rw [await_eq]

@[simp]
theorem status_await (r : LineRun) : r.await.status = r.status := by rw [await_eq]

@[simp]
theorem children_await (r : LineRun) : r.await.children = [] := by rw [await_eq]

@[simp]
theorem faults_await (r : LineRun) : r.await.faults = r.faults := by
  simp [faults, await_eq, Event.fault?]

@[simp]
theorem launches_await (r : LineRun) : r.await.launches = r.launches := by
  simp [launches, await_eq, Event.launch?]

end LineRun

namespace Shell

@[simp]
theorem runCommands_nil (s : Shell) :
    s.runCommands [] = { shell := s, events := [], status := .continues } := rfl

/-- **How commands in a row go on**: the first one ends the line, or the others follow in the shell
it leaves. -/
theorem runCommands_cons (s : Shell) (c : Command) (cs : List Command) :
    s.runCommands (c :: cs) =
      match (s.runCommand c).2.stop? with
      | some status => { shell := (s.runCommand c).1, events := [], status }
      | none => ((s.runCommand c).1.runCommands cs).after (s.runCommand c).2.event?.toList := by
  rw [runCommands]
  rcases s.runCommand c with ⟨s', outcome⟩
  cases outcome with
  | completed action => cases action <;> rfl
  | failed fault into => rfl
  | fatal fault => rfl

theorem runCommands_cons_of_stop {s s' : Shell} {c : Command} {o : Outcome} {status : Status}
    (h : s.runCommand c = (s', o)) (hstop : o.stop? = some status) (cs : List Command) :
    s.runCommands (c :: cs) = { shell := s', events := [], status } := by
  rw [runCommands_cons, h]
  simp only [hstop]

theorem runCommands_cons_of_none {s s' : Shell} {c : Command} {o : Outcome}
    (h : s.runCommand c = (s', o)) (hstop : o.stop? = none) (cs : List Command) :
    s.runCommands (c :: cs) = (s'.runCommands cs).after o.event?.toList := by
  rw [runCommands_cons, h]
  simp only [hstop]

/-- The children of commands in a row are the programs they have started. -/
theorem children_runCommands (s : Shell) (cs : List Command) :
    (s.runCommands cs).children = (s.runCommands cs).launches := by
  induction cs generalizing s with
  | nil => rfl
  | cons c cs ih =>
      rw [runCommands_cons]
      split
      · rfl
      · rw [LineRun.after_children, LineRun.launches_after, ih]

/-- The commands that are reached, each with the shell that it finds. -/
def reached (s : Shell) : List Command → List (Shell × Command)
  | [] => []
  | c :: cs =>
    (s, c) ::
      match (s.runCommand c).2.stop? with
      | some _ => []
      | none => (s.runCommand c).1.reached cs

/-- **Commands in two parts** are run part after part, unless the first part ends the line. -/
theorem runCommands_append (s : Shell) (cs ds : List Command) :
    s.runCommands (cs ++ ds) =
      match (s.runCommands cs).status with
      | .continues => ((s.runCommands cs).shell.runCommands ds).after (s.runCommands cs).events
      | _ => s.runCommands cs := by
  -- over the first part: a command in it that ends the line keeps the second from being reached
  induction cs generalizing s with
  | nil => simp
  | cons c cs ih =>
      rw [List.cons_append, runCommands_cons, runCommands_cons]
      cases hstop : (s.runCommand c).2.stop? with
      | some status =>
          have := Outcome.ne_continues_of_stop? hstop
          cases status <;> simp_all
      | none =>
          simp only [ih, LineRun.after_status, LineRun.after_shell, LineRun.after_events]
          cases ((s.runCommand c).1.runCommands cs).status <;> simp

/-- Of commands in two parts, those of the first part are reached, and those of the second if the
first part continues. -/
theorem reached_append (s : Shell) (cs ds : List Command) :
    s.reached (cs ++ ds) =
      s.reached cs ++
        match (s.runCommands cs).status with
        | .continues => (s.runCommands cs).shell.reached ds
        | _ => [] := by
  induction cs generalizing s with
  | nil => simp [reached]
  | cons c cs ih =>
      rw [List.cons_append, reached, reached, runCommands_cons]
      cases hstop : (s.runCommand c).2.stop? with
      | some status =>
          have := Outcome.ne_continues_of_stop? hstop
          cases status <;> simp_all
      | none => simp [ih]

end Shell

/-! ## What a line does not change -/

/-- Systems with the same supply, the same environment, the same files for the machine, and trees of
which the same is seen. -/
structure System.SameGround (s t : System) : Prop where
  supply : s.supply = t.supply
  programPath : s.programPath = t.programPath
  machineCode : s.machineCode = t.machineCode
  sight : s.tree.sight = t.tree.sight

theorem System.SameGround.refl (s : System) : s.SameGround s := ⟨rfl, rfl, rfl, rfl⟩

theorem System.SameGround.trans {s t u : System} (h : s.SameGround t) (h' : t.SameGround u) :
    s.SameGround u :=
  ⟨h.supply.trans h'.supply, h.programPath.trans h'.programPath,
    h.machineCode.trans h'.machineCode, h.sight.trans h'.sight⟩

theorem System.SameGround.octets_eq {s t : System} (h : s.SameGround t) (loc : Location)
    (content : Content) : s.octets loc content = t.octets loc content := by
  cases content with
  | octets data => rfl
  | program => exact congrFun h.machineCode loc

namespace Shell

variable {s s' : Shell} {c : Command}

theorem sameGround_of_openTarget {target : Option Text} {into : Destination}
    (h : s.openTarget target = .ok (s', into)) : s'.system.SameGround s.system := by
  rcases openTarget_eq_ok h with ⟨-, -, rfl⟩ | ⟨_, _, _, -, -, -, rfl⟩ | ⟨_, _, _, -, -, -, rfl⟩
  · exact .refl s'.system
  · exact .refl s'.system
  · exact ⟨rfl, rfl, rfl, FileTree.sight_put _ _ _⟩

theorem sameGround_of_carryOut {into : Destination} {action : Action}
    (h : s.carryOut c into = .ok (s', action)) : s'.system.SameGround s.system := by
  rcases carryOut_eq_ok h with ⟨_, _, _, _, rfl, _⟩ | ⟨_, _, rfl, _⟩ | ⟨_, _, _, _, _, rfl, _⟩ |
    ⟨_, rfl, _⟩ <;> exact ⟨rfl, rfl, rfl, rfl⟩

theorem sameGround_notify (s : Shell) (into : Destination) :
    (s.notify into).system.SameGround s.system := by
  cases into with
  | file loc => exact ⟨rfl, rfl, rfl, FileTree.sight_writeAt _ _ _ _⟩
  | inherited => exact .refl s.system
  | device d => exact .refl s.system

theorem sameGround_runCommand (s : Shell) (c : Command) :
    (s.runCommand c).1.system.SameGround s.system := by
  cases ho : s.openTarget c.target with
  | error fault =>
      rw [runCommand_of_unopened ho]
      exact .refl s.system
  | ok x =>
      obtain ⟨s₁, into⟩ := x
      refine System.SameGround.trans ?_ (sameGround_of_openTarget ho)
      cases hc : s₁.carryOut c into with
      | ok y =>
          rw [runCommand_of_completed ho hc]
          exact sameGround_of_carryOut hc
      | error fault =>
          cases hf : fault.isFatal with
          | true =>
              rw [runCommand_of_fatal ho hc hf]
              exact .refl s₁.system
          | false =>
              rw [runCommand_of_failed ho hc hf]
              exact sameGround_notify s₁ into

theorem sameGround_runCommands (s : Shell) (cs : List Command) :
    (s.runCommands cs).shell.system.SameGround s.system := by
  induction cs generalizing s with
  | nil => exact .refl s.system
  | cons c cs ih =>
      rw [runCommands_cons]
      split
      · exact sameGround_runCommand s c
      · exact (ih _).trans (sameGround_runCommand s c)

/-- **Of the system**, a line changes the nodes of the tree, the current directory and the list of
the programs that are running, and nothing else. -/
theorem sameGround_runLine (s : Shell) (line : Text) :
    (s.runLine line).shell.system.SameGround s.system := by
  unfold runLine
  split
  · exact .refl s.system
  · rename_i cs _
    have hrun := sameGround_runCommands s cs
    simp only [runAll]
    split
    · rw [LineRun.shell_await, LineRun.withEnded, LineRun.foldl_ended]
      exact ⟨hrun.supply, hrun.programPath, hrun.machineCode, hrun.sight⟩
    · exact hrun

end Shell

end ParallelShell
