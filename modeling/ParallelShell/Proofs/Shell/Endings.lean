import ParallelShell.Proofs.Program.Refusal
import ParallelShell.Proofs.Shell.Commands
import ParallelShell.Shell.Line

set_option autoImplicit false

/-! # What ends a line

A command ends the line it stands in for one of two reasons, and both are decided when it is carried
out, in the state in which its target has been opened.

* It **exits** (`Shell.Exits`): it is called `exit` and has no operands, and its name does not lead
  to a program.
* It **starves** (`Shell.Starves`): its name leads to a program, its target can be copied, and a
  process could be asked for, since no argument contains a NUL; but the system has run out of
  processes or of memory, which may be after it has granted others.

That there is no third reason (`stop?_eq_some_iff`) is mostly a matter of how a start can fail: if a
process can be created, no cause is a fatal one (`System.isExhaustion_of_start`).
-/

namespace ParallelShell

namespace System

/-- **A start fails fatally** only where no process can be created, and if the arguments can be
handed over. -/
theorem isExhaustion_of_start {s : System} {path : Text} {arguments : List Text}
    {into : Destination} {cause : Cause} (h : s.start path arguments into = .error cause)
    (hcause : cause.isExhaustion = true) : ∃ e, s.supply.refusal? s.running.length = some e ∧
      arguments.any Path.hasNul = false ∧ cause = .errno e := by
  unfold start at h
  split at h
  · cases Except.error.inj h
    cases hcause
  · rename_i hnul
    split at h
    · rename_i e hrefused
      exact ⟨e, hrefused, by simpa using hnul, (Except.error.inj h).symm⟩
    · dsimp only at h
      split at h
      · rename_i hload
        have hlocal := Image.isExhaustion_of_load hload
        rw [Except.error.inj h, hcause] at hlocal
        cases hlocal
      · cases h

theorem start_of_refused {s : System} {path : Text} {arguments : List Text} {e : Errno}
    (hrefused : s.supply.refusal? s.running.length = some e)
    (hnul : arguments.any Path.hasNul = false) (into : Destination) :
    s.start path arguments into = .error (.errno e) := by
  simp only [start, hnul, hrefused, if_false, Bool.false_eq_true]

end System

namespace Shell

/-- A command that ends the shell once its target has been opened. -/
def Exits (s : Shell) (c : Command) : Prop :=
  c.name = BuiltIn.exit.name ∧ c.operands = [] ∧ s.program? c.name = none

/-- A command that needs a process for the program at a path, once its target has been opened. -/
def Needs (s : Shell) (c : Command) (path : Text) : Prop :=
  s.program? c.name = some path ∧ (c.name :: c.operands).any Path.hasNul = false

/-- A command that needs a process for the program at a path, where the system has none left. -/
structure Starves (s : Shell) (c : Command) (into : Destination) (path : Text) (e : Errno) :
    Prop where
  needs : s.Needs c path
  copied : s.system.copyTarget into = .ok ()
  refused : s.system.supply.refusal? s.system.running.length = some e
  exhausted : (Cause.errno e).isExhaustion = true

variable {s s' : Shell} {c : Command} {into : Destination} {fault : Fault}

theorem meaning_eq_program_iff {name path : Text} :
    s.meaning name = .program path ↔ s.program? name = some path := by
  unfold meaning
  cases s.program? name with
  | some p => simp
  | none => cases BuiltIn.ofName? name <;> simp

theorem meaning_eq_builtIn_iff {name : Text} {b : BuiltIn} :
    s.meaning name = .builtIn b ↔ s.program? name = none ∧ b.name = name := by
  rw [← BuiltIn.ofName?_eq_some_iff]
  unfold meaning
  cases s.program? name with
  | some p => simp
  | none => cases BuiltIn.ofName? name <;> simp

theorem carryOut_eq_exit_iff : s.carryOut c into = .ok (s', .exit) ↔ s' = s ∧ s.Exits c := by
  constructor
  · intro h
    rcases carryOut_eq_ok h with ⟨_, _, _, _, _, ha⟩ | ⟨hm, ho, hs, -⟩ | ⟨_, _, _, _, _, _, ha⟩ |
      ⟨_, _, ha⟩
    · cases ha
    · obtain ⟨hprogram, hname⟩ := meaning_eq_builtIn_iff.mp hm
      exact ⟨hs, hname.symm, ho, hprogram⟩
    · cases ha
    · cases ha
  · rintro ⟨rfl, hname, ho, hprogram⟩
    have hm : s'.meaning c.name = .builtIn .exit :=
      meaning_eq_builtIn_iff.mpr ⟨hprogram, hname.symm⟩
    simp only [carryOut, hm, ho, runBuiltIn]

/-- What goes wrong with a built-in is not fatal. -/
theorem isFatal_of_runBuiltIn {b : BuiltIn} {operands : List Text}
    (h : s.runBuiltIn b operands = .error fault) : fault.isFatal = false := by
  unfold runBuiltIn at h
  split at h
  · cases h
  · exact Except.error.inj h ▸ rfl
  · rename_i path
    unfold changeDirectory at h
    cases hd : s.system.tree.findDirectory s.system.directory path with
    | error cause =>
        rw [hd] at h
        exact Except.error.inj h ▸ rfl
    | ok loc =>
        rw [hd] at h
        cases h
  · exact Except.error.inj h ▸ rfl
  · cases h

theorem carryOut_eq_fatal_iff :
    s.carryOut c into = .error fault ∧ fault.isFatal = true ↔
      ∃ path e, s.Starves c into path e ∧ fault = .createProcess path (.errno e) := by
  constructor
  · rintro ⟨h, hf⟩
    unfold carryOut at h
    split at h
    · rename_i path hm
      obtain ⟨cause, ⟨-, rfl⟩ | ⟨hcopy, hstart, rfl⟩⟩ := startProgram_eq_error h
      · cases hf
      · rw [Fault.isFatal_ofStart] at hf
        obtain ⟨e, hrefused, hnul, rfl⟩ := System.isExhaustion_of_start hstart hf
        exact ⟨path, e, ⟨⟨meaning_eq_program_iff.mp hm, hnul⟩, hcopy, hrefused, hf⟩, if_pos hf⟩
    · rw [isFatal_of_runBuiltIn h] at hf
      cases hf
    · obtain rfl := Except.error.inj h
      cases hf
  · rintro ⟨path, e, ⟨⟨hprogram, hnul⟩, hcopy, hrefused, hexhausted⟩, rfl⟩
    have hm := meaning_eq_program_iff.mpr hprogram
    refine ⟨?_, rfl⟩
    simp only [carryOut, hm]
    rw [startProgram_of_refused hcopy (System.start_of_refused hrefused hnul into)]
    exact congrArg Except.error (if_pos hexhausted)

/-! ## The outcome of a command -/

/-- **How a command ends its line**, once its target has been opened, if it ends it. -/
def Ends (s : Shell) (c : Command) (into : Destination) : Status → Prop
  | .continues => False
  | .exits => s.Exits c
  | .fails fault => ∃ path e, s.Starves c into path e ∧ fault = .createProcess path (.errno e)

theorem ends_iff_of_error (h : s.carryOut c into = .error fault) {status : Status} :
    s.Ends c into status ↔ fault.isFatal = true ∧ status = .fails fault := by
  cases status with
  | continues => simp [Ends]
  | exits =>
      have hnot : ¬ s.Exits c := fun he => by
        have hexit : s.carryOut c into = .ok (s, .exit) := carryOut_eq_exit_iff.mpr ⟨rfl, he⟩
        cases hexit.symm.trans h
      simp [Ends, hnot]
  | fails f =>
      rw [Ends, ← carryOut_eq_fatal_iff, h]
      constructor
      · rintro ⟨heq, hf⟩
        obtain rfl := Except.error.inj heq
        exact ⟨hf, rfl⟩
      · rintro ⟨hf, heq⟩
        obtain rfl := Status.fails.inj heq
        exact ⟨rfl, hf⟩

theorem ends_iff_of_ok {action : Action} (h : s.carryOut c into = .ok (s', action))
    {status : Status} : s.Ends c into status ↔ action = .exit ∧ status = .exits := by
  cases status with
  | continues => simp [Ends]
  | exits =>
      constructor
      · intro he
        have hexit : s.carryOut c into = .ok (s, .exit) := carryOut_eq_exit_iff.mpr ⟨rfl, he⟩
        exact ⟨(Prod.mk.inj (Except.ok.inj (hexit.symm.trans h))).2.symm, rfl⟩
      · rintro ⟨rfl, -⟩
        exact (carryOut_eq_exit_iff.mp h).2
  | fails f =>
      rw [Ends, ← carryOut_eq_fatal_iff, h]
      simp

/-- **A command ends its line** exactly if it does so once its target has been opened; one whose
target cannot be opened never does. -/
theorem stop?_eq_some_iff {status : Status} :
    (s.runCommand c).2.stop? = some status ↔
      ∃ s' into, s.openTarget c.target = .ok (s', into) ∧ s'.Ends c into status := by
  cases ho : s.openTarget c.target with
  | error fault => simp [runCommand_of_unopened ho, Outcome.stop?]
  | ok x =>
      obtain ⟨s₁, i⟩ := x
      have hopened : (∃ s' into, Except.ok (ε := Fault) (s₁, i) = .ok (s', into) ∧
          s'.Ends c into status) ↔ s₁.Ends c i status := by
        constructor
        · rintro ⟨s', into, heq, he⟩
          cases heq
          exact he
        · exact fun he => ⟨s₁, i, rfl, he⟩
      rw [hopened]
      cases hc : s₁.carryOut c i with
      | error fault =>
          rw [ends_iff_of_error hc]
          cases hf : fault.isFatal with
          | true => simp [runCommand_of_fatal ho hc hf, Outcome.stop?, eq_comm]
          | false => simp [runCommand_of_failed ho hc hf, Outcome.stop?]
      | ok y =>
          obtain ⟨s₂, action⟩ := y
          rw [ends_iff_of_ok hc, runCommand_of_completed ho hc]
          cases action <;> simp [Outcome.stop?, eq_comm]

/-! ## Commands in a row -/

/-- The commands up to the one that ends the line decide what comes of it. -/
theorem runCommands_append_cons_of_stop {cs : List Command} {o : Outcome} {status : Status}
    (hcs : (s.runCommands cs).status = .continues)
    (hrun : (s.runCommands cs).shell.runCommand c = (s', o)) (hstop : o.stop? = some status)
    (ds : List Command) :
    s.runCommands (cs ++ c :: ds) =
      LineRun.after (s.runCommands cs).events { shell := s', events := [], status } := by
  rw [runCommands_append, hcs, runCommands_cons_of_stop hrun hstop]

/-- Commands that do not continue have one among them that ends the line. -/
theorem exists_stop_of_status {cs : List Command} {status : Status}
    (h : (s.runCommands cs).status = status) (hne : status ≠ .continues) :
    ∃ before c after, cs = before ++ c :: after ∧ (s.runCommands before).status = .continues ∧
      ((s.runCommands before).shell.runCommand c).2.stop? = some status := by
  induction cs generalizing s with
  | nil => exact absurd h.symm hne
  | cons c cs ih =>
      rw [runCommands_cons] at h
      cases hstop : (s.runCommand c).2.stop? with
      | some st =>
          simp only [hstop] at h
          exact ⟨[], c, cs, rfl, rfl, by rw [← h]; exact hstop⟩
      | none =>
          simp only [hstop, LineRun.after_status] at h
          obtain ⟨before, d, after, hcs, hcont, hd⟩ := ih h
          refine ⟨c :: before, d, after, by rw [hcs, List.cons_append], ?_, ?_⟩
          · rw [runCommands_cons]
            simp only [hstop, LineRun.after_status, hcont]
          · rw [runCommands_cons]
            simp only [hstop, LineRun.after_shell, hd]

/-- Commands continue if none that is reached ends the line. -/
theorem status_runCommands_eq_continues_iff {cs : List Command} :
    (s.runCommands cs).status = .continues ↔
      ∀ x ∈ s.reached cs, (x.1.runCommand x.2).2.stop? = none := by
  induction cs generalizing s with
  | nil => simp [reached]
  | cons c cs ih =>
      rw [runCommands_cons, reached]
      cases hstop : (s.runCommand c).2.stop? with
      | some st => simp [hstop, Outcome.ne_continues_of_stop? hstop]
      | none => simp [hstop, ih]

end Shell

end ParallelShell
