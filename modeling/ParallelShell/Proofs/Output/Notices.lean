import ParallelShell.Proofs.Output.Slots
import ParallelShell.Proofs.Shell.Rejection

set_option autoImplicit false

/-! # One notice for each fault

What the shell tells of a line on its own account is one notice for each command that has failed,
and nothing else. `Play.ToldOnce` says this of a line whose commands are run: the reports are the
failures, in order; for each of them there is one turn of the shell in which the notice is written;
no other turn of the shell writes anything (`Play.Notifies`); and the notice goes to where the
command's own target was opened, or to the shell's stream if there is no such target
(`Failure.SentBy`).

The main statement, `toldOnce_of_follow`, has the lines that are rejected beside it.
-/

namespace ParallelShell

/-- **Where a notice belongs**, once it is known what opening the target of the command has come
to. -/
def Failure.SentBy (f : Failure) : Except Fault (Shell × Destination) → Prop
  | .error fault => f.fault = fault ∧ f.into = .inherited
  | .ok (_, into) => f.into = into

/-- A notice goes to the shell's own stream exactly if there is no target, or if it cannot be
opened. -/
theorem Failure.SentBy.into_eq_inherited_iff {f : Failure} {s : Shell} {target : Option Text}
    (h : f.SentBy (s.openTarget target)) :
    f.into = .inherited ↔ target = none ∨ s.openTarget target = .error f.fault := by
  cases ho : s.openTarget target with
  | error fault =>
      rw [ho] at h
      obtain ⟨rfl, hinto⟩ := h
      simp [hinto]
  | ok opened =>
      obtain ⟨s', into⟩ := opened
      rw [ho] at h
      obtain rfl : f.into = into := h
      rcases Shell.openTarget_eq_ok ho with ⟨ht, hi, -⟩ | ⟨_, _, _, ht, -, hi, -⟩ |
        ⟨_, _, _, ht, -, hi, -⟩ <;> simp [ht, hi]

namespace Play

variable {writes : Nat → Launch → List Write} {p q : Play} {schedule : List Turn} {f : Failure}

/-- **What the shell writes in its turn**: a notice, if a failure is pending; otherwise nothing, but
a target may be emptied. -/
def Notifies (p q : Play) : Prop :=
  match p.pending? with
  | some f => q.scene = p.scene.write f.into 0 Part.notice
  | none => q.console = p.console ∧
    ∃ into, Emptied into p.shell.system.tree q.shell.system.tree

/-- **Every fault of a line is told once, and in the right place.** -/
structure ToldOnce (writes : Nat → Launch → List Write) (p : Play) (schedule : List Turn)
    (r : LineRun) (failures : List Failure) : Prop where
  /-- The failures are what has failed in the turns of the shell, in the order of the commands. -/
  failed : failures = (p.acting writes schedule).filterMap failure?
  ordered : failures.Pairwise fun f g => f.number < g.number
  reports : r.events.filter Event.isReport = failures.map Failure.event
  /-- For each failure there is one turn in which the notice is written, in the same order. -/
  notices : (p.acting writes schedule).filterMap pending? = failures
  /-- In its other turns the shell writes nothing. -/
  turns : ∀ x y, Acts writes p schedule x → x.step writes .shell = some y → x.Notifies y
  /-- The notice goes to where the command's own target was opened, or to the shell's stream. -/
  sent : ∀ f ∈ failures, f.fault.isFatal = false ∧ ∃ c x, p.commands[f.number]? = some c ∧
    Opens writes p schedule f.number c x ∧ f.SentBy (x.shell.openTarget c.target) ∧
    (f.into = .inherited ↔ c.target = none ∨ x.shell.openTarget c.target = .error f.fault)

/-! ## Turns -/

theorem notifies_of_none (into : Destination) (hpending : p.pending? = none)
    (hconsole : q.console = p.console)
    (htree : Emptied into p.shell.system.tree q.shell.system.tree) : p.Notifies q := by
  simp only [Notifies, hpending]
  exact ⟨hconsole, into, htree⟩

theorem notifies_of_step (h : p.step writes .shell = some q) : p.Notifies q := by
  cases acted_of_step h with
  | finish hp _ _ =>
      exact notifies_of_none .inherited (by simp only [pending?, hp]) rfl rfl
  | unopened hp _ _ =>
      exact notifies_of_none .inherited (by simp only [pending?, hp]) rfl rfl
  | opened hp _ ho =>
      exact notifies_of_none _ (by simp only [pending?, hp]) rfl (emptied_of_openTarget ho)
  | @carriedOut c into hp =>
      have hpending : p.pending? = none := by simp only [pending?, hp]
      have hdone := carriedOut writes p c into
      generalize p.carryOut writes c into = q at hdone ⊢
      cases hdone with
      | part htree _ _ => exact notifies_of_none .inherited hpending rfl htree
      | failing => exact notifies_of_none .inherited hpending rfl rfl
  | notified hp =>
      simp only [Notifies, pending?, hp]
      rw [notify_eq]
      rfl

/-- **The notice about a failure** goes to where its own command has its output. -/
theorem sent_of_failure? (hp : p.phase = .ready) (hx : Acts writes p schedule q)
    (hf : q.failure? = some f) : f.fault.isFatal = false ∧ ∃ c x, p.commands[f.number]? = some c ∧
      Opens writes p schedule f.number c x ∧ f.SentBy (x.shell.openTarget c.target) := by
  obtain ⟨hnumber, ⟨c, left, hphase, hl, ho, hinto⟩ | ⟨c, hphase, -, hfatal⟩⟩ :=
    failure?_eq_some hf
  · have hopens : Opens writes p schedule f.number c q :=
      ⟨hx, hphase, by rw [hl, List.head?_cons], hnumber.symm⟩
    obtain ⟨path, cause, -, hfault⟩ := Shell.openTarget_eq_error ho
    refine ⟨by rw [hfault]; rfl, c, q, hopens.getElem?_commands, hopens, ?_⟩
    rw [ho]
    exact ⟨rfl, hinto⟩
  · obtain ⟨before, after, rfl, hbefore⟩ := exists_append_of_acts hx
    obtain ⟨x, s, hopens, ho⟩ := exists_opens hp hbefore hphase
    rw [← hnumber] at hopens
    refine ⟨hfatal, c, x, hopens.getElem?_commands, hopens.append_right _, ?_⟩
    rw [ho]
    exact rfl

/-! ## Lines -/

/-- What is told of waiting is no report. -/
theorem filter_isReport_result (p : Play) (status : Status) :
    (p.result status).events.filter Event.isReport = p.events.filter Event.isReport := by
  cases status with
  | continues => simp [result, LineRun.await_eq, Event.isReport]
  | exits => rfl
  | fails fault => rfl

/-- **Every fault is reported exactly once and in the right place.** If a line is rejected, all that
comes of it is the report of the malformed redirection, and a session writes one notice to its error
stream. Otherwise, however the line is played to its end: the faults that are reported are those of
the commands that were reached and failed without ending the line, in order and one each; each of
them causes one notice, and the shell writes nothing else; and the notice goes to where the target
of the command has been opened, or to the shell's error stream if there is no target or it could not
be opened. -/
theorem toldOnce_of_follow (s : Session) (line : Text) :
    (∀ m, Line.commands line = .error m → (∀ r, s.shell.Plays line r ↔ r = s.shell.rejected m) ∧
        ∀ behaviour, s.runLine behaviour line =
          ({ s with console := s.console.add Part.notice }, s.shell.rejected m)) ∧
      ∀ cs, Line.commands line = .ok cs → ∀ writes schedule p status,
        (start s.shell s.console cs).follow writes schedule = some p → p.phase = .ended status →
          ∃ failures, ToldOnce writes (start s.shell s.console cs) schedule
            (p.result status) failures := by
  refine ⟨fun m hline => ⟨s.shell.plays_iff_of_error hline, s.runLine_of_error hline⟩, ?_⟩
  intro cs _ writes schedule p status hp hend
  obtain ⟨hpending, hfailed⟩ := reported_of_ended hp hend
  refine ⟨p.reported, hfailed, p.pairwise_reported, ?_, hpending.symm, ?_, ?_⟩
  · rw [filter_isReport_result, filter_isReport_events]
  · exact fun x y _ hstep => notifies_of_step hstep
  · intro f hf
    rw [hfailed] at hf
    obtain ⟨x, hx, hfx⟩ := List.mem_filterMap.mp hf
    obtain ⟨hfatal, c, y, hc, hopens, hsent⟩ :=
      sent_of_failure? rfl (acts_iff_mem_acting.mpr hx) hfx
    exact ⟨hfatal, c, y, hc, hopens, hsent, hsent.into_eq_inherited_iff⟩

/-- A command that nobody knows, into a file; a program, into another; a change of directory whose
target cannot be opened, since it is a directory; and an exit. -/
def nopeProbeCdExit : List Command :=
  [{ name := text "nope", operands := [], target := some (text "f") },
    { name := text "probe", operands := [], target := some (text "out") },
    { name := text "cd", operands := [text "nowhere"], target := some (text "bin") },
    { name := text "exit", operands := [], target := none }]

/-- A schedule in which no file can be copied any more once the first command has failed. -/
def runningOut : List Turn :=
  List.replicate 3 .shell ++ .system { copying := some .tooManyFiles } :: List.replicate 7 .shell

/-- The target of the program has been opened when it cannot be copied, so the notice goes there. -/
theorem toldOnce_nopeProbeCdExit : ∃ p,
    (start .overProbe (.ofInput []) nopeProbeCdExit).follow oneWrite runningOut = some p ∧
      p.phase = .ended .exits ∧
      ToldOnce oneWrite (start .overProbe (.ofInput []) nopeProbeCdExit) runningOut
        (p.result .exits)
        [{ number := 0, fault := .unknownCommand (text "nope"), into := .file [text "f"] },
          { number := 1, fault := .openTarget (text "out") (.errno .tooManyFiles),
            into := .file [text "out"] },
          { number := 2, fault := .openTarget (text "bin") (.errno .isDirectory),
            into := .inherited }] := by
  have hline : Line.commands (text "nope > f & probe > out & cd nowhere > bin & exit") =
      .ok nopeProbeCdExit := by decide
  have hphase : ((start .overProbe (.ofInput []) nopeProbeCdExit).follow oneWrite
      runningOut).map Play.phase = some (.ended .exits) := by decide
  obtain ⟨p, hp, hend⟩ := Option.map_eq_some_iff.mp hphase
  obtain ⟨failures, htold⟩ := (toldOnce_of_follow
    { shell := .overProbe, console := .ofInput [] } _).2 _ hline oneWrite _ p .exits hp hend
  have hfailures : failures =
      [{ number := 0, fault := .unknownCommand (text "nope"), into := .file [text "f"] },
        { number := 1, fault := .openTarget (text "out") (.errno .tooManyFiles),
          into := .file [text "out"] },
        { number := 2, fault := .openTarget (text "bin") (.errno .isDirectory),
          into := .inherited }] := htold.failed.trans (by decide)
  exact ⟨p, hp, hend, hfailures ▸ htold⟩

end Play

end ParallelShell
