import ParallelShell.Proofs.Output.Performance
import ParallelShell.Proofs.Output.Slots
import ParallelShell.Proofs.Shell.Endings

set_option autoImplicit false

/-! # Exhausted systems

Whether processes can be created is up to the system, and nothing a line does changes it
(`Play.supply_of_step`). Here the system does not change it either. If processes can be created, no
line fails, whatever its programs write and whoever is faster. If they cannot, no program is ever
started, so nobody has a turn but the shell, and all that can come of a line is what comes of it if
its programs write nothing (`Shell.eq_runLine_of_exhausted`). Such a line fails at the first command
in need of a process (`Shell.FirstInNeed`), if it does not exit before; what the earlier commands
have done stays, and the target of this command has been opened and emptied, but nothing is written
into it.

`Shell.fails_iff_of_plays` puts the two together.
-/

namespace ParallelShell

/-! ## The supply of processes -/

namespace Shell

variable {s s' : Shell} {c : Command} {into : Destination}

/-- On an exhausted system no program is started. -/
theorem ne_started_of_exhausted (hsup : s.system.supply = .exhausted) (launch : Launch) :
    s.carryOut c into ≠ .ok (s', .started launch) := by
  intro h
  rcases carryOut_eq_ok h with ⟨path, l, _, hstart, -⟩ | ⟨_, _, _, ha⟩ | ⟨_, _, _, _, _, _, ha⟩ |
    ⟨_, _, ha⟩
  · unfold System.start at hstart
    rw [hsup, Supply.refusal?_exhausted] at hstart
    split at hstart <;> cases hstart
  all_goals cases ha

theorem filterMap_launch?_of_exhausted (hsup : s.system.supply = .exhausted) (c : Command) :
    (s.runCommand c).2.event?.toList.filterMap Event.launch? = [] := by
  cases ho : s.openTarget c.target with
  | error fault =>
      rw [runCommand_of_unopened ho]
      rfl
  | ok x =>
      obtain ⟨s₁, i⟩ := x
      cases hc : s₁.carryOut c i with
      | ok y =>
          obtain ⟨s₂, action⟩ := y
          rw [runCommand_of_completed ho hc]
          cases action with
          | started launch =>
              have hsup₁ := (sameGround_of_openTarget ho).supply.trans hsup
              exact absurd hc (ne_started_of_exhausted hsup₁ launch)
          | done => rfl
          | exit => rfl
      | error fault =>
          cases hf : fault.isFatal with
          | true =>
              rw [runCommand_of_fatal ho hc hf]
              rfl
          | false =>
              rw [runCommand_of_failed ho hc hf]
              rfl

/-- So commands in a row start none either. -/
theorem launches_of_exhausted (hsup : s.system.supply = .exhausted) (cs : List Command) :
    (s.runCommands cs).launches = [] := by
  induction cs generalizing s with
  | nil => rfl
  | cons c cs ih =>
      rw [runCommands_cons]
      split
      · rfl
      · rw [LineRun.launches_after, filterMap_launch?_of_exhausted hsup,
          ih ((sameGround_runCommand s c).supply.trans hsup), List.append_nil]

end Shell

namespace Play

variable {writes : Nat → Launch → List Write} {p q : Play} {schedule : List Turn}

/-- **Where processes can be created, no line fails.** -/
theorem ne_fails_of_unlimited (hsup : p.shell.system.supply.limit = none)
    (hp : ∀ fault, p.phase ≠ .ended (.fails fault))
    (hsteady : ∀ turn ∈ schedule, turn.isSteady = true) (h : p.follow writes schedule = some q)
    (fault : Fault) : q.phase ≠ .ended (.fails fault) := by
  have hkept : ∀ a b, Step writes a b → b.shell.system.supply = a.shell.system.supply →
      (a.shell.system.supply.limit = none ∧ ∀ f, a.phase ≠ .ended (.fails f)) →
      b.shell.system.supply.limit = none ∧ ∀ f, b.phase ≠ .ended (.fails f) := by
    rintro a b hstep hsame ⟨ha, hphase⟩
    refine ⟨(congrArg Supply.limit hsame).trans ha, ?_⟩
    clear hsame
    cases hstep with
    | finish _ _ _ => simp
    | unopened _ _ _ => simp
    | opened _ _ _ => simp
    | @carriedOut c into _ =>
        have hcomes := comesTo_carryOut writes a c into
        generalize a.carryOut writes c into = b at hcomes ⊢
        cases hcomes with
        | started _ => simp [withPart]
        | done _ => simp [withPart]
        | exit _ => simp
        | fatal hc hf =>
            -- there would be a limit
            obtain ⟨path, e, hstarves, -⟩ := Shell.carryOut_eq_fatal_iff.mp ⟨hc, hf⟩
            have hrefused := hstarves.refused
            simp only [Supply.refusal?, ha] at hrefused
            cases hrefused
        | failed _ _ => simp
    | notified _ => simp [notify, withPart]
    | written _ _ => exact hphase
    | ends _ _ _ => exact hphase
    | supplied _ => exact hphase
  exact (follow_preserves_of_isSteady hkept hsteady h ⟨hsup, hp⟩).2 fault

/-! ## Nobody has a turn but the shell -/

/-- A play on an exhausted system, in which no program was ever started. -/
structure Idle (p : Play) : Prop where
  supply : p.shell.system.supply = .exhausted
  parts : ∀ x ∈ p.parts, x.launch? = none

theorem Idle.withPart (h : p.Idle) {x : Part} (hparts : q.parts = p.parts ++ [x])
    (hsup : q.shell.system.supply = p.shell.system.supply) (hx : x.launch? = none) : q.Idle where
  supply := hsup.trans h.supply
  parts := by
    rw [hparts]
    exact List.forall_mem_append.mpr ⟨h.parts, List.forall_mem_singleton.mpr hx⟩

theorem Idle.step (h : p.Idle) (hstep : Step writes p q)
    (hsup : q.shell.system.supply = p.shell.system.supply) : q.Idle := by
  cases hstep with
  | finish _ _ _ => exact ⟨h.supply, h.parts⟩
  | unopened _ _ _ => exact ⟨h.supply, h.parts⟩
  | opened _ _ _ => exact ⟨hsup.trans h.supply, h.parts⟩
  | @carriedOut c into _ =>
      have hcomes := comesTo_carryOut writes p c into
      generalize p.carryOut writes c into = q at hcomes hsup ⊢
      cases hcomes with
      | started hc => exact absurd hc (Shell.ne_started_of_exhausted h.supply _)
      | done _ => exact h.withPart rfl hsup rfl
      | exit _ => exact h.withPart rfl hsup rfl
      | fatal _ _ => exact h.withPart rfl hsup rfl
      | failed _ _ => exact ⟨h.supply, h.parts⟩
  | notified _ => exact h.withPart rfl hsup rfl
  | @written n x launch made pending w hn hcourse =>
      exact absurd (h.parts x (List.mem_of_getElem? hn)) (Part.launch?_ne_none hcourse)
  | @ends n x launch made hn hcourse _ =>
      exact absurd (h.parts x (List.mem_of_getElem? hn)) (Part.launch?_ne_none hcourse)
  | supplied _ => exact ⟨hsup.trans h.supply, h.parts⟩

/-- With no program around, every steady turn is one of the shell. -/
theorem Idle.turn_eq_shell (h : p.Idle) {turn : Turn} (hsteady : turn.isSteady = true)
    (hstep : p.step writes turn = some q) : turn = .shell := by
  cases turn with
  | shell => rfl
  | system supply => cases hsteady
  | program n =>
      cases step_program_iff.mp hstep with
      | @written x _ _ _ _ hn hcourse =>
          exact absurd (h.parts x (List.mem_of_getElem? hn)) (Part.launch?_ne_none hcourse)
      | @ends x _ _ hn hcourse _ =>
          exact absurd (h.parts x (List.mem_of_getElem? hn)) (Part.launch?_ne_none hcourse)

theorem step_shell_of_ended {status : Status} (h : p.phase = .ended status) :
    p.step writes .shell = none := by
  simp only [step, h]

/-- Plays with no program around that go on from the same one until the line ends are the same. -/
theorem Idle.follow_unique {r : Play} {schedule' : List Turn} {status status' : Status}
    (h : p.Idle) (hsteady : ∀ turn ∈ schedule, turn.isSteady = true)
    (hsteady' : ∀ turn ∈ schedule', turn.isSteady = true)
    (hq : p.follow writes schedule = some q) (hqend : q.phase = .ended status)
    (hr : p.follow writes schedule' = some r) (hrend : r.phase = .ended status') : q = r := by
  induction schedule generalizing p schedule' with
  | nil =>
      obtain rfl := Option.some.inj hq
      cases schedule' with
      | nil => exact Option.some.inj hr
      | cons turn schedule' =>
          -- the line has ended, so nobody has another turn
          simp only [follow] at hr
          split at hr
          · cases hr
          · rename_i hstep
            rw [h.turn_eq_shell (hsteady' turn (by simp)) hstep, step_shell_of_ended hqend] at hstep
            cases hstep
  | cons turn schedule ih =>
      obtain ⟨hturn, hrest⟩ := List.forall_mem_cons.mp hsteady
      simp only [follow] at hq
      split at hq
      · cases hq
      · rename_i p' hstep
        rw [h.turn_eq_shell hturn hstep] at hstep
        cases schedule' with
        | nil =>
            obtain rfl := Option.some.inj hr
            rw [step_shell_of_ended hrend] at hstep
            cases hstep
        | cons turn' schedule' =>
            simp only [follow] at hr
            split at hr
            · cases hr
            · rename_i p'' hstep'
              obtain ⟨hturn', hrest'⟩ := List.forall_mem_cons.mp hsteady'
              rw [h.turn_eq_shell hturn' hstep', hstep] at hstep'
              obtain rfl := Option.some.inj hstep'
              have hsteady : Turn.shell.isSteady = true := rfl
              have hidle := h.step (step_inv hstep) (supply_of_step hsteady hstep)
              exact ih hidle hrest hrest' hq hr

/-- **On an exhausted system** all that can come of commands is what comes of them in a row. -/
theorem result_of_exhausted {s : Shell} {console : Console} {cs : List Command} {status : Status}
    (hsup : s.system.supply = .exhausted) (hsteady : ∀ turn ∈ schedule, turn.isSteady = true)
    (hp : (start s console cs).follow writes schedule = some p) (hend : p.phase = .ended status) :
    p.result status = s.runAll cs := by
  have hidle : (start s console cs).Idle := ⟨hsup, by simp [start]⟩
  obtain ⟨q, hq⟩ : ∃ q, Reaches writes (start s console cs) q (s.runCommands cs) :=
    reaches_runCommands cs rfl rfl
  have hevents : q.events = (s.runCommands cs).events := hq.events
  have hchildren : q.children = (s.runCommands cs).children := hq.children
  have hshell := hq.shell
  have hphase := hq.phase
  obtain ⟨schedule', hsteady', hlead⟩ := hq.leads
  unfold Shell.runAll
  have hnone : (s.runCommands cs).children = [] :=
    (s.children_runCommands cs).trans (Shell.launches_of_exhausted hsup cs)
  generalize s.runCommands cs = run at hevents hchildren hshell hphase hnone
  obtain ⟨shell, events, children, st⟩ := run
  simp only at hevents hchildren hshell hnone
  subst hnone
  cases st with
  | continues =>
      -- the shell has taken its turns, and there is no program to wait for
      have hqidle : q.Idle := follow_preserves_of_isSteady
        (fun _ _ hstep hsup h => Idle.step h hstep hsup) hsteady' hlead hidle
      have hfinish : Acted writes q { q with phase := .ended .continues } :=
        .finish hphase.1 hphase.2 fun x hx => Part.isOver_of_launch? (hqidle.parts x hx)
      obtain ⟨schedule₁, hsteady₁, hlead⟩ : Leads writes (start s console cs)
          { q with phase := .ended .continues } :=
        Leads.trans ⟨schedule', hsteady', hlead⟩ (.acted hfinish (.refl _))
      obtain rfl := hidle.follow_unique hsteady hsteady₁ hp hend hlead rfl
      obtain rfl : Status.continues = status := Phase.ended.inj hend
      simp only [result, hchildren, ← hshell, ← hevents]
      rfl
  | exits =>
      obtain rfl := hidle.follow_unique hsteady hsteady' hp hend hlead hphase
      obtain rfl : Status.exits = status := Phase.ended.inj (hphase.symm.trans hend)
      simp only [result, hchildren, ← hshell, ← hevents]
  | fails fault =>
      obtain rfl := hidle.follow_unique hsteady hsteady' hp hend hlead hphase
      obtain rfl : Status.fails fault = status := Phase.ended.inj (hphase.symm.trans hend)
      simp only [result, hchildren, ← hshell, ← hevents]

end Play

namespace Shell

variable {s s' : Shell} {c : Command} {into : Destination} {line : Text} {r : LineRun}

/-- So all that can come of a line is what comes of it if its programs write nothing. -/
theorem eq_runLine_of_exhausted (hsup : s.system.supply = .exhausted)
    (hr : s.PlaysSteadily line r) : r = s.runLine line := by
  obtain ⟨schedule, hsteady, hr⟩ := hr
  unfold PlaysAlong at hr
  split at hr
  · exact hr
  · rename_i cs hline
    obtain ⟨console, writes, p, status, hp, hend, rfl⟩ := hr
    rw [Play.result_of_exhausted hsup hsteady hp hend, runLine, hline]

/-! ## The first command in need of a process -/

theorem supply_of_mem_reached {cs : List Command} {x : Shell × Command} (h : x ∈ s.reached cs) :
    x.1.system.supply = s.system.supply := by
  induction cs generalizing s with
  | nil => cases h
  | cons c cs ih =>
      rw [reached] at h
      rcases List.mem_cons.mp h with rfl | h
      · rfl
      · split at h
        · cases h
        · exact (ih h).trans (sameGround_runCommand s c).supply

theorem isFatal_of_openTarget {target : Option Text} {fault : Fault}
    (h : s.openTarget target = .error fault) : fault.isFatal = false := by
  obtain ⟨path, cause, -, rfl⟩ := openTarget_eq_error h
  rfl

theorem isFatal_of_failed {fault : Fault} (h : s.runCommand c = (s', .failed fault into)) :
    fault.isFatal = false := by
  cases ho : s.openTarget c.target with
  | error f =>
      rw [runCommand_of_unopened ho] at h
      cases h
      exact isFatal_of_openTarget ho
  | ok x =>
      cases hc : x.1.carryOut c x.2 with
      | ok y =>
          rw [runCommand_of_completed ho hc] at h
          cases h
      | error f =>
          cases hf : f.isFatal with
          | true =>
              rw [runCommand_of_fatal ho hc hf] at h
              cases h
          | false =>
              rw [runCommand_of_failed ho hc hf] at h
              cases h
              exact hf

/-- What is reported while commands are run does not keep the shell from going on. -/
theorem isFatal_of_mem_faults {cs : List Command} {fault : Fault}
    (h : fault ∈ (s.runCommands cs).faults) : fault.isFatal = false := by
  induction cs generalizing s with
  | nil => cases h
  | cons c cs ih =>
      rw [runCommands_cons] at h
      rcases hrun : s.runCommand c with ⟨s', outcome⟩
      simp only [hrun] at h
      split at h
      · cases h
      · rw [LineRun.faults_after, List.mem_append] at h
        rcases h with h | h
        · cases outcome with
          | completed action => cases action <;> simp [Outcome.event?, Event.fault?] at h
          | fatal f => simp [Outcome.event?] at h
          | failed f into =>
              obtain rfl : fault = f := by simpa [Outcome.event?, Event.fault?] using h
              exact isFatal_of_failed hrun
        · exact ih h

/-- **The first command in need of a process**: of the commands before it, none needs one and none
exits; and when it is reached, its target can be opened, and it does need one then. The output would
go to `into`, and `s'` is the shell at that moment. -/
structure FirstInNeed (s : Shell) (before : List Command) (c : Command) (s' : Shell)
    (into : Destination) (path : Text) : Prop where
  earlier : ∀ x ∈ s.reached before, ∀ t i, x.1.openTarget x.2.target = .ok (t, i) →
    ¬ t.Exits x.2 ∧ ∀ p, ¬ t.Needs x.2 p
  opened : (s.runCommands before).shell.openTarget c.target = .ok (s', into)
  needs : s'.Needs c path

variable {before after : List Command} {path : Text}

theorem starves_of_exhausted (hsup : s.system.supply = .exhausted) (into : Destination)
    (h : s.Needs c path) : s.Starves c into path .noMemory where
  needs := h
  copied := by cases into <;> simp [System.copyTarget, hsup, Supply.exhausted]
  refused := by rw [hsup, Supply.refusal?_exhausted]
  exhausted := by decide

theorem errno_of_starves {e : Errno} (hsup : s.system.supply = .exhausted)
    (h : s.Starves c into path e) : .noMemory = e := by
  have hrefused := h.refused
  rw [hsup, Supply.refusal?_exhausted] at hrefused
  exact Option.some.inj hrefused

/-- On an exhausted system, commands continue if none of them needs a process and none exits. -/
theorem status_runCommands_eq_continues_iff_of_exhausted (hsup : s.system.supply = .exhausted) :
    (s.runCommands before).status = .continues ↔
      ∀ x ∈ s.reached before, ∀ t i, x.1.openTarget x.2.target = .ok (t, i) →
        ¬ t.Exits x.2 ∧ ∀ p, ¬ t.Needs x.2 p := by
  rw [status_runCommands_eq_continues_iff]
  constructor
  · intro h x hx t i ho
    have hends : ∀ status, ¬ t.Ends x.2 i status := fun status he => by
      have hstop := stop?_eq_some_iff.mpr ⟨t, i, ho, he⟩
      rw [h x hx] at hstop
      cases hstop
    have ht : t.system.supply = .exhausted :=
      (sameGround_of_openTarget ho).supply.trans ((supply_of_mem_reached hx).trans hsup)
    exact ⟨hends .exits, fun p hp =>
      hends (.fails _) ⟨p, .noMemory, starves_of_exhausted ht i hp, rfl⟩⟩
  · intro h x hx
    cases hstop : (x.1.runCommand x.2).2.stop? with
    | none => rfl
    | some status =>
        obtain ⟨t, i, ho, he⟩ := stop?_eq_some_iff.mp hstop
        obtain ⟨hexits, hneeds⟩ := h x hx t i ho
        cases status with
        | continues => exact he.elim
        | exits => exact absurd he hexits
        | fails fault =>
            obtain ⟨p, e, hstarves, -⟩ := he
            exact absurd hstarves.needs (hneeds p)

theorem runCommands_of_firstInNeed (hsup : s.system.supply = .exhausted)
    (h : s.FirstInNeed before c s' into path) :
    s.runCommands (before ++ c :: after) =
      { shell := s', events := (s.runCommands before).events,
        status := .fails (.createProcess path (.errno .noMemory)) } := by
  have hcont := (status_runCommands_eq_continues_iff_of_exhausted hsup).mpr h.earlier
  have hs' : s'.system.supply = .exhausted :=
    (sameGround_of_openTarget h.opened).supply.trans
      ((sameGround_runCommands s before).supply.trans hsup)
  obtain ⟨hc, hf⟩ : s'.carryOut c into = _ ∧ _ :=
    carryOut_eq_fatal_iff.mpr ⟨path, _, starves_of_exhausted hs' into h.needs, rfl⟩
  have hnone : (s.runCommands before).events.filterMap Event.launch? = [] :=
    launches_of_exhausted hsup before
  rw [runCommands_append_cons_of_stop hcont (runCommand_of_fatal h.opened hc hf) rfl after,
    LineRun.after, hnone]
  simp only [List.append_nil]

theorem exists_firstInNeed {cs : List Command} {fault : Fault}
    (hsup : s.system.supply = .exhausted) (h : (s.runCommands cs).status = .fails fault) :
    ∃ before c after s' into path, cs = before ++ c :: after ∧
      s.FirstInNeed before c s' into path ∧ fault = .createProcess path (.errno .noMemory) := by
  obtain ⟨before, c, after, hcs, hcont, hstop⟩ := exists_stop_of_status h (by simp)
  obtain ⟨s', into, ho, path, e, hstarves, hfault⟩ := stop?_eq_some_iff.mp hstop
  have hearlier := (status_runCommands_eq_continues_iff_of_exhausted hsup).mp hcont
  have hs' : s'.system.supply = .exhausted :=
    (sameGround_of_openTarget ho).supply.trans ((sameGround_runCommands s before).supply.trans hsup)
  obtain rfl : Errno.noMemory = e := errno_of_starves hs' hstarves
  exact ⟨before, c, after, s', into, path, hcs, ⟨hearlier, ho, hstarves.needs⟩, hfault⟩

/-- **A line fails exactly where processes have run out.** Let the supply stay as it is while a line
is played. Where there is no limit to the processes that can be created, whatever comes of a line is
no failure, also if targets cannot be copied. On an exhausted system, a line fails exactly if it is
accepted and has a first command in need of a process. The fault names the program of this command.
What the commands before it have done stays, and so does what they have reported; its own target has
been opened and emptied, nothing has been written into it, and of the fatal fault nothing has been
reported. -/
theorem fails_iff_of_plays (hr : s.PlaysSteadily line r) :
    (s.system.supply.limit = none → ∀ fault, r.status ≠ .fails fault) ∧
      (s.system.supply = .exhausted → ∀ fault, r.status = .fails fault ↔
        ∃ before c after s' into path, Line.commands line = .ok (before ++ c :: after) ∧
          s.FirstInNeed before c s' into path ∧
            fault = .createProcess path (.errno .noMemory)) ∧
      (s.system.supply = .exhausted → ∀ before c after s' into path,
        Line.commands line = .ok (before ++ c :: after) →
          s.FirstInNeed before c s' into path →
            r = { shell := s', events := (s.runCommands before).events,
                  status := .fails (.createProcess path (.errno .noMemory)) } ∧
              (∀ loc, into = .file loc →
                ∃ mode, r.shell.system.tree.node? loc = some (.file mode (.octets []))) ∧
              ∀ fault ∈ r.faults, fault.isFatal = false) := by
  have heffect (hsup : s.system.supply = .exhausted) {before c after s' into path}
      (hline : Line.commands line = .ok (before ++ c :: after))
      (h : s.FirstInNeed before c s' into path) :
      r = { shell := s', events := (s.runCommands before).events,
            status := .fails (.createProcess path (.errno .noMemory)) } := by
    rw [eq_runLine_of_exhausted hsup hr, runLine, hline]
    simp only [runAll, runCommands_of_firstInNeed hsup h]
  refine ⟨?_, ?_, ?_⟩
  · intro hsup fault
    obtain ⟨schedule, hsteady, hr⟩ := hr
    unfold PlaysAlong at hr
    split at hr
    · rename_i m hline
      rw [hr, runLine, hline]
      simp
    · obtain ⟨console, writes, p, status, hp, hend, rfl⟩ := hr
      have hne := Play.ne_fails_of_unlimited hsup (by simp [Play.start]) hsteady hp fault
      rw [hend] at hne
      rw [Play.status_result]
      exact fun hst => hne (congrArg _ hst)
  · intro hsup fault
    constructor
    · intro h
      rw [eq_runLine_of_exhausted hsup hr, runLine] at h
      split at h
      · cases h
      · rename_i cs hline
        have hstatus : (s.runCommands cs).status = .fails fault := by
          rw [runAll] at h
          cases hst : (s.runCommands cs).status with
          | continues =>
              simp only [hst, LineRun.status_await] at h
              cases hst.symm.trans h
          | exits =>
              simp only [hst] at h
              cases h
          | fails f =>
              simp only [hst] at h
              exact h
        obtain ⟨before, c, after, s', into, path, rfl, hfirst, hfault⟩ :=
          exists_firstInNeed hsup hstatus
        exact ⟨before, c, after, s', into, path, hline, hfirst, hfault⟩
    · rintro ⟨before, c, after, s', into, path, hline, hfirst, rfl⟩
      rw [heffect hsup hline hfirst]
  · intro hsup before c after s' into path hline hfirst
    have hr := heffect hsup hline hfirst
    refine ⟨hr, ?_, ?_⟩
    · rintro loc rfl
      obtain ⟨mode, hn, -⟩ := Play.emptied_of_openTarget hfirst.opened
      exact ⟨mode, by rw [hr]; exact hn⟩
    · intro fault hmem
      rw [hr] at hmem
      exact isFatal_of_mem_faults hmem

/-- A shell over a single program, on a system where no process can be created. -/
def starved : Shell := { overProbe with system := { overProbe.system with supply := .exhausted } }

def nopeProbeCd : Text := text "nope & probe > out & cd bin"

/-- The unknown name is reported, and the program empties its target and no more. -/
theorem fails_nopeProbeCd : ∃ r, starved.PlaysSteadily nopeProbeCd r ∧
    r.status = .fails (.createProcess (text "/bin/probe") (.errno .noMemory)) ∧
      r.events = [.reported (.unknownCommand (text "nope")) .inherited] ∧
      ∃ mode, r.shell.system.tree.node? [text "out"] = some (.file mode (.octets [])) := by
  let nope : Command := { name := text "nope", operands := [], target := none }
  let probe : Command := { name := text "probe", operands := [], target := some (text "out") }
  have hr := starved.playsSteadily_runLine nopeProbeCd
  have hline : Line.commands nopeProbeCd = .ok ([nope] ++ probe ::
      [{ name := text "cd", operands := [text "bin"], target := none }]) := by decide
  have hcontinues : (starved.runCommands [nope]).status = .continues := by decide
  have hearlier := (status_runCommands_eq_continues_iff_of_exhausted rfl).mp hcontinues
  have hfirst : starved.FirstInNeed [nope] probe _ (.file [text "out"]) (text "/bin/probe") :=
    ⟨hearlier, rfl, by decide, by decide⟩
  obtain ⟨-, hstatus, heffect⟩ := fails_iff_of_plays hr
  obtain ⟨hrun, hempty, -⟩ := heffect rfl _ _ _ _ _ _ hline hfirst
  refine ⟨_, hr, (hstatus rfl _).mpr ⟨_, _, _, _, _, _, hline, hfirst, rfl⟩, ?_, hempty _ rfl⟩
  rw [hrun]
  rfl

end Shell

end ParallelShell
