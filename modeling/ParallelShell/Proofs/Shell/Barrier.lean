import Mathlib.Data.List.Perm.Subperm
import ParallelShell.Proofs.Output.Performance
import ParallelShell.Proofs.Output.Redirection
import ParallelShell.Proofs.Shell.Stops

set_option autoImplicit false

/-! # The barrier at the end of a line

The programs of a line run side by side, but those of two lines never do. Whatever has come of a
line so far, the programs that are running are those of the line that have not ended, besides those
that were running before it (`Play.runsAfter_of_follow`); and the children of the shell are those it
has started (`Play.children_of_follow`). A line that continues has waited for its children, for each
of them once; a line that ends early has waited for none.

So when a command of a line is carried out, no program of an earlier line that has continued is
running: `Shell.running_of_hasRun`, by induction on the lines that have been run.
-/

namespace ParallelShell

/-! ## The programs that are running -/

def Action.launch? : Action → Option Launch
  | started launch => some launch
  | _ => none

namespace Shell

variable {s s' : Shell} {into : Destination}

theorem running_of_openTarget {target : Option Text} (h : s.openTarget target = .ok (s', into)) :
    s'.system.running = s.system.running := by
  obtain ⟨tree, rfl⟩ := exists_tree_of_openTarget h
  rfl

theorem running_of_carryOut {c : Command} {action : Action}
    (h : s.carryOut c into = .ok (s', action)) :
    s'.system.running = action.launch?.toList ++ s.system.running := by
  rcases carryOut_eq_ok h with ⟨_, _, _, _, rfl, rfl⟩ | ⟨_, _, rfl, rfl⟩ |
    ⟨_, _, _, _, _, rfl, rfl⟩ | ⟨_, rfl, rfl⟩ <;> rfl

end Shell

/-- The program that was started for a command, if it has not ended. -/
def Part.live? (x : Part) : Option Launch :=
  match x.course with
  | .program launch _ _ => if x.ended then none else some launch
  | _ => none

/-- An element of a list whose image is dropped takes it from the images of the list. -/
theorem filterMap_perm_cons_filterMap_set {α β : Type} {f : α → Option β} {l : List α} {n : Nat}
    {x y : α} {b : β} (hn : l[n]? = some x) (hx : f x = some b) (hy : f y = none) :
    (l.filterMap f).Perm (b :: (l.set n y).filterMap f) := by
  induction l generalizing n with
  | nil => cases hn
  | cons z l ih =>
      cases n with
      | zero =>
          obtain rfl : z = x := Option.some.inj hn
          rw [List.set_cons_zero, List.filterMap_cons_some hx, List.filterMap_cons_none hy]
      | succ n =>
          rw [List.set_cons_succ]
          cases hz : f z with
          | none =>
              rw [List.filterMap_cons_none hz, List.filterMap_cons_none hz]
              exact ih hn
          | some c =>
              rw [List.filterMap_cons_some hz, List.filterMap_cons_some hz]
              exact ((ih hn).cons c).trans (.swap b c _)

namespace Play

variable {writes : Nat → Launch → List Write} {p q : Play} {schedule : List Turn}
  {old : List Launch}

/-- The programs of the line that have not ended. -/
def live (p : Play) : List Launch := p.parts.filterMap Part.live?

/-- Besides some old programs, those of the line are running that have not ended. -/
def RunsAfter (old : List Launch) (p : Play) : Prop :=
  ∃ new, p.shell.system.running = new ++ old ∧ new.Perm p.live

/-- A command that becomes a part leaves one more program running, if it has started one. -/
theorem RunsAfter.withPart (h : p.RunsAfter old) {x : Part} (hparts : q.parts = p.parts ++ [x])
    (hq : q.shell.system.running = x.live?.toList ++ p.shell.system.running) :
    q.RunsAfter old := by
  obtain ⟨new, hrunning, hperm⟩ := h
  have hlive : q.live = p.live ++ x.live?.toList := by
    rw [live, hparts, List.filterMap_append, live]
    cases hx : x.live? <;> simp [hx]
  refine ⟨x.live?.toList ++ new, by rw [hq, hrunning, List.append_assoc], ?_⟩
  rw [hlive]
  exact (hperm.append_left _).trans List.perm_append_comm

theorem RunsAfter.carryOut (h : p.RunsAfter old) (c : Command) (into : Destination) :
    (p.carryOut writes c into).RunsAfter old := by
  have hcomes := comesTo_carryOut writes p c into
  generalize p.carryOut writes c into = q at hcomes ⊢
  cases hcomes with
  | started hc => exact h.withPart rfl (Shell.running_of_carryOut hc)
  | done hc => exact h.withPart rfl (Shell.running_of_carryOut hc)
  | exit hc => exact h.withPart rfl (Shell.running_of_carryOut hc)
  | fatal _ _ => exact h.withPart rfl rfl
  | failed _ _ => exact h

/-- **Every turn** leaves those programs of the line running that have not ended. -/
theorem RunsAfter.step (h : p.RunsAfter old) (hstep : Step writes p q) : q.RunsAfter old := by
  cases hstep with
  | finish _ _ _ => exact h
  | unopened _ _ _ => exact h
  | opened _ _ ho =>
      obtain ⟨new, hrunning, hperm⟩ := h
      exact ⟨new, (Shell.running_of_openTarget ho).trans hrunning, hperm⟩
  | carriedOut _ => exact h.carryOut _ _
  | @notified c fault into _ =>
      rw [notify_eq]
      exact h.withPart rfl rfl
  | @written n x launch made pending w hn hcourse =>
      obtain ⟨new, hrunning, hperm⟩ := h
      refine ⟨new, hrunning, ?_⟩
      let y : Part := { x with course := .program launch (made ++ [w]) pending }
      have hlive : y.live? = x.live? := by simp only [y, Part.live?, hcourse]
      rw [live, parts_withWritten, filterMap_set_of_getElem? Part.live? hn hlive]
      exact hperm
  | @ends n x launch made hn hcourse hended =>
      -- the program is one of those of the line, so none of the old ones is taken for it
      obtain ⟨new, hrunning, hperm⟩ := h
      have hlive : x.live? = some launch := by simp [Part.live?, hcourse, hended]
      have hnone : Part.live? { x with ended := true } = none := by simp [Part.live?, hcourse]
      have hcons := hperm.trans (filterMap_perm_cons_filterMap_set hn hlive hnone)
      obtain ⟨hmem, hrest⟩ := List.cons_perm_iff_perm_erase.mp hcons.symm
      refine ⟨new.erase launch, ?_, hrest.symm⟩
      have herase : (p.withEnded n x launch).shell.system.running =
          p.shell.system.running.erase launch := rfl
      rw [herase, hrunning, List.erase_append_left _ hmem]
  | supplied _ => exact h

theorem runsAfter_of_follow {s : Shell} {console : Console} {cs : List Command}
    (h : (start s console cs).follow writes schedule = some p) : p.RunsAfter s.system.running :=
  follow_preserves (fun _ _ hstep hr => hr.step hstep) h ⟨[], rfl, .refl _⟩

/-- Once all programs of the line have ended, only the old ones are running. -/
theorem RunsAfter.running_of_isOver (h : p.RunsAfter old)
    (hover : ∀ x ∈ p.parts, x.isOver = true) : p.shell.system.running = old := by
  obtain ⟨new, hrunning, hperm⟩ := h
  have hlive : p.live = [] := by
    refine List.filterMap_eq_nil_iff.mpr fun x hx => ?_
    have hx := hover x hx
    unfold Part.isOver at hx
    unfold Part.live?
    split
    · rename_i hcourse
      simp only [hcourse, Bool.and_eq_true] at hx
      exact if_pos hx.2
    · rfl
  rw [hlive] at hperm
  rw [hrunning, hperm.eq_nil, List.nil_append]

/-! ## The children of the shell -/

theorem launches_withPart (p : Play) (x : Part) :
    (p.withPart x).launches = p.launches ++ x.event?.toList.filterMap Event.launch? := by
  rw [launches, events_withPart, List.filterMap_append, launches]

theorem children_carryOut (h : p.children = p.launches) (c : Command) (into : Destination) :
    (p.carryOut writes c into).children = (p.carryOut writes c into).launches := by
  have hcomes := comesTo_carryOut writes p c into
  generalize p.carryOut writes c into = q at hcomes ⊢
  have hsame : ∀ (s : Shell) (x : Part), x.event? = none →
      p.children = (({ p with shell := s } : Play).withPart x).launches := fun s x hx => by
    rw [launches_withPart, hx]
    exact h.trans (List.append_nil _).symm
  cases hcomes with
  | @started s launch hc =>
      rw [launches_withPart]
      exact congrArg (· ++ [launch]) h
  | done _ => exact hsame _ _ rfl
  | exit _ => exact hsame _ _ rfl
  | fatal _ _ => exact hsame p.shell _ rfl
  | failed _ _ => exact h

/-- **Every turn** leaves the programs that the line has started the children of the shell: until
the line has ended, none is waited for. -/
theorem children_step (hstep : Step writes p q) (h : p.children = p.launches) :
    q.children = q.launches := by
  cases hstep with
  | finish _ _ _ => exact h
  | unopened _ _ _ => exact h
  | opened _ _ _ => exact h
  | carriedOut _ => exact children_carryOut h _ _
  | @notified c fault into _ =>
      rw [notify_eq, launches_withPart]
      exact h.trans (List.append_nil _).symm
  | @written n x launch made pending w hn hcourse =>
      have hevent := event?_eq_of_program hcourse (made ++ [w]) pending
      have hsame := filterMap_set_of_getElem? Part.event? hn hevent
      rw [launches, events, parts_withWritten, hsame]
      exact h
  | @ends n x launch made hn _ _ =>
      rw [launches, events, parts_withEnded,
        filterMap_set_of_getElem? Part.event? hn (event?_ended x)]
      exact h
  | supplied _ => exact h

theorem children_of_follow {s : Shell} {console : Console} {cs : List Command}
    (h : (start s console cs).follow writes schedule = some p) : p.children = p.launches :=
  follow_preserves (fun _ _ => children_step) h rfl

/-- The programs of a line that have not ended are some of those it has started. -/
theorem live_sublist_launches (p : Play) : p.live.Sublist p.launches := by
  have hparts : ∀ parts : List Part, (parts.filterMap Part.live?).Sublist
      ((parts.filterMap Part.event?).filterMap Event.launch?) := by
    intro parts
    induction parts with
    | nil => exact .slnil
    | cons x parts ih =>
        obtain ⟨command, directory, into, course, ended⟩ := x
        cases course with
        | program launch made pending =>
            cases ended with
            | true => exact ih.cons launch
            | false => exact ih.cons_cons launch
        | failed fault => exact ih
        | done => exact ih
        | fatal fault => exact ih
  exact hparts p.parts

/-! ## The programs that are waited for -/

/-- While the commands are run, no program is waited for. -/
theorem waited_not_mem_events (p : Play) (n : Nat) : Event.waited n ∉ p.events := by
  intro h
  obtain ⟨x, -, hx⟩ := List.mem_filterMap.mp h
  unfold Part.event? at hx
  split at hx <;> cases hx

end Play

/-- **Each program was waited for exactly once**, and nothing else was. -/
def LineRun.WaitedOnce (r : LineRun) : Prop :=
  ∀ n, r.events.count (.waited n) = if n < r.launches.length then 1 else 0

theorem count_map_waited (k n : Nat) :
    ((List.range k).map Event.waited).count (.waited n) = if n < k then 1 else 0 := by
  have hnodup : ((List.range k).map Event.waited).Nodup :=
    List.nodup_range.map fun _ _ h => Event.waited.inj h
  simp [hnodup.count]

/-- A line that continues has waited for each of its programs. -/
theorem Play.waitedOnce_result {p : Play} (h : p.children = p.launches) :
    (p.result .continues).WaitedOnce := by
  intro n
  have hevents : (p.result .continues).events =
      p.events ++ (List.range p.children.length).map .waited := by
    rw [result, LineRun.await_eq]
  rw [launches_result, hevents, h, List.count_append,
    List.count_eq_zero_of_not_mem (p.waited_not_mem_events n), count_map_waited, Nat.zero_add]

/-! ## Line after line -/

namespace Shell

/-- **A session so far**: a shell has run some lines, and is now the shell that the last of them has
left. -/
inductive HasRun (s : Shell) : List LineRun → Shell → Prop
  | start : HasRun s [] s
  | line {runs : List LineRun} {t : Shell} {line : Text} {r : LineRun} :
      HasRun s runs t → t.Plays line r → HasRun s (runs ++ [r]) r.shell

/-- **How a line leaves its programs.** If it continues, it has waited for each of them, and exactly
once. If it has ended early, all of them are children that have not been waited for. -/
structure Settles (r : LineRun) : Prop where
  waited : r.status = .continues → r.WaitedOnce ∧ r.children = []
  unwaited : r.status ≠ .continues → r.children = r.launches ∧ ∀ n, .waited n ∉ r.events

variable {s t : Shell} {line : Text} {r : LineRun} {runs : List LineRun}

theorem settles_of_plays (hr : s.Plays line r) : Settles r := by
  obtain ⟨schedule, hr⟩ := hr
  unfold PlaysAlong at hr
  split at hr
  · rename_i m hline
    rw [hr, runLine, hline]
    refine ⟨fun _ => ⟨fun n => ?_, rfl⟩, fun hne => absurd rfl hne⟩
    simp [LineRun.launches, Event.launch?, List.filterMap]
  · obtain ⟨console, writes, p, status, hp, -, rfl⟩ := hr
    have hchildren : p.children = p.launches := Play.children_of_follow hp
    refine ⟨fun hcont => ?_, fun hne => ?_⟩
    · obtain rfl : status = .continues := by simpa using hcont
      exact ⟨p.waitedOnce_result hchildren, LineRun.children_await _⟩
    · rw [Play.status_result] at hne
      rw [Play.launches_result]
      cases status with
      | continues => exact absurd rfl hne
      | exits => exact ⟨hchildren, p.waited_not_mem_events⟩
      | fails fault => exact ⟨hchildren, p.waited_not_mem_events⟩

/-- What a line leaves running: what was running before it, and perhaps some of its children. -/
theorem running_of_plays (hr : s.Plays line r) :
    ∃ new, r.shell.system.running = new ++ s.system.running ∧ new.Subperm r.children := by
  have hsettles := settles_of_plays hr
  obtain ⟨schedule, hr⟩ := hr
  unfold PlaysAlong at hr
  split at hr
  · rename_i m hline
    rw [hr, runLine, hline]
    exact ⟨[], rfl, List.nil_subperm⟩
  · obtain ⟨console, writes, p, status, hp, hend, rfl⟩ := hr
    have hruns : p.RunsAfter s.system.running := Play.runsAfter_of_follow hp
    rw [Play.shell_result]
    by_cases hcont : status = .continues
    · -- the programs of a line that continues have all ended
      subst hcont
      exact ⟨[], hruns.running_of_isOver ((Play.inOrder_of_follow hp).finished hend).2,
        List.nil_subperm⟩
    · obtain ⟨new, hrunning, hperm⟩ := hruns
      refine ⟨new, hrunning, ?_⟩
      rw [(hsettles.unwaited (by simpa using hcont)).1, Play.launches_result]
      exact hperm.subperm.trans p.live_sublist_launches.subperm

/-- What any number of lines leave running. -/
theorem HasRun.running (h : s.HasRun runs t) :
    ∃ new, t.system.running = new ++ s.system.running ∧
      new.Subperm (runs.flatMap LineRun.children) := by
  induction h with
  | start => exact ⟨[], rfl, List.nil_subperm⟩
  | line _ hr ih =>
      obtain ⟨new, hnew, hsub⟩ := ih
      obtain ⟨newer, hnewer, hsub'⟩ := running_of_plays hr
      refine ⟨newer ++ new, by rw [hnewer, hnew, List.append_assoc], ?_⟩
      rw [List.flatMap_append, List.flatMap_singleton]
      exact (hsub'.append hsub).trans List.perm_append_comm.subperm

theorem HasRun.settles (h : s.HasRun runs t) : ∀ r ∈ runs, Settles r := by
  induction h with
  | start => simp
  | line _ hr ih =>
      exact List.forall_mem_append.mpr ⟨ih, List.forall_mem_singleton.mpr (settles_of_plays hr)⟩

theorem HasRun.running_of_continues (h : s.HasRun runs t)
    (hcont : ∀ r ∈ runs, r.status = .continues) : t.system.running = s.system.running := by
  have hnone : runs.flatMap LineRun.children = [] :=
    List.flatMap_eq_nil_iff.mpr fun r hr => ((h.settles r hr).waited (hcont r hr)).2
  obtain ⟨new, hnew, hsub⟩ := h.running
  rw [hnone] at hsub
  rw [hnew, List.subperm_nil.mp hsub, List.nil_append]

/-- **The line barrier.** Take any session so far, whatever the programs of its lines wrote, whoever
was faster, and whatever the system granted. Each program of a line that has continued has been
waited for, and exactly once; those of a line that has ended early have not, and of all programs
only they may still be running. So if all the lines have continued, no program of theirs is running
any more.

Now take whatever comes of the next line. At every moment of it, also when a command is carried out,
the programs that are running are those that were running before the line, and those of the line
that have not ended. If the line continues, then all of its programs have made their last write and
have ended, each has been waited for exactly once, and none is left, neither running nor as a child.
If the line ends early, then some command has ended it, and exactly those programs are left unwaited
that the line had started when it came to this command; none has been waited for. A malformed line
starts none. -/
theorem running_of_hasRun (h : s.HasRun runs t) :
    (∀ r ∈ runs, Settles r) ∧
    (∃ new, t.system.running = new ++ s.system.running ∧
      new.Subperm (runs.flatMap LineRun.children)) ∧
    ((∀ r ∈ runs, r.status = .continues) → t.system.running = s.system.running) ∧
    (∀ console writes schedule cs p,
      (Play.start t console cs).follow writes schedule = some p →
        (∃ new, p.shell.system.running = new ++ t.system.running ∧ new.Perm p.live) ∧
        (p.phase = .ended .continues →
          (∀ x ∈ p.parts, x.isOver = true) ∧ (p.result .continues).WaitedOnce ∧
            (p.result .continues).children = [] ∧
            (p.result .continues).shell.system.running = t.system.running) ∧
        ∀ status, p.phase = .ended status → status ≠ .continues →
          ∃ q, Play.Acts writes (.start t console cs) schedule q ∧ q.Stops status ∧
            (p.result status).launches = q.launches ∧ (p.result status).children = q.launches ∧
            ∀ n, .waited n ∉ (p.result status).events) ∧
    ∀ line m r, Line.commands line = .error m → t.Plays line r →
      r.status = .continues ∧ r.launches = [] ∧ r.children = [] ∧ (∀ n, .waited n ∉ r.events) ∧
        r.shell.system.running = t.system.running := by
  refine ⟨h.settles, h.running, h.running_of_continues, ?_, ?_⟩
  · intro console writes schedule cs p hp
    have hruns : p.RunsAfter t.system.running := Play.runsAfter_of_follow hp
    have hchildren : p.children = p.launches := Play.children_of_follow hp
    refine ⟨hruns, ?_, ?_⟩
    · intro hend
      have hover := ((Play.inOrder_of_follow hp).finished hend).2
      refine ⟨hover, p.waitedOnce_result hchildren, LineRun.children_await _, ?_⟩
      rw [Play.shell_result]
      exact hruns.running_of_isOver hover
    · intro status hend hne
      obtain ⟨q, hq, hstops | ⟨hcont, -⟩⟩ :=
        Play.exists_acts_of_ended (by simp [Play.start]) hp hend
      case inr => exact absurd hcont hne
      obtain ⟨-, -, -, hevents⟩ := Play.phase_of_stops hq hstops hp
      have hlaunches : p.launches = q.launches := by rw [Play.launches, hevents, Play.launches]
      refine ⟨q, hq, hstops, (Play.launches_result p status).trans hlaunches, ?_⟩
      cases status with
      | continues => exact absurd rfl hne
      | exits => exact ⟨hchildren.trans hlaunches, p.waited_not_mem_events⟩
      | fails fault => exact ⟨hchildren.trans hlaunches, p.waited_not_mem_events⟩
  · intro line m r hline hr
    obtain ⟨schedule, hr⟩ := hr
    simp only [PlaysAlong, hline] at hr
    rw [hr, runLine, hline]
    exact ⟨rfl, rfl, rfl, by simp, rfl⟩

/-- A system on which no more than two programs can run at once. -/
def crowded : Shell :=
  { overProbe with
    system := { overProbe.system with supply := { limit := some (2, .tryAgain) } } }

def threeProbes : List Command :=
  List.replicate 3 { name := text "probe", operands := [], target := none }

/-- After a line of two programs come two that end early: one exits when it has started a program,
the other is refused the third process. The first of its two programs has ended by the time. -/
theorem running_threeProbes : ∃ r t p q, crowded.HasRun [r] t ∧
    r.launches.length = 2 ∧ r.WaitedOnce ∧ r.children = [] ∧ t.system.running = [] ∧
      (Play.start t (.ofInput []) Play.probeExitNope).follow Play.oneWrite
        [.shell, .shell, .shell, .shell] = some p ∧
      (p.result .exits).children.length = 1 ∧
      (Play.start t (.ofInput []) threeProbes).follow Play.oneWrite
        [.shell, .shell, .shell, .shell, .shell, .shell, .program 0, .program 0] = some q ∧
      (q.result (.fails (.createProcess (text "/bin/probe") (.errno .tryAgain)))).children.length
        = 2 ∧ q.live.length = 1 := by
  let r := crowded.runLine (text "probe & probe")
  have hrun : crowded.HasRun ([] ++ [r]) r.shell := .line .start (crowded.plays_runLine _)
  have hcont : r.status = .continues := by decide
  obtain ⟨hsettles, -, hnone, hnext, -⟩ := running_of_hasRun hrun
  obtain ⟨hwaited, hchildren⟩ := (hsettles r (by simp)).waited hcont
  have hempty : r.shell.system.running = [] := hnone fun r' hr' => by
    rw [List.mem_singleton.mp hr', hcont]
  have hexit : ((Play.start r.shell (.ofInput []) Play.probeExitNope).follow Play.oneWrite
      [.shell, .shell, .shell, .shell]).map (fun p => (p.phase, p.launches.length)) =
        some (.ended .exits, 1) := by decide
  obtain ⟨p, hp, hpair⟩ := Option.map_eq_some_iff.mp hexit
  obtain ⟨hend, hlength⟩ := Prod.mk.inj hpair
  obtain ⟨_, _, _, hl, hc, _⟩ := (hnext _ _ _ _ p hp).2.2 _ hend (by simp)
  have hfails : ((Play.start r.shell (.ofInput []) threeProbes).follow Play.oneWrite
      [.shell, .shell, .shell, .shell, .shell, .shell, .program 0, .program 0]).map
        (fun q => (q.phase, q.launches.length, q.live.length)) =
        some (.ended (.fails (.createProcess (text "/bin/probe") (.errno .tryAgain))), 2, 1) := by
    decide
  obtain ⟨q, hq, htriple⟩ := Option.map_eq_some_iff.mp hfails
  obtain ⟨hend', hlengths⟩ := Prod.mk.inj htriple
  obtain ⟨hlength', hlive⟩ := Prod.mk.inj hlengths
  obtain ⟨_, _, _, hl', hc', _⟩ := (hnext _ _ _ _ q hq).2.2 _ hend' (by simp)
  refine ⟨r, r.shell, p, q, hrun, by decide, hwaited, hchildren, hempty, hp, ?_, hq, ?_, hlive⟩
  · rw [hc, ← hl, Play.launches_result, hlength]
  · rw [hc', ← hl', Play.launches_result, hlength']

end Shell

end ParallelShell
