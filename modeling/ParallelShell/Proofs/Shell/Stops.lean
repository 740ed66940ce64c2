import ParallelShell.Proofs.Shell.Endings
import ParallelShell.Proofs.Shell.Turns

set_option autoImplicit false

/-! # Where a line stops

A line that has ended was ended in a turn of the shell, by a command or because none was left
(`Play.exists_acts_of_ended`). A command that ends a line is the last one to have its turn
(`Play.phase_of_stops`), and what stands behind it makes no difference: `Play.status_iff_of_follow`.
-/

namespace ParallelShell

namespace Play

variable {writes : Nat → Launch → List Write} {p q r : Play} {schedule : List Turn}
  {status : Status} {s : Shell} {console : Console} {cs : List Command}

/-- **A command ends the line**: its target has just been opened, and carrying it out ends the line
with some status. -/
def Stops (p : Play) (status : Status) : Prop :=
  ∃ c into, p.phase = .opened c into ∧ p.shell.Ends c into status

def IsThrough (p : Play) : Prop := p.phase = .ready ∧ p.left = []

/-- What the shell's turn comes to after a target was opened. -/
theorem phase_carryOut_eq_ended_iff {c : Command} {into : Destination} :
    (p.carryOut writes c into).phase = .ended status ↔ p.shell.Ends c into status := by
  have hcomes := comesTo_carryOut writes p c into
  generalize p.carryOut writes c into = q at hcomes ⊢
  cases hcomes with
  | started hc => simp [Shell.ends_iff_of_ok hc, withPart]
  | done hc => simp [Shell.ends_iff_of_ok hc, withPart]
  | exit hc => simp [Shell.ends_iff_of_ok hc, eq_comm]
  | fatal hc hf => simp [Shell.ends_iff_of_error hc, hf, eq_comm]
  | failed hc hf => simp [Shell.ends_iff_of_error hc, hf]

/-- **A turn of the shell ends the line** if a command does, or if there is none left. -/
theorem phase_eq_ended_iff_of_step (h : p.step writes .shell = some q) :
    q.phase = .ended status ↔ p.Stops status ∨ (status = .continues ∧ p.IsThrough) := by
  cases acted_of_step h with
  | finish hp hl _ =>
      have hstops : ¬ p.Stops status := by simp [Stops, hp]
      simp [hstops, IsThrough, hp, hl, eq_comm]
  | unopened hp hl _ => simp [Stops, IsThrough, hp, hl]
  | opened hp hl _ => simp [Stops, IsThrough, hp, hl]
  | carriedOut hp =>
      rw [phase_carryOut_eq_ended_iff]
      simp [Stops, IsThrough, hp]
  | notified hp => simp [notify, withPart, Stops, IsThrough, hp]

/-- The turn that has ended a line. -/
theorem exists_acts_of_ended (hp : ∀ st, p.phase ≠ .ended st)
    (hq : p.follow writes schedule = some q) (hend : q.phase = .ended status) :
    ∃ r, Acts writes p schedule r ∧ (r.Stops status ∨ (status = .continues ∧ r.IsThrough)) := by
  induction schedule generalizing p with
  | nil =>
      obtain rfl := Option.some.inj hq
      exact absurd hend (hp status)
  | cons turn schedule ih =>
      obtain ⟨r, hstep, hq⟩ := follow_cons_eq_some_iff.mp hq
      by_cases hr : ∃ st, r.phase = .ended st
      · obtain ⟨st, hr⟩ := hr
        have hsame := (sameTurn_of_ended hr hq).phase
        obtain rfl : status = st := Phase.ended.inj (hend.symm.trans (hsame.trans hr))
        by_cases hturn : turn = .shell
        · subst hturn
          exact ⟨p, .now p schedule, (phase_eq_ended_iff_of_step hstep).mp hr⟩
        · have hsame := sameTurn_of_ne_shell hstep hturn
          exact absurd (hsame.phase.symm.trans hr) (hp status)
      · obtain ⟨x, hx, hends⟩ := ih (fun st h => hr ⟨st, h⟩) hq
        exact ⟨x, .later hstep hx, hends⟩

/-- Nothing is told of a command that ends the line. -/
theorem events_carryOut_of_ends (writes : Nat → Launch → List Write) {c : Command}
    {into : Destination} (h : p.shell.Ends c into status) :
    (p.carryOut writes c into).parts.length = p.parts.length + 1 ∧
      (p.carryOut writes c into).events = p.events := by
  have hcomes := comesTo_carryOut writes p c into
  generalize p.carryOut writes c into = q at hcomes ⊢
  cases hcomes with
  | started hc => cases ((Shell.ends_iff_of_ok hc).mp h).1
  | done hc => cases ((Shell.ends_iff_of_ok hc).mp h).1
  | exit _ => exact ⟨by simp [withPart], (events_withPart _ _).trans (List.append_nil _)⟩
  | fatal _ _ => exact ⟨by simp [withPart], (events_withPart _ _).trans (List.append_nil _)⟩
  | failed hc hf => cases hf.symm.trans ((Shell.ends_iff_of_error hc).mp h).1

/-- **A command that ends the line** is the last one to have its turn. -/
theorem phase_of_stops (hr : Acts writes p schedule r) (hstops : r.Stops status)
    (hq : p.follow writes schedule = some q) :
    q.phase = .ended status ∧ q.left = r.left ∧ q.parts.length = r.parts.length + 1 ∧
      q.events = r.events := by
  induction hr with
  | now p schedule =>
      obtain ⟨r, hstep, hq⟩ := follow_cons_eq_some_iff.mp hq
      have hend := (phase_eq_ended_iff_of_step hstep).mpr (Or.inl hstops)
      have hsame := sameTurn_of_ended hend hq
      obtain ⟨c, into, hp, hends⟩ := hstops
      simp only [step, hp] at hstep
      obtain rfl := Option.some.inj hstep
      obtain ⟨hlength, hevents⟩ := events_carryOut_of_ends writes hends
      exact ⟨hsame.phase.trans hend, hsame.left.trans (left_carryOut writes p c into),
        hsame.length.trans hlength, hsame.events.trans hevents⟩
  | later hstep _ ih =>
      obtain ⟨r, hstep', hq⟩ := follow_cons_eq_some_iff.mp hq
      obtain rfl := Option.some.inj (hstep.symm.trans hstep')
      exact ih hstops hq

/-- Behind a command that ends the line are the commands that follow it in the line. -/
theorem left_of_stops (hq : Acts writes (start s console cs) schedule q)
    (hstops : q.Stops status) : cs = cs.take (q.parts.length + 1) ++ q.left := by
  obtain ⟨before, hbefore⟩ := follow_of_acts hq
  obtain ⟨c, into, hphase, -⟩ := hstops
  have hcs : q.parts.map Part.command ++ ([c] ++ q.left) = cs := by
    simpa [commands, hphase, start, Phase.command?] using commands_of_follow hbefore
  rw [← List.append_assoc] at hcs
  have htake : cs.take (q.parts.length + 1) = q.parts.map Part.command ++ [c] :=
    hcs ▸ List.take_left' (by simp)
  rw [htake, hcs]

/-- **A line stops exactly where it must, and the rest has no effect.** Take any commands, any
writes of the programs they start, and any order in which the shell and the programs go on until the
line ends. It exits exactly if a command that the shell came to was an exit, it fails exactly if
such a command failed fatally, and it continues exactly if neither happened. A command of either
kind is the last one to have its turn; and whatever stands behind it, or nothing at all, the same
schedule leads to the same end: the same shell with the same tree, the same output, and the same
that has become of the commands up to this one.

What ends a line is an `exit` without operands whose name does not lead to a program, or a program
for which no process can be created, in either case with the target opened. So an `exit` with
operands, or whose name leads to a program, is no exit; and one whose target cannot be opened is
not carried out. -/
theorem status_iff_of_follow (hp : (start s console cs).follow writes schedule = some p)
    (hend : p.phase = .ended status) :
    (status = .exits ↔ ∃ q, Acts writes (start s console cs) schedule q ∧ q.Stops .exits) ∧
      (∀ fault, status = .fails fault ↔
        ∃ q, Acts writes (start s console cs) schedule q ∧ q.Stops (.fails fault)) ∧
      (status = .continues ↔
        ∀ q, Acts writes (start s console cs) schedule q → ∀ st, ¬ q.Stops st) ∧
      ∀ q st, Acts writes (start s console cs) schedule q → q.Stops st →
        (∃ c into, q.phase = .opened c into ∧
          ((st = .exits ∧ q.shell.Exits c) ∨
            ∃ path e, st = .fails (.createProcess path (.errno e)) ∧
              q.shell.Starves c into path e)) ∧
        p.parts.length = q.parts.length + 1 ∧
        ∀ behind,
          (start s console (cs.take (q.parts.length + 1) ++ behind)).follow writes schedule =
            some (p.withLeft behind) := by
  have hended : ∀ {q st}, Acts writes (start s console cs) schedule q → q.Stops st →
      status = st := fun hq hstops =>
    Phase.ended.inj (hend.symm.trans (phase_of_stops hq hstops hp).1)
  have hacts : status ≠ .continues →
      ∃ q, Acts writes (start s console cs) schedule q ∧ q.Stops status := fun hne => by
    obtain ⟨q, hq, hstops | ⟨hcont, -⟩⟩ := exists_acts_of_ended (by simp [start]) hp hend
    · exact ⟨q, hq, hstops⟩
    · exact absurd hcont hne
  have hne : ∀ {q : Play}, ¬ q.Stops .continues := fun ⟨_, _, _, h⟩ => h
  refine ⟨⟨?_, ?_⟩, fun fault => ⟨?_, ?_⟩, ⟨?_, ?_⟩, ?_⟩
  · rintro rfl
    exact hacts (by simp)
  · exact fun ⟨q, hq, hstops⟩ => hended hq hstops
  · rintro rfl
    exact hacts (by simp)
  · exact fun ⟨q, hq, hstops⟩ => hended hq hstops
  · rintro rfl q hq st hstops
    exact hne (hended hq hstops ▸ hstops)
  · intro hnone
    refine Classical.byContradiction fun hstatus => ?_
    obtain ⟨q, hq, hstops⟩ := hacts hstatus
    exact hnone q hq status hstops
  · intro q st hq hstops
    obtain ⟨hpend, hleft, hlength, -⟩ := phase_of_stops hq hstops hp
    have hcontinues : p.phase ≠ .ended .continues := by
      rintro hcont
      exact hne (Phase.ended.inj (hpend.symm.trans hcont) ▸ hstops)
    refine ⟨?_, hlength, fun behind => ?_⟩
    · obtain ⟨c, into, hphase, hends⟩ := hstops
      refine ⟨c, into, hphase, ?_⟩
      cases st with
      | continues => exact hends.elim
      | exits => exact Or.inl ⟨rfl, hends⟩
      | fails fault =>
          obtain ⟨path, e, hstarves, rfl⟩ := hends
          exact Or.inr ⟨path, e, rfl, hstarves⟩
    · obtain ⟨l, hl, hfollow⟩ := follow_withLeft hp (left_of_stops hq hstops)
        (Or.inr hcontinues) (hleft ▸ List.suffix_refl _)
      have hnil : l = [] := by simpa [hleft] using hl
      rw [hnil] at hfollow
      exact hfollow behind

/-- A program that writes, an exit, and a command that is not reached. -/
def probeExitNope : List Command :=
  [{ name := text "probe", operands := [], target := some (text "out") },
    { name := text "exit", operands := [], target := none },
    { name := text "nope", operands := [], target := some (text "late") }]

/-- The program makes its write after the line has ended. -/
theorem status_probeExitNope : ∃ p,
    (start .overProbe (.ofInput []) probeExitNope).follow oneWrite
        [.shell, .shell, .shell, .shell, .program 0] = some p ∧
      p.phase = .ended .exits ∧ p.parts.length = 2 ∧
      (start .overProbe (.ofInput []) (probeExitNope.take 2)).follow oneWrite
        [.shell, .shell, .shell, .shell, .program 0] = some (p.withLeft []) := by
  have hphase : ((start .overProbe (.ofInput []) probeExitNope).follow oneWrite
      [.shell, .shell, .shell, .shell, .program 0]).map
        (fun p => (p.phase, p.parts.length)) = some (.ended .exits, 2) := by decide
  obtain ⟨p, hp, hpair⟩ := Option.map_eq_some_iff.mp hphase
  obtain ⟨hend, hlength⟩ := Prod.mk.inj hpair
  obtain ⟨hexits, -, -, hstop⟩ := status_iff_of_follow hp hend
  obtain ⟨q, hq, hstops⟩ := hexits.mp rfl
  obtain ⟨-, hparts, hshort⟩ := hstop q .exits hq hstops
  have htwo : q.parts.length + 1 = 2 := hparts.symm.trans hlength
  refine ⟨p, hp, hend, hlength, ?_⟩
  rw [← List.append_nil (probeExitNope.take 2), ← htwo]
  exact hshort []

end Play

end ParallelShell
