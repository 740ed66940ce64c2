import ParallelShell.Proofs.Line.Malformed
import ParallelShell.Proofs.Output.Performance
import ParallelShell.Proofs.Shell.Failures
import ParallelShell.Proofs.Shell.Stops

set_option autoImplicit false

/-! # Lines that come to nothing

One ill-formed piece is enough to reject a line, wherever it stands and whatever the other pieces
would do. Of a line that is rejected comes a single report (`Shell.rejected`), and on the console a
single notice; the shell and its system are as they were (`Session.runLine_of_error`).

Of a line without an ill-formed piece, nothing of that kind is ever reported: its commands fail for
other reasons. The main statement, `rejected_of_hasIllFormed`, puts the two together.
-/

namespace ParallelShell

/-- What comes of a line that is rejected: one report, and nothing else. -/
def Shell.rejected (s : Shell) (m : Malformed) : LineRun :=
  { shell := s, events := [.reported (.malformed m) .inherited], status := .continues }

section

variable {line : Text} {m : Malformed}

/-- **Only one thing can come of a line that is rejected.** -/
theorem Shell.plays_iff_of_error (h : Line.commands line = .error m) (s : Shell) (r : LineRun) :
    s.Plays line r ↔ r = s.rejected m := by
  simp only [Plays, PlaysAlong, h, runLine, rejected, exists_const]

/-- **A session that is given such a line** writes one notice to its error stream. -/
theorem Session.runLine_of_error (h : Line.commands line = .error m) (s : Session)
    (behaviour : Launch → Activity) :
    s.runLine behaviour line =
      ({ s with console := s.console.add Part.notice }, s.shell.rejected m) := by
  have hlaunches : (s.shell.rejected m).launches = [] := rfl
  have hperform : ∀ scene : Scene, scene.perform behaviour [] = scene := fun scene => by
    simp [Scene.perform, Scene.schedule]
  have hrun : s.shell.runLine line = s.shell.rejected m := by
    simp only [Shell.runLine, h, Shell.rejected]
  rw [runLine, hrun, hlaunches]
  simp only [hperform]
  rfl

end

namespace Play

variable {writes : Nat → Launch → List Write} {p : Play} {schedule : List Turn} {status : Status}
  {s : Shell} {console : Console} {cs : List Command}

/-- Whatever goes wrong while commands are run, no redirection is malformed. -/
theorem malformed_not_mem_faults (h : (start s console cs).follow writes schedule = some p)
    (hend : p.phase = .ended status) (m : Malformed) :
    .malformed m ∉ (p.result status).faults := by
  rw [faults_result, filterMap_fault?_events, (reported_of_ended h hend).2]
  intro hm
  obtain ⟨f, hf, hfault⟩ := List.mem_map.mp hm
  obtain ⟨x, -, hx⟩ := List.mem_filterMap.mp hf
  exact ne_malformed_of_failure? hx m hfault

/-- Nor does that end the line. -/
theorem ne_fails_malformed (h : (start s console cs).follow writes schedule = some p)
    (hend : p.phase = .ended status) (m : Malformed) : status ≠ .fails (.malformed m) := by
  rintro rfl
  obtain ⟨x, -, hstops | ⟨hcont, -⟩⟩ := exists_acts_of_ended (by simp [start]) h hend
  · obtain ⟨c, into, -, path, e, -, hfault⟩ := hstops
    cases hfault
  · cases hcont

end Play

/-- **A malformed redirection anywhere makes the whole line a no-op.** If one of the pieces of a
line is ill formed, then for some quote `m` and whatever the shell, its system and its console: the
only thing that can come of the line is one report, with the shell as it was, search path, current
directory, tree and running programs alike, and the line continues; and a session that is given the
line writes one notice to its error stream, whatever programs would do. If no piece is ill formed, a
malformed redirection is neither reported nor the end of the line. -/
theorem rejected_of_hasIllFormed (line : Text) :
    (Line.Grammar.HasIllFormed line →
        ∃ m, ∀ s : Session, (∀ r, s.shell.Plays line r ↔ r = s.shell.rejected m) ∧
          ∀ behaviour, s.runLine behaviour line =
            ({ s with console := s.console.add Part.notice }, s.shell.rejected m)) ∧
      (¬ Line.Grammar.HasIllFormed line → ∀ (s : Shell) (r : LineRun), s.Plays line r →
        ∀ m, .malformed m ∉ r.faults ∧ r.status ≠ .fails (.malformed m)) := by
  rw [← Line.Grammar.commands_eq_error_iff]
  constructor
  · rintro ⟨m, hline⟩
    exact ⟨m, fun s => ⟨s.shell.plays_iff_of_error hline, s.runLine_of_error hline⟩⟩
  · intro hline s r hr m
    cases hcs : Line.commands line with
    | error m => exact absurd ⟨m, hcs⟩ hline
    | ok cs =>
        obtain ⟨schedule, hr⟩ := hr
        simp only [Shell.PlaysAlong, hcs] at hr
        obtain ⟨console, writes, p, status, h, hend, rfl⟩ := hr
        refine ⟨Play.malformed_not_mem_faults h hend m, ?_⟩
        rw [Play.status_result]
        exact Play.ne_fails_malformed h hend m

/-- A line whose last piece has no word before its operator; the pieces before it would start a
program and end the shell. -/
def probeExitNothing : Text := text "probe > out & exit & > f"

theorem rejected_probeExitNothing : Line.Grammar.HasIllFormed probeExitNothing ∧
    (∃ m, ∀ r, Shell.overProbe.Plays probeExitNothing r ↔ r = Shell.overProbe.rejected m) ∧
    ¬ Line.Grammar.HasIllFormed (text "probe > out") ∧
    ∀ m, .malformed m ∉ (Shell.overProbe.runLine (text "probe > out")).faults := by
  have hbad : Line.Grammar.HasIllFormed probeExitNothing :=
    (Line.Grammar.commands_eq_error_iff _).mp ⟨{ segment := text ">  f" }, by decide⟩
  have hgood : ¬ Line.Grammar.HasIllFormed (text "probe > out") := by
    rw [← Line.Grammar.commands_eq_error_iff]
    rintro ⟨m, hm⟩
    have hok : Line.commands (text "probe > out") = .ok
        [{ name := text "probe", operands := [], target := some (text "out") }] := by decide
    cases hok.symm.trans hm
  obtain ⟨m, hm⟩ := (rejected_of_hasIllFormed probeExitNothing).1 hbad
  refine ⟨hbad, ⟨m, (hm { shell := Shell.overProbe, console := .ofInput [] }).1⟩, hgood, ?_⟩
  have hplays := Shell.overProbe.plays_runLine (text "probe > out")
  exact fun m => ((rejected_of_hasIllFormed _).2 hgood _ _ hplays m).1

end ParallelShell
