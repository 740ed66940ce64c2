import ParallelShell.Proofs.Line.Joined
import ParallelShell.Proofs.Output.Performance
import ParallelShell.Proofs.Shell.Mirror

set_option autoImplicit false

/-! # Side by side, or one line after the other

Lines can be given to the shell one after the other, or put into one line with a mark between any
two of them. In the first case each line waits for its programs, in the second they all run side by
side; but the commands are the same, and they come in the same order.

`agrees_of_plays` says that what comes of them is the same as well, whatever the programs write and
whoever is faster, as long as no command writes into a file that the start of a program looks into
(`Shell.Apart`), and the system grants the same all the while, however many programs are running
(`Supply.IsFixed`): a system that can run only so many at once may well refuse side by side what it
grants one after the other. The search path, the current directory and the status at the end are the
same, and so are the faults that were reported and the programs that were started. What the files
hold may differ, and so may the order in which programs have been waited for.
-/

namespace ParallelShell

namespace Shell

/-- **What can come of lines one after the other**, up to the first that does not continue, while
the supply stays as it is. -/
inductive PlaysInTurn : Shell → List Text → LineRun → Prop
  | nil {s : Shell} : PlaysInTurn s [] { shell := s, events := [], status := .continues }
  | last {s : Shell} {line : Text} {lines : List Text} {r : LineRun} :
      s.PlaysSteadily line r → r.status ≠ .continues → PlaysInTurn s (line :: lines) r
  | more {s : Shell} {line : Text} {lines : List Text} {r r' : LineRun} :
      s.PlaysSteadily line r → r.status = .continues → PlaysInTurn r.shell lines r' →
        PlaysInTurn s (line :: lines) (r'.after r.events)

/-- **Commands that keep to themselves**: no target names a file that is looked into to start a
program, be it the program itself or an interpreter. -/
def Apart (s : Shell) (cs : List Command) : Prop :=
  ∀ x ∈ s.reached cs, ∀ y ∈ s.reached cs,
    ∀ loc ∈ x.1.targetFile? x.2, loc ∉ y.1.startFiles y.2

instance (s : Shell) (cs : List Command) : Decidable (s.Apart cs) :=
  inferInstanceAs (Decidable (∀ x ∈ s.reached cs, ∀ y ∈ s.reached cs,
    ∀ loc ∈ x.1.targetFile? x.2, loc ∉ y.1.startFiles y.2))

def IsTarget (s : Shell) (cs : List Command) (loc : Location) : Prop :=
  ∃ x ∈ s.reached cs, loc ∈ x.1.targetFile? x.2

/-- Commands that keep to themselves keep the files of their targets apart from the others. -/
theorem Apart.clear {s : Shell} {cs : List Command} (h : s.Apart cs) :
    Clear (s.IsTarget cs) s cs := by
  intro y hy
  refine ⟨fun loc hloc => ⟨y, hy, hloc⟩, ?_⟩
  rintro loc hloc ⟨x, hx, htarget⟩
  exact h x hx y hy loc htarget hloc

theorem Clear.left {W : Location → Prop} {s : Shell} {cs ds : List Command}
    (h : Clear W s (cs ++ ds)) : Clear W s cs := by
  intro x hx
  apply h x
  rw [reached_append]
  exact List.mem_append_left _ hx

theorem Clear.right {W : Location → Prop} {s : Shell} {cs ds : List Command}
    (h : Clear W s (cs ++ ds)) (hc : (s.runCommands cs).status = .continues) :
    Clear W (s.runCommands cs).shell ds := by
  intro x hx
  apply h x
  rw [reached_append, hc]
  exact List.mem_append_right _ hx

end Shell

namespace LineRun

/-- **What has come of lines is the same**, but for what the files hold and for what has been
waited for. -/
structure Agrees (r r' : LineRun) : Prop where
  searchPath : r.shell.searchPath = r'.shell.searchPath
  directory : r.shell.system.directory = r'.shell.system.directory
  status : r.status = r'.status
  faults : r.faults = r'.faults
  launches : r.launches = r'.launches

/-- Whatever comes of the same commands in a row agrees. -/
theorem Echoes.agrees {W : Location → Prop} {earlier : List Launch} {r r' total : LineRun}
    (h : r.Echoes W earlier total) (h' : r'.Echoes W earlier total) : r.Agrees r' where
  searchPath := h.shell.searchPath.trans h'.shell.searchPath.symm
  directory := h.shell.directory.trans h'.shell.directory.symm
  status := h.status.trans h'.status.symm
  faults := h.faults.trans h'.faults.symm
  launches := h.launches.trans h'.launches.symm

end LineRun

/-- **What can come of lines one after the other** is what comes of all their commands in a row. The
induction is on the lines; each of them starts with no program of an earlier line running but those
that keep to `W`. -/
theorem echoes_of_playsInTurn {W : Location → Prop} {earlier : List Launch} {s t : Shell}
    {lines : List Text} {css : List (List Command)} {r : LineRun} (hr : s.PlaysInTurn lines r)
    (hlines : List.Forall₂ (fun line cs => Line.commands line = .ok cs) lines css)
    (hs : Shell.SameBut W earlier s t) (hc : Shell.Clear W t css.flatten) :
    r.Echoes W earlier (t.runCommands css.flatten) := by
  induction hr generalizing t css with
  | nil =>
      cases hlines
      exact ⟨hs, rfl, rfl, rfl⟩
  | last hr hstop =>
      cases hlines with
      | cons hline _ =>
          -- the line has ended early, so the commands after it are not reached either
          have he := echoes_of_plays hr hline hs hc.left
          have hstop' := he.status ▸ hstop
          rw [List.flatten_cons, Shell.runCommands_append]
          split
          · rename_i hcont
            exact absurd hcont hstop'
          · exact he
  | @more s line lines r r' hr hcont _ ih =>
      cases hlines with
      | @cons _ cs _ css hline hlines =>
          have he := echoes_of_plays hr hline hs hc.left
          have hcont' : (t.runCommands cs).status = .continues := he.status.symm.trans hcont
          have hrest := ih hlines he.shell (hc.right hcont')
          rw [List.flatten_cons, Shell.runCommands_append, hcont']
          have hfaults : r.events.filterMap Event.fault? =
              (t.runCommands cs).events.filterMap Event.fault? := he.faults
          have hlaunches : r.events.filterMap Event.launch? =
              (t.runCommands cs).events.filterMap Event.launch? := he.launches
          refine ⟨hrest.shell, hrest.status, ?_, ?_⟩
          · simp [hfaults, hrest.faults]
          · simp [hlaunches, hrest.launches]

/-- **Commands side by side do what they do one after the other.** Lines that can be read, of one
command each or of several, are put into one line. If their commands keep to themselves, and what
the system grants does not depend on how many programs are running, whatever can come of that line
agrees with whatever can come of the lines one after the other: the same search path, current
directory and status, the same faults in the same order, and the same programs, started in the same
order, with the same path, arguments, directory and destination. -/
theorem agrees_of_plays {s : Shell} {lines : List Text} {css : List (List Command)}
    {r r' : LineRun} (hsupply : s.system.supply.IsFixed)
    (hlines : List.Forall₂ (fun line cs => Line.commands line = .ok cs) lines css)
    (hapart : s.Apart css.flatten) (hr : s.PlaysSteadily (Line.joined lines) r)
    (hr' : s.PlaysInTurn lines r') : r.Agrees r' := by
  have hsame := Shell.SameBut.refl (s.IsTarget css.flatten) s hsupply
  have hjoined := echoes_of_plays hr (Line.commands_joined hlines) hsame hapart.clear
  have hinTurn := echoes_of_playsInTurn hr' hlines hsame hapart.clear
  exact hjoined.agrees hinTurn

/-- Three lines: one that starts a program, one that goes elsewhere, and one that ends the shell. -/
def threeLines : List Text := [text "probe a > out", text "cd bin", text "exit"]

def threeCommands : List (List Command) :=
  [[{ name := text "probe", operands := [text "a"], target := some (text "out") }],
    [{ name := text "cd", operands := [text "bin"], target := none }],
    [{ name := text "exit", operands := [], target := none }]]

theorem agrees_threeLines : ∃ r r', Shell.overProbe.PlaysSteadily (Line.joined threeLines) r ∧
    Shell.overProbe.PlaysInTurn threeLines r' ∧ r.Agrees r' := by
  have hlines : List.Forall₂ (fun line cs => Line.commands line = .ok cs) threeLines
      threeCommands := by decide
  have hapart : Shell.overProbe.Apart threeCommands.flatten := by decide
  have hr := Shell.overProbe.playsSteadily_runLine (Line.joined threeLines)
  have hr' : Shell.overProbe.PlaysInTurn threeLines _ :=
    .more (Shell.playsSteadily_runLine _ _) (by decide)
      (.more (Shell.playsSteadily_runLine _ _) (by decide)
        (.last (Shell.playsSteadily_runLine _ _) (by decide)))
  exact ⟨_, _, hr, hr', agrees_of_plays Supply.isFixed_available hlines hapart hr hr'⟩

end ParallelShell
