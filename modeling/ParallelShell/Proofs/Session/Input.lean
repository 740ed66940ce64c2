import ParallelShell.Proofs.Output.Performance

set_option autoImplicit false

/-! # The standard input of a session

The shell and its programs share the standard input. A line itself takes nothing of it; a program of
the line that copies it takes all that is left. So a line leaves what there was, or nothing
(`length_left_runLine_le`). And if no program copies its input, what there is makes no difference:
lines that are run with another input do the same, and leave that input (`runLine_withInput`).
-/

namespace ParallelShell

theorem Console.left_of_ok {c : Console} {input : Octets} (h : c.input = .ok input) :
    c.left = input := by
  simp [left, h, Except.toOption]

theorem Console.left_drained (c : Console) : c.drained.left = [] := by
  cases h : c.input <;> simp [drained, left, h, Except.map, Except.toOption]

namespace Scene

variable {behaviour : Launch → Activity}

def withInput (s : Scene) (input : Except Errno Octets) : Scene :=
  { s with console := { s.console with input } }

theorem write_withInput (s : Scene) (input : Except Errno Octets) (into : Destination)
    (offset : Nat) (w : Write) : (s.withInput input).write into offset w =
      (s.write into offset w).withInput input := by
  obtain ⟨stream, data⟩ := w
  cases into with
  | inherited => cases stream <;> rfl
  | file loc => rfl
  | device d => rfl

theorem writeAll_withInput (s : Scene) (input : Except Errno Octets) (into : Destination)
    (offset : Nat) (ws : List Write) : (s.withInput input).writeAll into offset ws =
      (s.writeAll into offset ws).withInput input := by
  induction ws generalizing s offset with
  | nil => rfl
  | cons w ws ih => rw [writeAll, write_withInput, ih, writeAll]

/-- Writes leave the input as it is. -/
theorem input_writeAll (s : Scene) (into : Destination) (offset : Nat) (ws : List Write) :
    (s.writeAll into offset ws).console.input = s.console.input :=
  congrArg (·.console.input) (writeAll_withInput s s.console.input into offset ws)

theorem act_withInput (s : Scene) (input : Except Errno Octets) (into : Destination) {a : Activity}
    (h : a.copiesInput = false) :
    (s.withInput input).act into a = (s.act into a).withInput input := by
  simp only [act, h, Bool.false_eq_true, if_false, writeAll_withInput]

theorem left_writeAll (s : Scene) (into : Destination) (offset : Nat) (ws : List Write) :
    (s.writeAll into offset ws).console.left = s.console.left :=
  congrArg (fun input => input.toOption.getD []) (input_writeAll s into offset ws)

theorem length_left_act_le (s : Scene) (into : Destination) (a : Activity) :
    (s.act into a).console.left.length ≤ s.console.left.length := by
  unfold act
  split
  · rw [left_writeAll, Console.left_drained]
    exact Nat.zero_le _
  · exact Nat.le_of_eq (congrArg List.length (left_writeAll s into 0 a.writes))

theorem perform_withInput (hcopies : ∀ l, (behaviour l).copiesInput = false) (s : Scene)
    (input : Except Errno Octets) (launches : List Launch) :
    (s.withInput input).perform behaviour launches =
      (s.perform behaviour launches).withInput input := by
  rw [perform, perform]
  generalize schedule behaviour launches = order
  induction order generalizing s with
  | nil => rfl
  | cons l order ih => rw [List.foldl_cons, List.foldl_cons, act_withInput _ _ _ (hcopies l), ih]

theorem length_left_perform_le (s : Scene) (launches : List Launch) :
    (s.perform behaviour launches).console.left.length ≤ s.console.left.length := by
  rw [perform]
  generalize schedule behaviour launches = order
  induction order generalizing s with
  | nil => exact Nat.le_refl _
  | cons l order ih => exact Nat.le_trans (ih _) (length_left_act_le s _ _)

theorem announce_withInput (s : Scene) (input : Except Errno Octets) (events : List Event) :
    (s.withInput input).announce events = (s.announce events).withInput input := by
  induction events generalizing s with
  | nil => rfl
  | cons e events ih =>
      have hcons : ∀ s : Scene, s.announce (e :: events) = (s.announce [e]).announce events :=
        fun _ => rfl
      rw [hcons, hcons, ← ih]
      cases e with
      | reported fault into => cases into <;> rfl
      | started launch => rfl
      | waited n => rfl

end Scene

namespace Session

variable {behaviour : Launch → Activity}

def withInput (s : Session) (input : Except Errno Octets) : Session :=
  { s with console := { s.console with input } }

theorem left_withInput (s : Session) (input : Octets) :
    (s.withInput (.ok input)).console.left = input := Console.left_of_ok rfl

/-- **A line leaves the input**, or takes it. -/
theorem length_left_runLine_le (behaviour : Launch → Activity) (s : Session) (line : Text) :
    (s.runLine behaviour line).1.console.left.length ≤ s.console.left.length := by
  let run := s.shell.runLine line
  let scene : Scene := { tree := run.shell.system.tree, console := s.console }
  have hannounce : (scene.announce run.events).console.left = s.console.left :=
    congrArg (·.console.left) (scene.announce_withInput s.console.input run.events)
  rw [← hannounce]
  exact Scene.length_left_perform_le (scene.announce run.events) run.launches

/-- **Without programs that copy it**, the input makes no difference. -/
theorem runLine_withInput (hcopies : ∀ l, (behaviour l).copiesInput = false) (s : Session)
    (input : Except Errno Octets) (line : Text) : (s.withInput input).runLine behaviour line =
      ((s.runLine behaviour line).1.withInput input, (s.runLine behaviour line).2) := by
  let run := s.shell.runLine line
  let scene : Scene := { tree := run.shell.system.tree, console := s.console }
  have hscene : ((scene.withInput input).announce run.events).perform behaviour run.launches =
      ((scene.announce run.events).perform behaviour run.launches).withInput input := by
    rw [Scene.announce_withInput, Scene.perform_withInput hcopies]
  have hrun : (s.withInput input).runLine behaviour line =
      ({ shell := { run.shell with system := { run.shell.system with
            tree := (((scene.withInput input).announce run.events).perform behaviour
              run.launches).tree } },
          console := (((scene.withInput input).announce run.events).perform behaviour
            run.launches).console }, run) := rfl
  rw [hrun, hscene]
  rfl

end Session

end ParallelShell
