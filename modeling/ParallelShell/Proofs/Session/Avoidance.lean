import ParallelShell.Proofs.Output.Performance
import ParallelShell.Proofs.Output.Slots

set_option autoImplicit false

/-! # Places that a line avoids

Output is written into files that were opened as targets, and nowhere else. So a place at which none
of the commands of a line opens its target is as it was when the line has ended
(`Session.node?_runLine`), whatever the programs are and in whatever order they write; programs that
copy their input are no exception.
-/

namespace ParallelShell

variable {loc : Location}

/-! ## Commands -/

namespace Shell

variable {s : Shell} {c : Command} {cs : List Command} {line : Text}

theorem mem_of_mem_reached {x : Shell × Command} (h : x ∈ s.reached cs) : x.2 ∈ cs := by
  induction cs generalizing s with
  | nil => simp [reached] at h
  | cons c cs ih =>
      rw [reached, List.mem_cons] at h
      rcases h with rfl | h
      · exact List.mem_cons_self
      · split at h
        · simp at h
        · exact List.mem_cons_of_mem c (ih h)

/-- **Commands that avoid a place**: of those that are reached, none opens its target there. -/
def AvoidsAll (loc : Location) (s : Shell) (cs : List Command) : Prop :=
  ∀ x ∈ s.reached cs, ∀ s' into, x.1.openTarget x.2.target = .ok (s', into) → into ≠ .file loc

def Avoids (loc : Location) (s : Shell) (line : Text) : Prop :=
  ∀ cs, Line.commands line = .ok cs → s.AvoidsAll loc cs

/-- Commands without a target avoid every place. -/
theorem avoidsAll_of_forall (h : ∀ c ∈ cs, c.target = none) (loc : Location) (s : Shell) :
    s.AvoidsAll loc cs := by
  intro x hx s' into ho
  rw [h x.2 (mem_of_mem_reached hx)] at ho
  obtain ⟨-, rfl⟩ := Prod.mk.inj (Except.ok.inj ho)
  simp

theorem AvoidsAll.head (h : s.AvoidsAll loc (c :: cs)) {s' : Shell} {into : Destination}
    (ho : s.openTarget c.target = .ok (s', into)) : into ≠ .file loc :=
  h (s, c) (by simp [reached]) s' into ho

theorem AvoidsAll.tail (h : s.AvoidsAll loc (c :: cs)) (hstop : (s.runCommand c).2.stop? = none) :
    (s.runCommand c).1.AvoidsAll loc cs := by
  intro x hx
  refine h x ?_
  rw [reached, hstop]
  exact List.mem_cons_of_mem _ hx

theorem node?_notify {into : Destination} (hinto : into ≠ .file loc) (s : Shell) :
    (s.notify into).system.tree.node? loc = s.system.tree.node? loc := by
  have hwrite := Play.node?_write { tree := s.system.tree, console := .ofInput [] } hinto 0
    Part.notice
  cases into <;> exact hwrite

/-- A command leaves a place alone at which its target is not opened, and so does the program that
it starts. -/
theorem avoided_of_runCommand
    (h : ∀ s' into, s.openTarget c.target = .ok (s', into) → into ≠ .file loc) :
    (s.runCommand c).1.system.tree.node? loc = s.system.tree.node? loc ∧
      ∀ l ∈ (s.runCommand c).2.event?.toList.filterMap Event.launch?,
        l.destination ≠ .file loc := by
  cases ho : s.openTarget c.target with
  | error fault =>
      rw [runCommand_of_unopened ho]
      exact ⟨rfl, by simp [Outcome.event?, Event.launch?]⟩
  | ok opened =>
      obtain ⟨s₁, into⟩ := opened
      have hinto := h s₁ into ho
      have hopened : s₁.system.tree.node? loc = s.system.tree.node? loc :=
        Play.node?_of_emptied (Play.emptied_of_openTarget ho) hinto
      cases hc : s₁.carryOut c into with
      | error fault =>
          cases hf : fault.isFatal with
          | true =>
              rw [runCommand_of_fatal ho hc hf]
              exact ⟨hopened, by simp [Outcome.event?]⟩
          | false =>
              rw [runCommand_of_failed ho hc hf]
              exact ⟨(node?_notify hinto s₁).trans hopened,
                by simp [Outcome.event?, Event.launch?]⟩
      | ok done =>
          obtain ⟨s₂, action⟩ := done
          rw [runCommand_of_completed ho hc]
          refine ⟨(congrArg (·.node? loc) (tree_of_carryOut hc)).trans hopened, ?_⟩
          cases action with
          | started launch =>
              rw [← Play.destination_of_carryOut hc] at hinto
              simpa [Outcome.event?, Event.launch?] using hinto
          | done => simp [Outcome.event?]
          | exit => simp [Outcome.event?]

/-- **Commands in a row** leave alone a place that they avoid. -/
theorem AvoidsAll.runCommands (h : s.AvoidsAll loc cs) :
    (s.runCommands cs).shell.system.tree.node? loc = s.system.tree.node? loc ∧
      ∀ l ∈ (s.runCommands cs).launches, l.destination ≠ .file loc := by
  induction cs generalizing s with
  | nil => exact ⟨rfl, by simp [LineRun.launches]⟩
  | cons c cs ih =>
      obtain ⟨hnode, hlaunch⟩ := avoided_of_runCommand fun s' into ho => h.head ho
      rw [runCommands_cons]
      cases hstop : (s.runCommand c).2.stop? with
      | some status => exact ⟨hnode, by simp [LineRun.launches]⟩
      | none =>
          obtain ⟨hnode', hlaunch'⟩ := ih (h.tail hstop)
          refine ⟨hnode'.trans hnode, ?_⟩
          rw [LineRun.launches_after]
          exact List.forall_mem_append.mpr ⟨hlaunch, hlaunch'⟩

theorem Avoids.runLine (h : s.Avoids loc line) :
    (s.runLine line).shell.system.tree.node? loc = s.system.tree.node? loc ∧
      ∀ l ∈ (s.runLine line).launches, l.destination ≠ .file loc := by
  unfold Shell.runLine
  cases hline : Line.commands line with
  | error m => exact ⟨rfl, by simp [LineRun.launches, Event.launch?]⟩
  | ok cs =>
      have hall := (h cs hline).runCommands
      simp only [runAll]
      split
      · rw [LineRun.shell_await, LineRun.launches_await, LineRun.withEnded, LineRun.foldl_ended]
        exact hall
      · exact hall

end Shell

/-! ## Programs -/

namespace Scene

variable {into : Destination}

theorem node?_writeAll (hinto : into ≠ .file loc) (s : Scene) (offset : Nat) (ws : List Write) :
    (s.writeAll into offset ws).tree.node? loc = s.tree.node? loc := by
  induction ws generalizing s offset with
  | nil => rfl
  | cons w ws ih => exact (ih _ _).trans (Play.node?_write s hinto offset w)

theorem node?_act (hinto : into ≠ .file loc) (s : Scene) (a : Activity) :
    (s.act into a).tree.node? loc = s.tree.node? loc := by
  unfold act
  split
  · exact node?_writeAll hinto _ 0 _
  · exact node?_writeAll hinto s 0 a.writes

theorem node?_perform (behaviour : Launch → Activity) {launches : List Launch}
    (h : ∀ l ∈ launches, l.destination ≠ .file loc) (s : Scene) :
    (s.perform behaviour launches).tree.node? loc = s.tree.node? loc := by
  have horder : ∀ l ∈ schedule behaviour launches, l.destination ≠ .file loc :=
    fun l hl => h l (List.mem_mergeSort.mp hl)
  rw [perform]
  generalize schedule behaviour launches = order at horder ⊢
  induction order generalizing s with
  | nil => rfl
  | cons l order ih =>
      obtain ⟨hl, horder⟩ := List.forall_mem_cons.mp horder
      exact (ih _ horder).trans (node?_act hl s _)

theorem sight_writeAll (s : Scene) (into : Destination) (offset : Nat) (ws : List Write) :
    (s.writeAll into offset ws).tree.sight = s.tree.sight := by
  induction ws generalizing s offset with
  | nil => rfl
  | cons w ws ih =>
      refine (ih _ _).trans ?_
      cases into with
      | file loc => exact FileTree.sight_writeAt _ _ _ _
      | inherited => rfl
      | device d => rfl

theorem sight_act (s : Scene) (into : Destination) (a : Activity) :
    (s.act into a).tree.sight = s.tree.sight := by
  unfold act
  split
  · exact sight_writeAll _ _ _ _
  · exact sight_writeAll _ _ _ _

theorem sight_perform (s : Scene) (behaviour : Launch → Activity) (launches : List Launch) :
    (s.perform behaviour launches).tree.sight = s.tree.sight := by
  rw [perform]
  generalize schedule behaviour launches = order
  induction order generalizing s with
  | nil => rfl
  | cons l order ih => exact (ih _).trans (sight_act s _ _)

end Scene

/-! ## A session -/

namespace Session

/-- **A line leaves alone a place that it avoids.** -/
theorem node?_runLine (behaviour : Launch → Activity) {s : Session} {line : Text}
    (h : s.shell.Avoids loc line) :
    (s.runLine behaviour line).1.shell.system.tree.node? loc = s.shell.system.tree.node? loc := by
  obtain ⟨hnode, hlaunches⟩ := h.runLine
  refine (Scene.node?_perform behaviour hlaunches _).trans ?_
  rw [Scene.announce_eq]
  exact hnode

theorem sameGround_runLine (behaviour : Launch → Activity) (s : Session) (line : Text) :
    (s.runLine behaviour line).1.shell.system.SameGround s.shell.system := by
  have hrun := s.shell.sameGround_runLine line
  refine ⟨hrun.supply, hrun.programPath, hrun.machineCode, ?_⟩
  refine (Scene.sight_perform _ behaviour _).trans ?_
  rw [Scene.announce_eq]
  exact hrun.sight

end Session

end ParallelShell
