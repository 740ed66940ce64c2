import ParallelShell.Proofs.Shell.Content
import ParallelShell.Proofs.Shell.Play

set_option autoImplicit false

/-! # A play, and its commands in a row

A play goes through its commands one by one, with programs writing meanwhile. `Shell.runCommands`
goes through them too, and there no program writes at all. If the programs write into no file that
a start looks into (`Shell.Clear`), the two do the same: at any time, what the second is going to
come to is what has happened in the play so far, followed by what is still to come (`Mirrors`).

Every turn preserves this, if the system goes on granting the same (`mirrored_step`). A program that
writes changes what files of `W` hold, and nothing else; one that ends has been executed from a file
outside of `W`, so nothing can be opened that could not be opened before. A turn of the shell has
the same outcome on both sides. So all that can come of a line, but for what files of `W` hold, is
settled before the line begins (`echoes_of_plays`).
-/

namespace ParallelShell

variable {W : Location → Prop} {earlier : List Launch} {total : LineRun}

namespace Shell

/-! ## Commands that keep apart what is written and what is started -/

variable {s : Shell} {c : Command} {cs : List Command}

theorem Clear.targets (h : Clear W s (c :: cs)) : ∀ loc ∈ s.targetFile? c, W loc :=
  (h (s, c) (by simp [reached])).1

theorem Clear.starts (h : Clear W s (c :: cs)) : ∀ loc ∈ s.startFiles c, ¬ W loc :=
  (h (s, c) (by simp [reached])).2

theorem Clear.startsOf (h : Clear W s (c :: cs)) {s' : Shell} {into : Destination}
    (ho : s.openTarget c.target = .ok (s', into)) (path : Text)
    (hm : s'.meaning c.name = .program path) :
    ∀ loc ∈ s'.system.startFiles path (c.name :: c.operands) into, ¬ W loc := by
  intro loc hloc
  apply h.starts loc
  rw [Shell.startFiles, ho]
  simpa only [hm] using hloc

theorem Clear.later {s' : Shell} {o : Outcome} (h : Clear W s (c :: cs))
    (hrun : s.runCommand c = (s', o)) (hstop : o.stop? = none) : Clear W s' cs := by
  intro x hx
  apply h x
  rw [reached, hrun]
  simp only [hstop]
  exact List.mem_cons_of_mem _ hx

theorem SameBut.write {t : Shell} {p : Play} (h : SameBut W earlier p.shell t) {into : Destination}
    (hinto : ∀ loc, into = .file loc → W loc) (offset : Nat) (w : Write) :
    SameBut W earlier (p.withScene (p.scene.write into offset w)).shell t := by
  cases into with
  | inherited => exact h
  | device d => exact h
  | file loc => exact h.writeAt (hinto loc rfl) offset w.data

end Shell

/-- A command whose output goes into no file outside of `W`, and whose program keeps to `W`. -/
structure Part.KeepsTo (W : Location → Prop) (x : Part) : Prop where
  into : ∀ loc, x.into = .file loc → W loc
  program : ∀ launch made pending, x.course = .program launch made pending → launch.KeepsTo W

namespace Play

/-- How a play in some phase stands to its commands run in a row, with no program writing: what
these come to in all is `total`, and the shell `t` has got as far as the play. -/
inductive Mirrors (W : Location → Prop) (earlier : List Launch) (total : LineRun) (p : Play) :
    Phase → Prop
  | ready {t : Shell} :
      Shell.SameBut W earlier p.shell t → Shell.Clear W t p.left →
      total = (t.runCommands p.left).after p.events → Mirrors W earlier total p .ready
  | opened {t t' : Shell} {c : Command} {into : Destination} :
      t.openTarget c.target = .ok (t', into) → Shell.SameBut W earlier p.shell t' →
      Shell.Clear W t (c :: p.left) → total = (t.runCommands (c :: p.left)).after p.events →
      Mirrors W earlier total p (.opened c into)
  | failing {t : Shell} {c : Command} {fault : Fault} {into : Destination} :
      (∀ loc, into = .file loc → W loc) → Shell.SameBut W earlier p.shell t →
      Shell.Clear W (t.notify into) p.left →
      total =
        ((t.notify into).runCommands p.left).after (p.events ++ [.reported fault into]) →
      Mirrors W earlier total p (.failing c fault into)
  | ended {t : Shell} {status : Status} :
      Shell.SameBut W earlier p.shell t →
      total = LineRun.after p.events { shell := t, events := [], status } →
      Mirrors W earlier total p (.ended status)

/-- A play that mirrors its commands, and whose commands keep to `W`. -/
structure Mirrored (W : Location → Prop) (earlier : List Launch) (total : LineRun) (p : Play) :
    Prop where
  mirrors : Mirrors W earlier total p p.phase
  parts : ∀ x ∈ p.parts, x.KeepsTo W

/-! ## Turns of the shell -/

variable {p : Play} {t t' : Shell} {c : Command} {left : List Command} {into : Destination}

theorem mirrors_opened {shell : Shell} (hl : p.left = c :: left)
    (hs : Shell.SameBut W earlier p.shell t) (hc : Shell.Clear W t p.left)
    (ht : total = (t.runCommands p.left).after p.events)
    (ho : p.shell.openTarget c.target = .ok (shell, into)) :
    Mirrors W earlier total { p with shell, phase := .opened c into, left } (.opened c into) := by
  rw [hl] at hc ht
  have hagree := Shell.openTarget_sameBut hs hc.targets
  rw [ho] at hagree
  generalize hb : t.openTarget c.target = b at hagree
  cases hagree with
  | @ok _ y hxy =>
      obtain ⟨hsame, hinto⟩ := hxy
      obtain ⟨t', i⟩ := y
      simp only at hsame hinto
      subst hinto
      exact .opened hb hsame hc ht

theorem mirrors_unopened {fault : Fault} (hl : p.left = c :: left)
    (hs : Shell.SameBut W earlier p.shell t) (hc : Shell.Clear W t p.left)
    (ht : total = (t.runCommands p.left).after p.events)
    (ho : p.shell.openTarget c.target = .error fault) :
    Mirrors W earlier total { p with phase := .failing c fault .inherited, left }
      (.failing c fault .inherited) := by
  rw [hl] at hc ht
  have hagree := Shell.openTarget_sameBut hs hc.targets
  rw [ho] at hagree
  generalize hb : t.openTarget c.target = b at hagree
  cases hagree with
  | error =>
      have hrun := Shell.runCommand_of_unopened hb
      rw [Shell.runCommands_cons_of_none hrun rfl, LineRun.after_after] at ht
      exact .failing (by simp) hs (hc.later hrun rfl) ht

theorem mirrors_carryOut {writes : Nat → Launch → List Write}
    (ho : t.openTarget c.target = .ok (t', into)) (hinto : ∀ loc, into = .file loc → W loc)
    (hs : Shell.SameBut W earlier p.shell t')
    (hc : Shell.Clear W t (c :: p.left))
    (ht : total = (t.runCommands (c :: p.left)).after p.events) :
    Mirrors W earlier total (p.carryOut writes c into) (p.carryOut writes c into).phase := by
  have hstart := hc.startsOf ho
  have hagree := Shell.carryOut_sameBut hs hinto hstart
  unfold carryOut
  generalize p.shell.carryOut c into = a at hagree ⊢
  generalize hb : t'.carryOut c into = b at hagree
  cases hagree with
  | error fault =>
      by_cases hf : fault.isFatal = true
      · have hrun := Shell.runCommand_of_fatal ho hb hf
        have hevents := events_withPart p (p.shell.part c into (.fatal fault))
        simp only [Part.event?, Shell.part_course, Option.toList_none, List.append_nil] at hevents
        rw [Shell.runCommands_cons_of_stop hrun rfl] at ht
        simp only [hf, if_true]
        exact .ended hs (ht.trans (congrArg (LineRun.after · _) hevents.symm))
      · have hf : fault.isFatal = false := by simpa using hf
        have hrun := Shell.runCommand_of_failed ho hb hf
        rw [Shell.runCommands_cons_of_none hrun rfl, LineRun.after_after] at ht
        simp only [hf, Bool.false_eq_true, if_false]
        exact .failing hinto hs (hc.later hrun rfl) ht
  | @ok x y hxy =>
      obtain ⟨shell, action⟩ := x
      obtain ⟨u, action'⟩ := y
      obtain ⟨hsame, haction⟩ := hxy
      simp only at hsame haction
      subst haction
      have hrun := Shell.runCommand_of_completed ho hb
      have hevents := events_withPart { p with shell }
      cases action with
      | started launch =>
          rw [Shell.runCommands_cons_of_none hrun rfl, LineRun.after_after] at ht
          refine .ready hsame (hc.later hrun rfl) ?_
          rw [events_withPart (p.withChild shell launch)]
          exact ht
      | done =>
          rw [Shell.runCommands_cons_of_none hrun rfl, LineRun.after_after] at ht
          refine .ready hsame (hc.later hrun rfl) ?_
          rw [hevents]
          exact ht
      | exit =>
          have hexit := hevents (p.shell.part c into .done)
          simp only [Part.event?, Shell.part_course, Option.toList_none, List.append_nil] at hexit
          rw [Shell.runCommands_cons_of_stop hrun rfl] at ht
          exact .ended hsame (ht.trans (congrArg (LineRun.after · _) hexit.symm))

/-! ## Every turn -/

/-- Besides the phase, only the shell, the events and the commands that follow matter. -/
theorem Mirrors.congr {q : Play} {phase : Phase} (h : Mirrors W earlier total p phase)
    (hleft : q.left = p.left) (hevents : q.events = p.events)
    (hsame : ∀ t, Shell.SameBut W earlier p.shell t → Shell.SameBut W earlier q.shell t) :
    Mirrors W earlier total q phase := by
  cases h with
  | ready hs hc ht => exact .ready (hsame _ hs) (hleft ▸ hc) (by rw [hleft, hevents, ht])
  | opened ho hs hc ht => exact .opened ho (hsame _ hs) (hleft ▸ hc) (by rw [hleft, hevents, ht])
  | failing hi hs hc ht =>
      exact .failing hi (hsame _ hs) (hleft ▸ hc) (by rw [hleft, hevents, ht])
  | ended hs ht => exact .ended (hsame _ hs) (by rw [hevents, ht])

/-- The shell carries a command out, and whatever has become of it keeps to `W`. -/
theorem keepsTo_of_mem_carryOut (writes : Nat → Launch → List Write)
    (h : ∀ x ∈ p.parts, x.KeepsTo W) (hinto : ∀ loc, into = .file loc → W loc)
    (hs : Shell.SameBut W earlier p.shell t')
    (hf : ∀ path, t'.meaning c.name = .program path →
      ∀ loc ∈ t'.system.startFiles path (c.name :: c.operands) into, ¬ W loc) :
    ∀ x ∈ (p.carryOut writes c into).parts, x.KeepsTo W := by
  have hadd : ∀ course : Course,
      (∀ launch made pending, course = .program launch made pending → launch.KeepsTo W) →
      ∀ x ∈ p.parts ++ [p.shell.part c into course], x.KeepsTo W := fun course hcourse =>
    List.forall_mem_append.mpr ⟨h, List.forall_mem_singleton.mpr ⟨hinto, hcourse⟩⟩
  have hagree := Shell.carryOut_sameBut hs hinto hf
  have hcomes := comesTo_carryOut writes p c into
  generalize p.carryOut writes c into = q at hcomes ⊢
  cases hcomes with
  | @started s launch hc =>
      rw [hc] at hagree
      generalize hb : t'.carryOut c into = b at hagree
      cases hagree with
      | @ok _ y hxy =>
          obtain ⟨u, action⟩ := y
          obtain rfl : Action.started launch = action := hxy.2
          refine hadd _ fun l made pending hcourse => ?_
          obtain rfl := (Course.program.inj hcourse).1
          exact Shell.keepsTo_of_carryOut hb hinto hf
  | done _ => exact hadd _ (by simp)
  | exit _ => exact hadd _ (by simp)
  | fatal _ _ => exact hadd _ (by simp)
  | failed _ _ => exact h

/-- **Every turn leaves a play mirroring its commands**, if the supply stays as it is. -/
theorem mirrored_step {writes : Nat → Launch → List Write} {q : Play} (hstep : Step writes p q)
    (hsupply : q.shell.system.supply = p.shell.system.supply) (h : Mirrored W earlier total p) :
    Mirrored W earlier total q := by
  obtain ⟨hm, hparts⟩ := h
  cases hstep with
  | finish hp hl _ =>
      rw [hp] at hm
      cases hm with
      | ready hs _ ht =>
          rw [hl] at ht
          exact ⟨.ended hs ht, hparts⟩
  | unopened hp hl ho =>
      rw [hp] at hm
      cases hm with
      | ready hs hc ht => exact ⟨mirrors_unopened hl hs hc ht ho, hparts⟩
  | opened hp hl ho =>
      rw [hp] at hm
      cases hm with
      | ready hs hc ht => exact ⟨mirrors_opened hl hs hc ht ho, hparts⟩
  | @carriedOut c into hp =>
      rw [hp] at hm
      cases hm with
      | opened ho hs hc ht =>
          -- what was opened is what the target names, and targets are in `W`
          have hinto : ∀ loc, into = .file loc → W loc := by
            rintro loc rfl
            exact hc.targets loc (Shell.targetFile?_of_openTarget ho)
          exact ⟨mirrors_carryOut ho hinto hs hc ht,
            keepsTo_of_mem_carryOut writes hparts hinto hs (hc.startsOf ho)⟩
  | notified hp =>
      rw [hp] at hm
      cases hm with
      | failing hinto hs hc ht =>
          refine ⟨.ready (hs.notify hinto) hc ?_, ?_⟩
          · rw [notify, events_withPart]
            exact ht
          · exact List.forall_mem_append.mpr
              ⟨hparts, List.forall_mem_singleton.mpr ⟨hinto, by simp⟩⟩
  | @written n x launch made pending w hn hcourse =>
      -- the other side takes no turn: what is written is in `W`, and nothing new is told of
      have hkeeps := hparts x (List.mem_of_getElem? hn)
      have hevent := event?_eq_of_program hcourse (made ++ [w]) pending
      have hevents := filterMap_set_of_getElem? Part.event? hn hevent
      have hwritten :
          Part.KeepsTo W { x with course := .program launch (made ++ [w]) pending } := by
        refine ⟨hkeeps.into, fun l m rest hl => ?_⟩
        obtain rfl := (Course.program.inj hl).1
        exact hkeeps.program _ _ _ hcourse
      exact ⟨hm.congr rfl hevents fun t hs => hs.write hkeeps.into _ _,
        forall_mem_set hparts hwritten n⟩
  | @ends n x launch made hn hcourse _ =>
      -- the other side takes no turn here either, and the program keeps to `W`
      have hkeeps := hparts x (List.mem_of_getElem? hn)
      have hevents := filterMap_set_of_getElem? Part.event? hn (event?_ended x)
      have hlaunch : launch.KeepsTo W := hkeeps.program _ _ _ hcourse
      have hended : Part.KeepsTo W { x with ended := true } := ⟨hkeeps.into, hkeeps.program⟩
      exact ⟨hm.congr rfl hevents fun t hs => hs.ended hlaunch, forall_mem_set hparts hended n⟩
  | supplied supply =>
      obtain rfl : supply = p.shell.system.supply := hsupply
      exact ⟨hm, hparts⟩

end Play

/-! ## Lines -/

namespace LineRun

/-- What has come of a line is what comes of commands in a row, but for what files of `W` hold, for
what has been waited for, and for what is still running that keeps to `W`. -/
structure Echoes (W : Location → Prop) (earlier : List Launch) (r total : LineRun) : Prop where
  shell : Shell.SameBut W earlier r.shell total.shell
  status : r.status = total.status
  faults : r.faults = total.faults
  launches : r.launches = total.launches

end LineRun

open Play in
/-- **What can come of a line** is what comes of its commands in a row, with no program writing. -/
theorem echoes_of_plays {s t : Shell} {line : Text} {cs : List Command} {r : LineRun}
    (hr : s.PlaysSteadily line r) (hline : Line.commands line = .ok cs)
    (hs : Shell.SameBut W earlier s t) (hc : Shell.Clear W t cs) :
    r.Echoes W earlier (t.runCommands cs) := by
  obtain ⟨schedule, hsteady, hr⟩ := hr
  rw [Shell.PlaysAlong, hline] at hr
  obtain ⟨console, writes, p, status, hfollow, hphase, rfl⟩ := hr
  have hstart : Mirrored W earlier (t.runCommands cs) (Play.start s console cs) :=
    ⟨.ready hs hc rfl, by simp [Play.start]⟩
  have hend := follow_preserves_of_isSteady (fun _ _ => mirrored_step) hsteady hfollow hstart
  have hm := hend.mirrors
  rw [hphase] at hm
  cases hm with
  | @ended t' _ hsame ht =>
      -- waiting for the programs changes neither what was reported nor what was started
      rw [ht]
      refine ⟨by rw [shell_result]; exact hsame, by simp, ?_, ?_⟩
      · rw [faults_result]
        simp [LineRun.faults]
      · rw [launches_result]
        simp [LineRun.launches, Play.launches]

end ParallelShell
