import ParallelShell.Proofs.Program.Scripts
import ParallelShell.Proofs.Session.Sources
import ParallelShell.Proofs.Shell.Resemblance

set_option autoImplicit false

/-! # Sessions that differ in one file

A batch file is read up to the line that ends the session, and what it holds behind that line has no
influence. To say so is to compare two sessions over files that differ there. Two shells are
`Shell.Twins loc` if they are the same but for the file at `loc`, and the two files there are
executed alike. As long as the commands avoid the place, such shells do the same and stay twins
(`Shell.Twins.runLine`), and so do sessions over them, line after line (`Session.Twins.runEach`).

Files that are the same up to a line feed are executed alike, so putting one in the place of the
other makes twins (`Session.twins_withOctets`).
-/

namespace ParallelShell

variable {loc : Location}

/-- Of two results that agree, both are the same refusal, or both are answers. -/
theorem Agree.elim {ε α : Type} {R : α → α → Prop} {x y : Except ε α} (h : Agree R x y) :
    (∃ e, x = .error e ∧ y = .error e) ∨ ∃ a b, x = .ok a ∧ y = .ok b ∧ R a b := by
  cases h with
  | error e => exact .inl ⟨e, rfl, rfl⟩
  | ok hab => exact .inr ⟨_, _, rfl, rfl, hab⟩

/-- A start comes to the same in two systems with files that are executed alike. -/
theorem System.start_eq_of_filesAlike {s t : System} {path : Text} {arguments : List Text}
    {into : Destination} (hdirectory : s.directory = t.directory) (hsupply : s.supply = t.supply)
    (hrunning : s.running.length = t.running.length) (hpath : s.programPath = t.programPath)
    (hfiles : Image.FilesAlike s.tree t.tree t.directory
      fun loc => into = .file loc || t.isWritten loc)
    (hwritten : s.isWritten = t.isWritten) :
    s.start path arguments into = t.start path arguments into := by
  simp only [start, hdirectory, hsupply, hrunning, hpath, hwritten,
    Image.load_eq_of_filesAlike hfiles]

/-- In two trees, the files at a place are executed alike. -/
def FileTree.ExecutedAlike (loc : Location) (t u : FileTree) : Prop :=
  ∃ mode mode' content content', t.node? loc = some (.file mode content) ∧
    u.node? loc = some (.file mode' content') ∧ content.ExecutedAlike content'

theorem FileTree.ExecutedAlike.of_node? {t u t' u' : FileTree} (h : ExecutedAlike loc t u)
    (ht : t'.node? loc = t.node? loc) (hu : u'.node? loc = u.node? loc) :
    ExecutedAlike loc t' u' := by
  unfold ExecutedAlike
  rw [ht, hu]
  exact h

/-! ## Shells -/

namespace Shell

variable {s t : Shell} {c : Command} {cs : List Command} {line : Text}

/-- **The same but for one file**, which has the same rights, and is executed alike. -/
structure Twins (loc : Location) (s t : Shell) : Prop where
  resembles : Resembles (· = loc) s t
  executed : FileTree.ExecutedAlike loc s.system.tree t.system.tree

theorem Twins.filesAlike (h : Twins loc s t) {directory : Location}
    (isWritten : Location → Bool) :
    Image.FilesAlike s.system.tree t.system.tree directory isWritten := by
  refine Image.filesAlike_of_alikeBut h.resembles.tree Mode.tells_rights ?_
  rintro _ rfl mode mode' content content' hs ht
  obtain ⟨_, _, _, _, hs', ht', hcontent⟩ := h.executed
  obtain ⟨-, rfl⟩ := Node.file.inj (Option.some.inj (hs.symm.trans hs'))
  obtain ⟨-, rfl⟩ := Node.file.inj (Option.some.inj (ht.symm.trans ht'))
  exact hcontent

/-- A command is carried out alike, whatever file it executes. -/
theorem Twins.carryOut (h : Twins loc s t) (c : Command) (into : Destination) :
    Agree (fun a b => Resembles (· = loc) a.1 b.1 ∧ a.2 = b.2) (s.carryOut c into)
      (t.carryOut c into) := by
  have hr := h.resembles
  exact carryOut_agree hr fun path _ => System.start_eq_of_filesAlike hr.directory hr.supply
    (congrArg List.length hr.running) hr.programPath (h.filesAlike _) hr.isWritten_eq

/-- Where one of the shells avoids the place, so does the other. -/
theorem Twins.avoids_target (h : Twins loc s t) {target : Option Text}
    (hinto : ∀ s' into, s.openTarget target = .ok (s', into) → into ≠ .file loc) :
    ∀ t' into, t.openTarget target = .ok (t', into) → into ≠ .file loc := by
  intro t' into ht
  rcases (openTarget_resembles h.resembles target).elim with
    ⟨_, -, hfault⟩ | ⟨⟨s', into'⟩, _, hs, hopened, -, hsame⟩
  · cases hfault.symm.trans ht
  · obtain rfl := Except.ok.inj (hopened.symm.trans ht)
    obtain rfl : into' = into := hsame
    exact hinto s' into' hs

/-- Two shells resemble each other after a command, and the same has come of it. -/
theorem Twins.resembles_runCommand (h : Twins loc s t)
    (hinto : ∀ s' into, s.openTarget c.target = .ok (s', into) → into ≠ .file loc) :
    Resembles (· = loc) (s.runCommand c).1 (t.runCommand c).1 ∧
      (s.runCommand c).2 = (t.runCommand c).2 := by
  rcases (openTarget_resembles h.resembles c.target).elim with
    ⟨fault, hs, ht⟩ | ⟨⟨s', into⟩, ⟨t', into'⟩, hs, ht, hr, hsame⟩
  · rw [runCommand_of_unopened hs, runCommand_of_unopened ht]
    exact ⟨h.resembles, rfl⟩
  · obtain rfl : into = into' := hsame
    have hne := hinto s' into hs
    have hopened : Twins loc s' t' := ⟨hr, h.executed.of_node?
      (Play.node?_of_emptied (Play.emptied_of_openTarget hs) hne)
      (Play.node?_of_emptied (Play.emptied_of_openTarget ht) hne)⟩
    rcases (hopened.carryOut c into).elim with
      ⟨fault, hs', ht'⟩ | ⟨⟨_, action⟩, ⟨_, action'⟩, hs', ht', hdone, haction⟩
    · cases hfatal : fault.isFatal with
      | true =>
          rw [runCommand_of_fatal hs hs' hfatal, runCommand_of_fatal ht ht' hfatal]
          exact ⟨hr, rfl⟩
      | false =>
          rw [runCommand_of_failed hs hs' hfatal, runCommand_of_failed ht ht' hfatal]
          refine ⟨?_, rfl⟩
          cases into with
          | inherited => exact hr
          | device d => exact hr
          | file other => exact { hr with tree := hr.tree.writeAt other 0 Fault.notice }
    · rw [runCommand_of_completed hs hs', runCommand_of_completed ht ht']
      exact ⟨hdone, congrArg Outcome.completed haction⟩

/-- **A command** that avoids the place comes to the same in both shells. -/
theorem Twins.runCommand (h : Twins loc s t)
    (hinto : ∀ s' into, s.openTarget c.target = .ok (s', into) → into ≠ .file loc) :
    Twins loc (s.runCommand c).1 (t.runCommand c).1 ∧ (s.runCommand c).2 = (t.runCommand c).2 := by
  obtain ⟨hr, houtcome⟩ := h.resembles_runCommand hinto
  have hs := (avoided_of_runCommand hinto).1
  have ht := (avoided_of_runCommand (h.avoids_target hinto)).1
  exact ⟨⟨hr, h.executed.of_node? hs ht⟩, houtcome⟩

theorem avoidsAll_cons
    (hinto : ∀ s' into, s.openTarget c.target = .ok (s', into) → into ≠ .file loc)
    (hcs : (s.runCommand c).2.stop? = none → (s.runCommand c).1.AvoidsAll loc cs) :
    s.AvoidsAll loc (c :: cs) := by
  intro x hx
  rw [reached, List.mem_cons] at hx
  rcases hx with rfl | hx
  · exact hinto
  · split at hx
    · simp at hx
    · rename_i hstop
      exact hcs hstop x hx

theorem Twins.avoidsAll (h : Twins loc s t) (havoids : s.AvoidsAll loc cs) :
    t.AvoidsAll loc cs := by
  induction cs generalizing s t with
  | nil => simp [AvoidsAll, reached]
  | cons c cs ih =>
      have hinto : ∀ s' into, s.openTarget c.target = .ok (s', into) → into ≠ .file loc :=
        fun s' into ho => havoids.head ho
      obtain ⟨hnext, houtcome⟩ := h.runCommand hinto
      refine avoidsAll_cons (h.avoids_target hinto) fun hstop => ih hnext (havoids.tail ?_)
      rw [houtcome, hstop]

end Shell

/-- What has come of a line is the same, and has left twins behind. -/
structure LineRun.Twins (loc : Location) (r q : LineRun) : Prop where
  shell : r.shell.Twins loc q.shell
  events : r.events = q.events
  children : r.children = q.children
  status : r.status = q.status

theorem LineRun.Twins.launches {r q : LineRun} (h : r.Twins loc q) : r.launches = q.launches := by
  rw [LineRun.launches, h.events, LineRun.launches]

namespace Shell

variable {s t : Shell} {cs : List Command} {line : Text}

/-- **Commands in a row** that avoid the place come to the same in both shells. -/
theorem Twins.runCommands (h : Twins loc s t) (havoids : s.AvoidsAll loc cs) :
    (s.runCommands cs).Twins loc (t.runCommands cs) := by
  induction cs generalizing s t with
  | nil => exact ⟨h, rfl, rfl, rfl⟩
  | cons c cs ih =>
      obtain ⟨hnext, houtcome⟩ := h.runCommand fun s' into ho => havoids.head ho
      rw [runCommands_cons, runCommands_cons, ← houtcome]
      cases hstop : (s.runCommand c).2.stop? with
      | some status => exact ⟨hnext, rfl, rfl, rfl⟩
      | none =>
          have hrest := ih hnext (havoids.tail hstop)
          exact ⟨hrest.shell, congrArg (_ ++ ·) hrest.events, congrArg (_ ++ ·) hrest.children,
            hrest.status⟩

/-- **A line** that avoids the place comes to the same in both shells. -/
theorem Twins.runLine (h : Twins loc s t) (havoids : s.Avoids loc line) :
    (s.runLine line).Twins loc (t.runLine line) := by
  unfold Shell.runLine
  cases hline : Line.commands line with
  | error m => exact ⟨h, rfl, rfl, rfl⟩
  | ok cs =>
      have hrun := h.runCommands (havoids cs hline)
      simp only [runAll, ← hrun.status]
      cases (s.runCommands cs).status with
      | continues =>
          simp only [LineRun.withEnded, LineRun.foldl_ended, LineRun.await_eq, ← hrun.children,
            ← hrun.events]
          refine ⟨⟨?_, hrun.shell.executed⟩, rfl, rfl, hrun.status⟩
          exact { hrun.shell.resembles with
            running := congrArg (List.foldl List.erase · _) hrun.shell.resembles.running }
      | _ => exact hrun

theorem Twins.avoids (h : Twins loc s t) (havoids : s.Avoids loc line) : t.Avoids loc line :=
  fun cs hcs => h.avoidsAll (havoids cs hcs)

end Shell

/-! ## Programs -/

namespace Scene

variable {W : Location → Prop} {s u : Scene}

/-- **The same but for files of `W`**, which have the same rights. -/
structure Resembles (W : Location → Prop) (s u : Scene) : Prop where
  tree : FileTree.AlikeBut Mode.rights W s.tree u.tree
  console : s.console = u.console

theorem Resembles.write (h : Resembles W s u) (into : Destination) (offset : Nat) (w : Write) :
    Resembles W (s.write into offset w) (u.write into offset w) := by
  cases into with
  | inherited => exact { h with console := congrArg (Console.add · w) h.console }
  | device d => exact h
  | file loc => exact { h with tree := h.tree.writeAt loc offset w.data }

theorem Resembles.writeAll (h : Resembles W s u) (into : Destination) (offset : Nat)
    (ws : List Write) : Resembles W (s.writeAll into offset ws) (u.writeAll into offset ws) := by
  induction ws generalizing s u offset with
  | nil => exact h
  | cons w ws ih => exact ih (h.write into offset w) _

theorem Resembles.act (h : Resembles W s u) (into : Destination) (a : Activity) :
    Resembles W (s.act into a) (u.act into a) := by
  let drained := u.console.drained
  have hdrained : Resembles W { s with console := drained } { u with console := drained } :=
    ⟨h.tree, rfl⟩
  unfold Scene.act
  rw [h.console]
  split
  · exact hdrained.writeAll into 0 _
  · exact h.writeAll into 0 _

/-- Programs do the same. -/
theorem Resembles.perform (h : Resembles W s u) (behaviour : Launch → Activity)
    (launches : List Launch) :
    Resembles W (s.perform behaviour launches) (u.perform behaviour launches) := by
  rw [Scene.perform, Scene.perform]
  generalize schedule behaviour launches = order
  induction order generalizing s u with
  | nil => exact h
  | cons l order ih => exact ih (h.act l.destination (behaviour l))

theorem Resembles.announce (h : Resembles W s u) (events : List Event) :
    Resembles W (s.announce events) (u.announce events) := by
  rw [announce_eq, announce_eq, h.console]
  exact ⟨h.tree, rfl⟩

end Scene

/-! ## Sessions -/

/-- **The same but for one file**, which has the same rights, and is executed alike. -/
structure Session.Twins (loc : Location) (s t : Session) : Prop where
  shell : s.shell.Twins loc t.shell
  console : s.console = t.console

structure Account.Twins (loc : Location) (a b : Account) : Prop where
  events : a.runs.map LineRun.events = b.runs.map LineRun.events
  finish : a.finish = b.finish
  session : a.session.Twins loc b.session

/-- The results are the same exit code, and twins. -/
theorem Account.Twins.result {a b : Account} (h : a.Twins loc b) :
    a.result.1 = b.result.1 ∧ a.result.2.Twins loc b.result.2 := by
  have hannounced : a.session.announceFailure.Twins loc b.session.announceFailure :=
    ⟨h.session.shell, congrArg (Console.add · ⟨.err, Fault.notice⟩) h.session.console⟩
  unfold Account.result
  rw [h.finish]
  split
  · exact ⟨rfl, hannounced⟩
  · exact ⟨rfl, h.session⟩

namespace Session

variable {behaviour : Launch → Activity} {s t : Session} {line : Text} {lines : List Text}

/-- **A line** that avoids the place comes to the same in both sessions. -/
theorem Twins.runLine (h : Twins loc s t) (behaviour : Launch → Activity)
    (havoids : s.shell.Avoids loc line) :
    Twins loc (s.runLine behaviour line).1 (t.runLine behaviour line).1 ∧
      (s.runLine behaviour line).2.Twins loc (t.runLine behaviour line).2 := by
  have hrun := h.shell.runLine havoids
  have hs := node?_runLine behaviour havoids
  have ht := node?_runLine behaviour (h.shell.avoids havoids)
  have hscene : Scene.Resembles (· = loc)
      { tree := (s.shell.runLine line).shell.system.tree, console := s.console }
      { tree := (t.shell.runLine line).shell.system.tree, console := t.console } :=
    ⟨hrun.shell.resembles.tree, h.console⟩
  have hscene := (hscene.announce (s.shell.runLine line).events).perform behaviour
    (s.shell.runLine line).launches
  refine ⟨⟨⟨?_, h.shell.executed.of_node? hs ht⟩, ?_⟩, hrun⟩
  · simp only [Session.runLine, ← hrun.events, ← hrun.launches]
    exact { hrun.shell.resembles with tree := hscene.tree }
  · simp only [Session.runLine, ← hrun.events, ← hrun.launches]
    exact hscene.console

theorem Twins.avoids (h : Twins loc s t) (havoids : s.Avoids behaviour loc lines) :
    t.Avoids behaviour loc lines := by
  induction lines generalizing s t with
  | nil => trivial
  | cons line lines ih =>
      obtain ⟨hline, hlines⟩ := havoids
      obtain ⟨hnext, hrun⟩ := h.runLine behaviour hline
      refine ⟨h.shell.avoids hline, fun hcontinues => ih hnext (hlines ?_)⟩
      rw [hrun.status, hcontinues]

/-- **Line after line**, the same comes of both sessions. -/
theorem Twins.runEach (h : Twins loc s t) (havoids : s.Avoids behaviour loc lines) :
    (s.runEach behaviour lines).Twins loc (t.runEach behaviour lines) := by
  induction lines generalizing s t with
  | nil => exact ⟨rfl, rfl, h⟩
  | cons line lines ih =>
      obtain ⟨hline, hlines⟩ := havoids
      obtain ⟨hnext, hrun⟩ := h.runLine behaviour hline
      have hstatus := congrArg Status.finish? hrun.status
      cases hfinish : (s.runLine behaviour line).2.status.finish? with
      | some finish =>
          rw [runEach_cons_of_some hfinish, runEach_cons_of_some (hstatus ▸ hfinish)]
          exact ⟨by simp [hrun.events], rfl, hnext⟩
      | none =>
          rw [runEach_cons_of_none hfinish, runEach_cons_of_none (hstatus ▸ hfinish)]
          have hrest := ih hnext (hlines (Status.finish?_eq_none_iff.mp hfinish))
          exact ⟨by simp [Account.after, hrun.events, hrest.events], hrest.finish, hrest.session⟩

end Session

/-! ## A file in the place of another -/

/-- A file is still in the form the machine executes, or not, after its octets have changed. -/
def Content.withOctets (data : Octets) : Content → Content
  | .octets _ => .octets data
  | .program => .program

namespace System

variable {system : System} {path : Text} {mode : Mode} {content : Content}

def withOctets (system : System) (loc : Location) (mode : Mode) (data : Octets) :
    Content → System
  | .octets _ => { system with tree := system.tree.put loc (.file mode (.octets data)) }
  | .program =>
    { system with machineCode := fun l => if l = loc then data else system.machineCode l }

theorem octets_withOctets (loc : Location) (mode : Mode) (content : Content) (data : Octets) :
    (system.withOctets loc mode data content).octets loc (content.withOctets data) = data := by
  cases content with
  | octets old => rfl
  | program => exact if_pos rfl

theorem alikeBut_withOctets (hnode : system.tree.node? loc = some (.file mode content))
    (data : Octets) : FileTree.AlikeBut Mode.rights (· = loc) system.tree
      (system.withOctets loc mode data content).tree := by
  have hsame := FileTree.AlikeBut.refl Mode.rights (· = loc) system.tree
  cases content with
  | octets old => exact (hsame.replace rfl hnode rfl (.octets data)).symm
  | program => exact hsame

theorem node?_withOctets (hnode : system.tree.node? loc = some (.file mode content))
    (data : Octets) : (system.withOctets loc mode data content).tree.node? loc =
      some (.file mode (content.withOctets data)) := by
  cases content with
  | octets old =>
      exact (FileTree.node?_put _ _ _ _ (FileTree.ne_nil_of_node?_file hnode)).trans (if_pos rfl)
  | program => exact hnode

/-- The path that has led to the file still does. -/
theorem find_withOctets
    (hfind : system.tree.find system.directory path = .ok (.file loc mode content))
    (data : Octets) : (system.withOctets loc mode data content).tree.find system.directory path =
      .ok (.file loc mode (content.withOctets data)) := by
  have hnode := FileTree.node?_of_find hfind
  rcases (FileTree.find_alikeBut (alikeBut_withOctets hnode data) system.directory path).elim with
    ⟨_, hfault, -⟩ | ⟨_, found, hfound, hfind', halike⟩
  · cases hfault.symm.trans hfind
  · obtain rfl := Except.ok.inj (hfound.symm.trans hfind)
    obtain ⟨mode', content', rfl⟩ : ∃ mode' content', found = .file loc mode' content' := by
      cases halike with
      | refl => exact ⟨_, _, rfl⟩
      | file c c' _ _ => exact ⟨_, _, rfl⟩
    have hput := (FileTree.node?_of_find hfind').symm.trans (node?_withOctets hnode data)
    obtain ⟨rfl, rfl⟩ := Node.file.inj (Option.some.inj hput)
    exact hfind'

end System

/-- **Two sessions over files that are the same up to a line feed** are twins. -/
theorem Session.twins_withOctets {system : System} {mode : Mode} {content : Content}
    {front back : Octets} (hnode : system.tree.node? loc = some (.file mode content))
    (hdata : system.octets loc content = front ++ lineFeed :: back) (back' : Octets)
    (console : Console) : (fresh system console).Twins loc
      (fresh (system.withOctets loc mode (front ++ lineFeed :: back') content) console) := by
  have htree := System.alikeBut_withOctets hnode (front ++ lineFeed :: back')
  have hnode' := System.node?_withOctets hnode (front ++ lineFeed :: back')
  cases content with
  | octets data =>
      obtain rfl : data = front ++ lineFeed :: back := hdata
      exact ⟨⟨⟨rfl, rfl, rfl, rfl, rfl, htree⟩, _, _, _, _, hnode, hnode',
        .octets (Interpreter.ofOctets?_append_cons front back back')⟩, rfl⟩
  | program => exact ⟨⟨⟨rfl, rfl, rfl, rfl, rfl, htree⟩, _, _, _, _, hnode, hnode', .refl _⟩, rfl⟩

end ParallelShell
