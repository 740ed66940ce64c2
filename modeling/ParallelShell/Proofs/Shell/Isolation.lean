import ParallelShell.Proofs.Shell.Omission

set_option autoImplicit false

/-! # A command that fails, and the line without it

Up to the turn of a command, a line and the same line without this command are the same; from its
turn on, if the command fails, they differ in one part and at most in one file. So the line without
the command comes to the same, but for the fault that is not reported
(`Play.lacksReport_of_follow`). And while the command has its turn, neither the search path nor the
current directory changes (`Play.settings_of_acts`).
-/

namespace ParallelShell

namespace Play

variable {writes : Nat → Launch → List Write} {n : Nat} {p q r : Play} {schedule : List Turn}

/-- Up to the command, no turn is that of a program behind it. -/
theorem map_without_of_follow (h : p.follow writes schedule = some q) (hn : q.parts.length ≤ n) :
    schedule.map (Turn.without n) = schedule := by
  induction schedule generalizing p with
  | nil => rfl
  | cons turn schedule ih =>
      obtain ⟨r, hstep, h⟩ := follow_cons_eq_some_iff.mp h
      have hle := length_parts_le_of_step (step_inv hstep)
      have hle' := length_parts_le_of_follow h
      rw [List.map_cons, without_eq_self (by omega) hstep, ih h]

/-! ## The search path and the current directory -/

/-- A turn changes neither the search path nor the current directory, unless a command becomes a
part that has not failed. -/
theorem settings_of_step (h : Step writes p q) :
    (q.shell.searchPath = p.shell.searchPath ∧
        q.shell.system.directory = p.shell.system.directory) ∨
      ∃ x, q.parts = p.parts ++ [x] ∧ ∀ fault, x.course ≠ .failed fault := by
  cases h with
  | finish _ _ _ => exact Or.inl ⟨rfl, rfl⟩
  | unopened _ _ _ => exact Or.inl ⟨rfl, rfl⟩
  | opened _ _ ho => exact Or.inl (Shell.searchPath_of_openTarget ho)
  | @carriedOut c into _ =>
      have hdone := carriedOut writes p c into
      generalize p.carryOut writes c into = q at hdone ⊢
      cases hdone with
      | part _ hfresh _ =>
          refine Or.inr ⟨_, rfl, fun fault hcourse => ?_⟩
          obtain rfl : _ = Course.failed fault := hcourse
          exact hfresh
      | failing => exact Or.inl ⟨rfl, rfl⟩
  | @notified c fault into _ =>
      rw [notify_eq]
      exact Or.inl ⟨rfl, rfl⟩
  | written _ _ => exact Or.inl ⟨rfl, rfl⟩
  | ends _ _ _ => exact Or.inl ⟨rfl, rfl⟩
  | supplied _ => exact Or.inl ⟨rfl, rfl⟩

/-- **Until the next command has had its turn** after one that has failed in the end, neither the
search path nor the current directory changes. -/
theorem settings_of_acts (hq : Acts writes p schedule q) (hr : p.follow writes schedule = some r)
    {x : Part} {fault : Fault} (hx : r.parts[n]? = some x) (hfailed : x.course = .failed fault)
    (hp : n ≤ p.parts.length) (hn : q.parts.length ≤ n + 1) :
    q.shell.searchPath = p.shell.searchPath ∧
      q.shell.system.directory = p.shell.system.directory := by
  induction hq with
  | now p schedule => exact ⟨rfl, rfl⟩
  | @later a b q turn schedule hstep hq ih =>
      obtain ⟨b', hstep', hrest⟩ := follow_cons_eq_some_iff.mp hr
      obtain rfl := Option.some.inj (hstep.symm.trans hstep')
      have hle := length_parts_le_of_step (step_inv hstep)
      obtain ⟨hpath, hdir⟩ := ih hrest (by omega) hn
      rcases settings_of_step (step_inv hstep) with ⟨hpath', hdir'⟩ | ⟨y, hparts, hne⟩
      · exact ⟨hpath.trans hpath', hdir.trans hdir'⟩
      · -- the part that is added would be that of the command, or of the next one
        obtain ⟨before, hbefore⟩ := follow_of_acts hq
        have hle' := length_parts_le_of_follow hbefore
        have hlength := congrArg List.length hparts
        rw [List.length_append, List.length_singleton] at hlength
        have hy : b.parts[n]? = some y := by
          rw [hparts, show n = a.parts.length by omega, List.getElem?_concat_length]
        obtain ⟨z, hz, hne⟩ := ne_failed_of_follow hrest hy hne
        obtain rfl := Option.some.inj (hz.symm.trans hx)
        exact absurd hfailed (hne fault)

end Play

/-! ## The line without the command -/

/-- **The same, but for one report**: of two line runs, the second has come to the same search path,
current directory and status as the first, has started the same programs, and has reported the same
faults except one. -/
structure LineRun.LacksReport (fault : Fault) (r r' : LineRun) : Prop where
  searchPath : r'.shell.searchPath = r.shell.searchPath
  directory : r'.shell.system.directory = r.shell.system.directory
  status : r'.status = r.status
  launches : r'.launches = r.launches
  faults : ∃ before after, r.faults = before ++ fault :: after ∧ r'.faults = before ++ after

namespace Play

variable {W : Location → Prop} {n : Nat} {p p' : Play}

theorem PastFailure.lacksReport (h : PastFailure W n p p') {x : Part} {fault : Fault}
    (hx : p.parts[n]? = some x) (hfailed : x.course = .failed fault) (status : Status) :
    LineRun.LacksReport fault (p.result status) (p'.result status) := by
  have hsplit : p.parts = p.parts.take n ++ x :: p.parts.drop (n + 1) := by
    obtain ⟨hlt, rfl⟩ := List.getElem?_eq_some_iff.mp hx
    rw [← List.drop_eq_getElem_cons hlt, List.take_append_drop]
  have hevent : x.event? = some (.reported fault x.into) := by rw [Part.event?, hfailed]
  have hevents : p.events = (p.parts.take n).filterMap Part.event? ++
      .reported fault x.into :: (p.parts.drop (n + 1)).filterMap Part.event? := by
    rw [events, hsplit, List.filterMap_append, List.filterMap_cons_some hevent, ← hsplit]
  have hevents' : p'.events = (p.parts.take n).filterMap Part.event? ++
      (p.parts.drop (n + 1)).filterMap Part.event? := by
    rw [events, h.parts, List.eraseIdx_eq_take_drop_succ, List.filterMap_append]
  refine ⟨by simp [h.shell.searchPath], by simp [h.shell.directory], by simp, ?_, ?_⟩
  · rw [launches_result, launches_result, Play.launches, Play.launches, hevents, hevents',
      List.filterMap_append, List.filterMap_append]
    rfl
  · rw [faults_result, faults_result, hevents, hevents', List.filterMap_append,
      List.filterMap_append]
    exact ⟨_, _, rfl, rfl⟩

variable {writes : Nat → Launch → List Write} {q : Play} {schedule : List Turn}

/-- From the turn of a command on, the line can be played without it. -/
theorem follow_of_turn {c : Command} {ds : List Command} {x : Part} {fault : Fault}
    (hphase : p.phase = .ready) (hleft : p.left = c :: ds)
    (hq : p.follow writes (.shell :: schedule) = some q) (hx : q.parts[p.parts.length]? = some x)
    (hfailed : x.course = .failed fault)
    (hthere : ∀ s loc, p.shell.openTarget c.target = .ok (s, .file loc) →
      W loc ∧ ∃ mode content, p.shell.system.tree.node? loc = some (.file mode content))
    (hspares : Spares W writes p.parts.length p (.shell :: schedule)) :
    ∃ schedule' q', Turn.Skips p.parts.length (.shell :: schedule) schedule' ∧
      (p.withLeft ds).follow (writesWithout p.parts.length writes) schedule' = some q' ∧
      PastFailure W p.parts.length q q' := by
  obtain ⟨r, hstep, hrest⟩ := follow_cons_eq_some_iff.mp hq
  have hr : AtFailure W r (p.withLeft ds) ∧ r.parts.length = p.parts.length := by
    simp only [step, hphase, open?, hleft] at hstep
    split at hstep
    · rename_i s into ho
      obtain rfl := Option.some.inj hstep
      refine ⟨⟨⟨c, into, Or.inl rfl, ?_⟩, hphase, rfl, rfl, rfl, ?_⟩, rfl⟩
      · rintro loc rfl
        exact (hthere s loc ho).1
      · refine (Shell.Resembles.refl W p.shell).openTarget_right ho ?_
        rintro loc rfl
        exact hthere s loc ho
    · rename_i fault' _
      obtain rfl := Option.some.inj hstep
      exact ⟨⟨⟨c, .inherited, Or.inr ⟨fault', rfl⟩, by simp⟩, hphase, rfl, rfl, rfl, .refl W _⟩,
        rfl⟩
  obtain ⟨schedule', q', hskips, hfollow, hpast⟩ :=
    hr.1.follow hr.2 hrest hx hfailed (hspares.later hstep)
  exact ⟨schedule', q', .skip hskips, hfollow, hpast⟩

/-- **Local failures are isolated.** Take any commands, any writes of the programs they start, and
any order in which the shell and the programs go on until the line ends, whatever the system grants
meanwhile. Let one of the commands have had its turn and failed, with a fault that does not end the
line. Assume that if its target could be opened and led to a file, then the file was there before,
and no command behind it executes this file, be it as a program or as the interpreter of a script.

Then the search path and the current directory are the same from the moment the command has its turn
until the next one has had its turn. And the line without the command, with its programs making the
same writes, in the same order but for the turns of the shell, ends with the same status: the other
commands have become the same parts, the search path and the current directory are the same in the
end, the same programs were started, and the same faults were reported but for this one. -/
theorem lacksReport_of_follow {s : Shell} {console : Console} {cs ds : List Command} {c : Command}
    {status : Status} {x : Part} {fault : Fault}
    (hp : (start s console (cs ++ c :: ds)).follow writes schedule = some p)
    (hend : p.phase = .ended status) (hx : p.parts[cs.length]? = some x)
    (hfailed : x.course = .failed fault)
    (htarget : ∀ q t loc, Acts writes (start s console (cs ++ c :: ds)) schedule q →
      q.phase = .ready → q.parts.length = cs.length →
      q.shell.openTarget c.target = .ok (t, .file loc) →
      (∃ mode content, q.shell.system.tree.node? loc = some (.file mode content)) ∧
        ∀ r, Acts writes (start s console (cs ++ c :: ds)) schedule r →
          cs.length < r.parts.length → loc ∉ r.executes) :
    (∃ searchPath directory, ∀ q, Acts writes (start s console (cs ++ c :: ds)) schedule q →
      q.parts.length = cs.length ∨ q.parts.length = cs.length + 1 →
        q.shell.searchPath = searchPath ∧ q.shell.system.directory = directory) ∧
    ∃ schedule' p', Turn.Skips cs.length schedule schedule' ∧
      (start s console (cs ++ ds)).follow (writesWithout cs.length writes) schedule' = some p' ∧
      p'.phase = .ended status ∧ p'.parts = p.parts.eraseIdx cs.length ∧
      LineRun.LacksReport fault (p.result status) (p'.result status) := by
  have hlt : cs.length < p.parts.length := (List.getElem?_eq_some_iff.mp hx).1
  obtain ⟨q, before, after, rfl, hbefore, hq, hphase, hleft, hlength, hacts⟩ :=
    exists_turn hp (by simp [commands, start, Phase.command?]) (List.suffix_append cs (c :: ds)) hlt
  have hnow : Acts writes (start s console (cs ++ c :: ds)) (before ++ .shell :: after) q :=
    acts_append hbefore (.now q after)
  rw [← hlength] at hx
  constructor
  · refine ⟨q.shell.searchPath, q.shell.system.directory, fun r hr hn => ?_⟩
    exact settings_of_acts (hacts r hr (by omega)) hq hx hfailed (Nat.le_refl _) (by omega)
  · -- up to its turn, the command makes no difference; from then on, only its target differs
    have hshort : (start s console (cs ++ ds)).follow (writesWithout cs.length writes) before =
        some (q.withLeft ds) := by
      obtain ⟨l, hl, hfollow⟩ := follow_withLeft hbefore (l := cs) rfl (Or.inl (by simp))
        (hleft ▸ List.suffix_refl _)
      have hnil : l = [] := List.append_left_eq_self.mp (hl.symm.trans hleft)
      rw [hnil] at hfollow
      exact follow_of_writes_eq (hfollow ds) fun k hk => writesWithout_of_lt (hlength ▸ hk)
    let W := fun loc => ∃ t, q.shell.openTarget c.target = .ok (t, .file loc)
    have hthere : ∀ t loc, q.shell.openTarget c.target = .ok (t, .file loc) →
        W loc ∧ ∃ mode content, q.shell.system.tree.node? loc = some (.file mode content) :=
      fun t loc ho => ⟨⟨t, ho⟩, (htarget q t loc hnow hphase hlength ho).1⟩
    have hspares : Spares W writes q.parts.length q (.shell :: after) := by
      rintro r hr hn loc hloc ⟨t, ho⟩
      obtain ⟨-, hunexecuted⟩ := htarget q t loc hnow hphase hlength ho
      exact hunexecuted r (acts_append hbefore hr) (hlength ▸ hn) hloc
    obtain ⟨schedule', p', hskips, hfollow, hpast⟩ :=
      follow_of_turn hphase hleft hq hx hfailed hthere hspares
    rw [hlength] at hskips hfollow hpast hx
    refine ⟨before ++ schedule', p', ?_, ?_, hpast.phase.trans hend, hpast.parts,
      hpast.lacksReport hx hfailed _⟩
    · have hsame := Turn.Skips.map_without cs.length before
      rw [map_without_of_follow hbefore (Nat.le_of_eq hlength)] at hsame
      exact hsame.append hskips
    · exact follow_append_eq_some_iff.mpr ⟨_, hshort, hfollow⟩

/-- A program that writes into a file, another that has the same target, a third that is started
meanwhile, and an exit. -/
def probesExit : List Command :=
  [{ name := text "probe", operands := [], target := some (text "out") }] ++
    { name := text "probe", operands := [text "a"], target := some (text "out") } ::
    [{ name := text "probe", operands := [], target := none },
      { name := text "exit", operands := [], target := none }]

/-- The first program writes before the target is emptied again, and then the target cannot be
copied for the second program. The third writes after the line has ended. -/
def writesBetween : List Turn :=
  [.shell, .shell, .program 0, .shell, .system { copying := some .tooManyFiles }, .shell, .shell,
    .shell, .shell, .shell, .shell, .program 2]

/-- Without the second command, the two other programs are started all the same, and nothing is
reported. -/
theorem lacksReport_probesExit : ∃ p schedule' p',
    (start .overProbe (.ofInput []) probesExit).follow oneWrite writesBetween = some p ∧
      p.phase = .ended .exits ∧
      (start .overProbe (.ofInput []) (probesExit.eraseIdx 1)).follow
        (writesWithout 1 oneWrite) schedule' = some p' ∧ p'.phase = .ended .exits ∧
      LineRun.LacksReport (.openTarget (text "out") (.errno .tooManyFiles))
        (p.result .exits) (p'.result .exits) := by
  have hrun : ((start .overProbe (.ofInput []) probesExit).follow oneWrite writesBetween).map
      (fun p => (p.phase, p.parts[1]?.bind Part.event?)) = some (.ended .exits,
        some (.reported (.openTarget (text "out") (.errno .tooManyFiles))
          (.file [text "out"]))) := by decide
  obtain ⟨p, hp, hpair⟩ := Option.map_eq_some_iff.mp hrun
  obtain ⟨hend, hevent⟩ := Prod.mk.inj hpair
  obtain ⟨x, hx, hevent⟩ := Option.bind_eq_some_iff.mp hevent
  -- when the target is opened again, it holds what the program has written; it is never executed
  have htarget : ∀ q ∈ (start .overProbe (.ofInput []) probesExit).acting oneWrite
      writesBetween, (q.phase = .ready → q.parts.length = 1 →
        (q.shell.openTarget (some (text "out"))).toOption.map Prod.snd =
            some (.file [text "out"]) ∧
          q.shell.system.tree.node? [text "out"] = some (.file .new (.octets [1]))) ∧
        [text "out"] ∉ q.executes := by decide +kernel
  obtain ⟨-, schedule', p', -, hp', hend', -, hlacks⟩ := lacksReport_of_follow hp hend hx
    (course_of_reported hevent) fun q t loc hq hphase hlength ho => by
      obtain ⟨hinto, hn⟩ := (htarget q (acts_iff_mem_acting.mp hq)).1 hphase hlength
      rw [ho] at hinto
      obtain rfl := Destination.file.inj (Option.some.inj hinto)
      exact ⟨⟨_, _, hn⟩, fun r hr _ => (htarget r (acts_iff_mem_acting.mp hr)).2⟩
  exact ⟨p, schedule', p', hp, hend, hp', hend', hlacks⟩

end Play

end ParallelShell
