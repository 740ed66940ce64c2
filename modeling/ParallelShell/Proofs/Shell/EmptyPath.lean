import ParallelShell.Proofs.Shell.Barrier
import ParallelShell.Proofs.Shell.Failures
import ParallelShell.Proofs.Shell.Rejection

set_option autoImplicit false

/-! # Shells with an empty search path

Where the search path is empty, no name leads to a program: not even a path does, since a path is
looked for in the directories of the search path like any other name. What is left of the commands
is what their names mean without programs: a built-in, or nothing. It makes no difference which
files there are, nor whether a redirection has just created one with the name of a built-in and the
right to be executed.

Only the built-in `path` can end this, and only if it has an operand (`Command.FillsPath`). As long
as no such command is executed, the search path stays empty, whatever else the lines do
(`Play.isBare_of_follow`). That is why `Shell.HasRunOnly` looks at the commands that were executed,
and not at those that were typed: a command whose target cannot be opened is not executed, and
neither is one behind an `exit`.

The main statement is `Shell.withoutPrograms_of_hasRunOnly`.
-/

namespace ParallelShell

def Command.FillsPath (c : Command) : Prop := c.name = BuiltIn.path.name ∧ c.operands ≠ []

/-! ## Commands -/

namespace Shell

variable {s s' : Shell} {c : Command} {into : Destination}

theorem program?_eq_none (h : s.searchPath.directories = []) (name : Text) :
    s.program? name = none := by
  simp [program?, SearchPath.find?, SearchPath.places, h]

/-- A built-in runs, since no program comes before it. -/
theorem carryOut_of_builtIn (h : s.searchPath.directories = []) {b : BuiltIn}
    (hb : b.name = c.name) : s.carryOut c into = s.runBuiltIn b c.operands := by
  have hm : s.meaning c.name = .builtIn b :=
    meaning_eq_builtIn_iff.mpr ⟨program?_eq_none h c.name, hb⟩
  simp only [carryOut, hm]

/-- Any other name is unknown. -/
theorem carryOut_of_unknown (h : s.searchPath.directories = [])
    (hb : ∀ b, BuiltIn.name b ≠ c.name) (into : Destination) :
    s.carryOut c into = .error (.unknownCommand c.name) := by
  have hnone : BuiltIn.ofName? c.name = none := by
    cases ho : BuiltIn.ofName? c.name with
    | none => rfl
    | some b => exact absurd ((BuiltIn.ofName?_eq_some_iff _ _).mp ho) (hb b)
  simp only [carryOut, meaning, program?_eq_none h, hnone]

/-- What is carried out starts no program, and fills the search path only if it is meant to. -/
theorem searchPath_of_carryOut (h : s.searchPath.directories = []) (hc : ¬ c.FillsPath)
    {action : Action} (hok : s.carryOut c into = .ok (s', action)) :
    s'.searchPath.directories = [] ∧ action.launch? = none := by
  rcases carryOut_eq_ok hok with ⟨path, _, hm, -⟩ | ⟨-, -, rfl, rfl⟩ | ⟨_, _, -, -, -, rfl, rfl⟩ |
    ⟨hm, rfl, rfl⟩
  · rw [meaning_eq_program_iff, program?_eq_none h] at hm
    cases hm
  · exact ⟨h, rfl⟩
  · exact ⟨h, rfl⟩
  · have hname : c.name = BuiltIn.path.name := (meaning_eq_builtIn_iff.mp hm).2.symm
    refine ⟨?_, rfl⟩
    by_contra hne
    exact hc ⟨hname, hne⟩

end Shell

/-! ## Lines -/

namespace Play

variable {writes : Nat → Launch → List Write} {p q x : Play} {schedule : List Turn}
  {turn : Turn} {c : Command} {into : Destination} {allowed : Command → Prop} {s : Shell}
  {console : Console} {cs : List Command}

/-- **A command is executed** along a schedule: its target has been opened, and the shell takes its
turn to carry it out, in the last of these plays. -/
structure Executes (writes : Nat → Launch → List Write) (p : Play) (schedule : List Turn)
    (c : Command) (into : Destination) (q : Play) : Prop where
  acts : Acts writes p schedule q
  phase : q.phase = .opened c into

/-- The commands that are executed along a schedule are allowed. -/
def ExecutesOnly (allowed : Command → Prop) (writes : Nat → Launch → List Write) (p : Play)
    (schedule : List Turn) : Prop :=
  ∀ c into q, Executes writes p schedule c into q → allowed c

theorem ExecutesOnly.of_append {before after : List Turn}
    (h : ExecutesOnly allowed writes p (before ++ after)) : ExecutesOnly allowed writes p before :=
  fun c into q hq => h c into q ⟨hq.acts.append_right after, hq.phase⟩

/-- What is executed was typed. -/
theorem mem_of_executes (h : Executes writes (start s console cs) schedule c into q) : c ∈ cs := by
  obtain ⟨before, hbefore⟩ := follow_of_acts h.acts
  have hcs : q.commands = cs := commands_of_follow hbefore
  rw [← hcs, commands, h.phase]
  simp [Phase.command?]

/-- **No programs**: the search path is empty, none has been started, and the line has not
failed. -/
structure IsBare (p : Play) : Prop where
  searchPath : p.shell.searchPath.directories = []
  launches : p.launches = []
  phase : ∀ fault, p.phase ≠ .ended (.fails fault)

/-- One more command has had its turn. -/
theorem IsBare.withPart (h : p.IsBare) {y : Part} (hparts : q.parts = p.parts ++ [y])
    (hs : q.shell.searchPath.directories = []) (hy : y.event?.toList.filterMap Event.launch? = [])
    (hphase : ∀ fault, q.phase ≠ .ended (.fails fault)) : q.IsBare := by
  refine ⟨hs, ?_, hphase⟩
  have hlaunches : q.launches = (p.withPart y).launches := by
    simp only [Play.launches, Play.events, hparts, Play.withPart]
  rw [hlaunches, launches_withPart, h.launches, hy, List.append_nil]

theorem IsBare.carryOut (h : p.IsBare) (hc : ¬ c.FillsPath) :
    (p.carryOut writes c into).IsBare := by
  have hcomes := comesTo_carryOut writes p c into
  generalize p.carryOut writes c into = q at hcomes ⊢
  cases hcomes with
  | started hok => cases (Shell.searchPath_of_carryOut h.searchPath hc hok).2
  | done hok =>
      have hs := (Shell.searchPath_of_carryOut h.searchPath hc hok).1
      exact h.withPart rfl hs rfl (by simp [Play.withPart])
  | exit hok =>
      have hs := (Shell.searchPath_of_carryOut h.searchPath hc hok).1
      exact h.withPart rfl hs rfl (by simp)
  | fatal herror hf =>
      -- only a program can be in need of a process
      obtain ⟨path, e, hstarves, -⟩ := Shell.carryOut_eq_fatal_iff.mp ⟨herror, hf⟩
      have hprogram := hstarves.needs.1
      rw [Shell.program?_eq_none h.searchPath] at hprogram
      cases hprogram
  | failed _ _ => exact ⟨h.searchPath, h.launches, by simp⟩

/-- **Every turn** leaves it at that, unless the search path is filled in it. -/
theorem IsBare.step (h : p.IsBare) (hstep : p.step writes turn = some q)
    (hc : turn = .shell → ∀ c into, p.phase = .opened c into → ¬ c.FillsPath) : q.IsBare := by
  cases turn with
  | program n =>
      have hevents := (sameTurn_of_ne_shell hstep (by simp)).events
      have hlaunches : q.launches = [] :=
        (congrArg (List.filterMap Event.launch?) hevents).trans h.launches
      cases step_program_iff.mp hstep with
      | written _ _ => exact ⟨h.searchPath, hlaunches, h.phase⟩
      | ends _ _ _ => exact ⟨h.searchPath, hlaunches, h.phase⟩
  | system supply =>
      obtain rfl := Option.some.inj hstep
      exact ⟨h.searchPath, h.launches, h.phase⟩
  | shell =>
      cases acted_of_step hstep with
      | finish _ _ _ => exact ⟨h.searchPath, h.launches, by simp⟩
      | unopened _ _ _ => exact ⟨h.searchPath, h.launches, by simp⟩
      | opened _ _ ho =>
          exact ⟨(Shell.searchPath_of_openTarget ho).1 ▸ h.searchPath, h.launches, by simp⟩
      | carriedOut hp => exact h.carryOut (hc rfl _ _ hp)
      | notified _ =>
          rw [notify_eq]
          exact h.withPart rfl h.searchPath rfl (by simp [Play.withPart])

/-- **Along a schedule** in which the search path is not filled there are no programs. The commands
that are executed belong to the turns so far, and so does the induction. -/
theorem isBare_of_follow (hs : s.searchPath.directories = [])
    (h : (start s console cs).follow writes schedule = some p)
    (honly : ExecutesOnly (fun c => ¬ c.FillsPath) writes (start s console cs) schedule) :
    p.IsBare := by
  refine follow_induction (P := fun schedule p =>
    ExecutesOnly (fun c => ¬ c.FillsPath) writes (start s console cs) schedule → p.IsBare)
    (fun _ => ⟨hs, rfl, by simp [start]⟩) ?_ h honly
  intro schedule turn q r hq hstep ih honly
  refine (ih honly.of_append).step hstep ?_
  rintro rfl c into hphase
  exact honly c into q ⟨acts_append hq (.now q []), hphase⟩

/-- **What a line does without programs**, along a schedule that leads from one play to another:
every command that is executed is a built-in, or unknown. One that is unknown is reported, once the
line has ended; the number is its place in the line. -/
structure WithoutPrograms (writes : Nat → Launch → List Write) (p : Play) (schedule : List Turn)
    (q : Play) : Prop where
  bare : q.IsBare
  builtIn : ∀ c into x b, Executes writes p schedule c into x → BuiltIn.name b = c.name →
    x.shell.carryOut c into = x.shell.runBuiltIn b c.operands
  unknown : ∀ c into x, Executes writes p schedule c into x → (∀ b, BuiltIn.name b ≠ c.name) →
    x.shell.carryOut c into = .error (.unknownCommand c.name) ∧
      ∀ status, q.phase = .ended status →
        { number := x.parts.length, fault := .unknownCommand c.name, into } ∈ q.reported

theorem withoutPrograms_of_follow (hs : s.searchPath.directories = [])
    (h : (start s console cs).follow writes schedule = some p)
    (honly : ExecutesOnly (fun c => ¬ c.FillsPath) writes (start s console cs) schedule) :
    WithoutPrograms writes (start s console cs) schedule p := by
  -- before each turn of the shell it has been like that as well
  have hbefore : ∀ {c into x}, Executes writes (start s console cs) schedule c into x →
      x.shell.searchPath.directories = [] := by
    rintro c into x ⟨hacts, -⟩
    obtain ⟨before, after, rfl, hx⟩ := exists_append_of_acts hacts
    exact (isBare_of_follow hs hx honly.of_append).searchPath
  refine ⟨isBare_of_follow hs h honly, fun c into x b hx hb => ?_, fun c into x hx hb => ?_⟩
  · exact Shell.carryOut_of_builtIn (hbefore hx) hb
  · have herror := Shell.carryOut_of_unknown (hbefore hx) hb into
    refine ⟨herror, fun status hend => ?_⟩
    rw [(reported_of_ended h hend).2, List.mem_filterMap]
    refine ⟨x, acts_iff_mem_acting.mp hx.acts, ?_⟩
    simp only [failure?, hx.phase, herror]
    rfl

end Play

/-! ## Line after line -/

namespace Shell

/-- **A session so far** in which no other commands than allowed ones were executed. -/
inductive HasRunOnly (allowed : Command → Prop) (s : Shell) : List LineRun → Shell → Prop
  | start : HasRunOnly allowed s [] s
  | rejected {runs : List LineRun} {t : Shell} {line : Text} {m : Malformed} :
      HasRunOnly allowed s runs t → Line.commands line = .error m →
        HasRunOnly allowed s (runs ++ [t.rejected m]) t
  | line {runs : List LineRun} {t : Shell} {line : Text} {cs : List Command} {console : Console}
      {writes : Nat → Launch → List Write} {schedule : List Turn} {p : Play} {status : Status} :
      HasRunOnly allowed s runs t → Line.commands line = .ok cs →
        (Play.start t console cs).follow writes schedule = some p → p.phase = .ended status →
          Play.ExecutesOnly allowed writes (Play.start t console cs) schedule →
            HasRunOnly allowed s (runs ++ [p.result status])
              (p.result status).shell

variable {allowed : Command → Prop} {s t : Shell} {runs : List LineRun}

/-- Of the lines of such a session, none has started a program, and none has failed. -/
theorem HasRunOnly.isBare (h : s.HasRunOnly (fun c => ¬ c.FillsPath) runs t)
    (hs : s.searchPath.directories = []) : t.searchPath.directories = [] ∧
      ∀ r ∈ runs, r.launches = [] ∧ ∀ fault, r.status ≠ .fails fault := by
  induction h with
  | start => exact ⟨hs, by simp⟩
  | @rejected runs t line m _ _ ih =>
      refine ⟨ih.1, List.forall_mem_append.mpr ⟨ih.2, List.forall_mem_singleton.mpr ?_⟩⟩
      exact ⟨rfl, fun _ hfails => by cases hfails⟩
  | @line runs t line cs console writes schedule p status _ _ hp hend honly ih =>
      have hbare := Play.isBare_of_follow ih.1 hp honly
      refine ⟨?_, List.forall_mem_append.mpr ⟨ih.2, List.forall_mem_singleton.mpr ⟨?_, ?_⟩⟩⟩
      · rw [Play.shell_result]
        exact hbare.searchPath
      · rw [Play.launches_result]
        exact hbare.launches
      · intro fault hfails
        rw [Play.status_result] at hfails
        exact hbare.phase fault (hfails ▸ hend)

/-- **An empty search path disables programs until it is set again.** Take a shell with an empty
search path, on any system, and any session it has run in which no command was executed that is
called `path` and has an operand. Then the search path is still empty, no line has started a
program, and none has failed. The same holds at every moment of the next line, as long as no such
command is executed there. And of the commands that are executed, `exit`, `cd` and `path` run as
built-ins, and every other is unknown, and reported as that, whatever its name looks like and
whatever files there are. -/
theorem withoutPrograms_of_hasRunOnly (h : s.HasRunOnly (fun c => ¬ c.FillsPath) runs t)
    (hs : s.searchPath.directories = []) :
    t.searchPath.directories = [] ∧
      (∀ r ∈ runs, r.launches = [] ∧ ∀ fault, r.status ≠ .fails fault) ∧
      ∀ line cs, Line.commands line = .ok cs → ∀ console writes schedule p,
        (Play.start t console cs).follow writes schedule = some p →
          Play.ExecutesOnly (fun c => ¬ c.FillsPath) writes (.start t console cs) schedule →
            Play.WithoutPrograms writes (.start t console cs) schedule p := by
  obtain ⟨ht, hruns⟩ := h.isBare hs
  exact ⟨ht, hruns, fun line cs _ console writes schedule p hp honly =>
    Play.withoutPrograms_of_follow ht hp honly⟩

/-- The shell over a single program, with an empty search path. -/
def pathless : Shell := { overProbe with searchPath := { directories := [] } }

def nopeToExit : List Command :=
  [{ name := text "nope", operands := [], target := some (text "exit") }]

def probeExit : List Command :=
  [{ name := text "/bin/probe", operands := [], target := none },
    { name := text "exit", operands := [], target := none }]

/-- A redirection has created a file `exit` that may be executed, and still the built-in runs; the
program is unknown even under its own path. -/
theorem withoutPrograms_probeExit : ∃ r t p,
    pathless.HasRunOnly (fun c => ¬ c.FillsPath) [r] t ∧
      t.system.tree.isExecutable [] (text "exit") = true ∧ t.searchPath.directories = [] ∧
      (Play.start t (.ofInput []) probeExit).follow Play.oneWrite (List.replicate 5 .shell) =
        some p ∧
      p.phase = .ended .exits ∧
      Play.WithoutPrograms Play.oneWrite (.start t (.ofInput []) probeExit)
        (List.replicate 5 .shell) p := by
  have honly : ∀ cs, cs = nopeToExit ∨ cs = probeExit → ∀ s schedule,
      Play.ExecutesOnly (fun c => ¬ c.FillsPath) Play.oneWrite (.start s (.ofInput []) cs)
        schedule := by
    intro cs hcs s schedule c into q hq hfills
    have hmem := Play.mem_of_executes hq
    have hnone : ∀ c ∈ nopeToExit ++ probeExit, c.name ≠ BuiltIn.path.name := by decide
    rcases hcs with rfl | rfl
    · exact hnone c (List.mem_append_left _ hmem) hfills.1
    · exact hnone c (List.mem_append_right _ hmem) hfills.1
  have hline : Line.commands (text "nope > exit") = .ok nopeToExit := by decide
  have hfirst : ((Play.start pathless (.ofInput []) nopeToExit).follow Play.oneWrite
      (List.replicate 4 .shell)).map (fun p => p.phase) = some (.ended .continues) := by decide
  obtain ⟨p, hp, hend⟩ := Option.map_eq_some_iff.mp hfirst
  have hrun : pathless.HasRunOnly (fun c => ¬ c.FillsPath) ([] ++ [p.result .continues])
      (p.result .continues).shell :=
    .line .start hline hp hend (honly _ (.inl rfl) _ _)
  have hsecond : (((Play.start pathless (.ofInput []) nopeToExit).follow Play.oneWrite
      (List.replicate 4 .shell)).bind fun p => ((Play.start (p.result .continues).shell
        (.ofInput []) probeExit).follow Play.oneWrite (List.replicate 5 .shell)).map
          fun q => (p.shell.system.tree.isExecutable [] (text "exit"), q.phase)) =
      some (true, .ended .exits) := by decide
  rw [hp, Option.bind_some] at hsecond
  obtain ⟨q, hq, hpair⟩ := Option.map_eq_some_iff.mp hsecond
  obtain ⟨hexecutable, hexits⟩ := Prod.mk.inj hpair
  obtain ⟨hempty, -, hnext⟩ := withoutPrograms_of_hasRunOnly hrun rfl
  rw [← Play.shell_result p .continues] at hexecutable
  exact ⟨_, _, q, hrun, hexecutable, hempty, hq, hexits,
    hnext (text "/bin/probe & exit") probeExit (by decide) _ _ _ q hq
      (honly _ (.inr rfl) _ _)⟩

end Shell

end ParallelShell
