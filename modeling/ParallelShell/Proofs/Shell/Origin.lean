import ParallelShell.Proofs.FileTree.Entry
import ParallelShell.Proofs.Line.Written
import ParallelShell.Proofs.Program.Load
import ParallelShell.Proofs.Shell.Barrier

set_option autoImplicit false

/-! # Where programs come from

The system executes the file behind a path only if the path has a slash in it. A path without one is
taken for a bare name, and looked up in the directories of the environment. A shell hands over such
a path only if one of its own directories is the empty text; and no line can put that into the
search path, since every directory it names is a word (`Shell.PlainSince`).

So if the search path has no empty directory to begin with, the program that a command starts is
always the first one of its name on the search path, and the file that is executed is the one that
was tested: `Shell.StartsFirst`. The main statement is `startsFirst_of_hasRun`.
-/

namespace ParallelShell

namespace Image

variable {t : FileTree} {directory : Location} {isWritten : Location → Bool} {path : Text}
  {arguments : List Octets}

/-- A path with a slash is not looked up in the environment. -/
theorem load_of_slash (h : Path.slash ∈ path) (programPath : List Text) :
    load t directory isWritten programPath path arguments =
      if !fits arguments then .error (.errno .argumentsTooLong)
      else loadFile t directory isWritten path arguments := by
  simp only [load, List.contains_iff_mem.mpr h, if_true]

/-- What is executed for a path with a slash is the file that the path leads to, or the interpreter
of that file. -/
theorem ofFile_of_load (h : Path.slash ∈ path) {programPath : List Text} {image : Image}
    (hload : load t directory isWritten programPath path arguments = .ok image)
    {loc : Location} {mode : Mode} {content : Content}
    (hfind : t.find directory path = .ok (.file loc mode content)) :
    ofFile (interpret t directory isWritten maxScripts) (loc, content) (Text.encode path)
      arguments = .ok image := by
  rw [load_of_slash h] at hload
  split at hload
  · cases hload
  · unfold loadFile at hload
    split at hload
    · cases hload
    · rename_i file ho
      obtain ⟨mode', hfind'⟩ := find_of_openFile ho
      have hfile : Found.file loc mode content = .file file.1 mode' file.2 :=
        Except.ok.inj (hfind.symm.trans hfind'.1)
      obtain ⟨rfl, -, rfl⟩ := Found.file.inj hfile
      exact hload

end Image

namespace System

variable {s : System} {path : Text} {arguments : List Text} {into : Destination} {launch : Launch}

/-- **The environment has no say** in what is started under a path with a slash. -/
theorem start_withProgramPath (h : Path.slash ∈ path) (s : System) (programPath : List Text)
    (arguments : List Text) (into : Destination) :
    ({ s with programPath } : System).start path arguments into = s.start path arguments into := by
  unfold start
  simp only [Image.load_of_slash h]
  rfl

theorem load_of_start (h : s.start path arguments into = .ok launch) : launch.path = path ∧
    Image.load s.tree s.directory (fun loc => into = .file loc || s.isWritten loc) s.programPath
      path (arguments.map Text.encode) = .ok launch.image := by
  unfold start at h
  split at h
  · cases h
  · split at h
    · cases h
    · dsimp only at h
      split at h
      · cases h
      · rename_i image hload
        obtain rfl := Except.ok.inj h
        exact ⟨rfl, hload⟩

end System

namespace Shell

/-- **What a command starts is the first program of its name.** The path is that of the first
directory on the search path in which the name is an executable file; the system does not look
anywhere else for it; and if the start succeeds, what is executed is this file, or the interpreter
that it names. -/
structure StartsFirst (s : Shell) (c : Command) (into : Destination) (path : Text) : Prop where
  slash : Path.slash ∈ path
  first : ∃ before d after, s.searchPath.directories = before ++ d :: after ∧
    path = Path.join d c.name ∧
    ∀ e ∈ before, s.system.tree.isExecutable s.system.directory (Path.join e c.name) = false
  environment : ∀ programPath,
    ({ s.system with programPath } : System).start path (c.name :: c.operands) into =
      s.system.start path (c.name :: c.operands) into
  executed : ∃ loc mode content,
    s.system.tree.find s.system.directory path = .ok (.file loc mode content) ∧
    mode.mayExecute = true ∧
    ∀ launch, s.system.start path (c.name :: c.operands) into = .ok launch → launch.path = path ∧
      Image.ofFile (Image.interpret s.system.tree s.system.directory
          (fun loc => into = .file loc || s.system.isWritten loc) Image.maxScripts) (loc, content)
        (Text.encode path) ((c.name :: c.operands).map Text.encode) = .ok launch.image ∧
      (content = .program → launch.image.loc = loc)

/-- **Since the search path was a given one**, only plain words have been put into it. -/
def PlainSince (old : SearchPath) (s : Shell) : Prop :=
  s.searchPath = old ∨ ∀ d ∈ s.searchPath.directories, Line.IsPlain d

variable {s s' : Shell} {old : SearchPath} {c : Command} {into : Destination} {path : Text}

theorem PlainSince.ne_nil (h : s.PlainSince old) (hold : ∀ d ∈ old.directories, d ≠ []) :
    ∀ d ∈ s.searchPath.directories, d ≠ [] := by
  rcases h with heq | hplain
  · exact heq ▸ hold
  · exact fun d hd => (hplain d hd).1

/-- Of what a command does, only the built-in `path` changes the search path, and its operands are
words. -/
theorem PlainSince.carryOut (h : s.PlainSince old) (hc : c.IsWritable) {action : Action}
    (hok : s.carryOut c into = .ok (s', action)) : s'.PlainSince old := by
  rcases carryOut_eq_ok hok with ⟨_, _, _, _, rfl, _⟩ | ⟨_, _, rfl, _⟩ | ⟨_, _, _, _, _, rfl, _⟩ |
    ⟨_, rfl, _⟩
  · exact h
  · exact h
  · exact h
  · exact Or.inr fun d hd => hc.words d (List.mem_cons_of_mem _ hd)

/-- **Where a program is found** on a search path without an empty directory. -/
theorem startsFirst_of_meaning (hs : ∀ d ∈ s.searchPath.directories, d ≠ [])
    (h : s.meaning c.name = .program path) (into : Destination) : s.StartsFirst c into path := by
  obtain ⟨before, d, after, hdirectories, rfl, hexec, hbefore⟩ :=
    SearchPath.find?_eq_some_iff.mp (meaning_eq_program_iff.mp h)
  have hslash : Path.slash ∈ Path.join d c.name :=
    Path.slash_mem_join (hs d (by simp [hdirectories])) c.name
  obtain ⟨loc, mode, content, hfile, hmode⟩ := FileTree.exists_file_of_isExecutable hexec
  refine ⟨hslash, ⟨before, d, after, hdirectories, rfl, hbefore⟩,
    fun programPath => System.start_withProgramPath hslash s.system programPath _ _,
    loc, mode, content, hfile, hmode, fun launch hstart => ?_⟩
  obtain ⟨hpath, hload⟩ := System.load_of_start hstart
  have himage := Image.ofFile_of_load hslash hload hfile
  refine ⟨hpath, himage, fun hcontent => ?_⟩
  subst hcontent
  exact (congrArg Image.loc (Except.ok.inj himage)).symm

end Shell

namespace Play

variable {writes : Nat → Launch → List Write} {p q : Play} {schedule : List Turn}
  {old : SearchPath}

/-- **The search path holds plain words only**, and so do the paths of all programs that have been
started hold a slash. -/
structure StartsPlain (old : SearchPath) (p : Play) : Prop where
  plain : p.shell.PlainSince old
  slash : ∀ launch ∈ p.launches, Path.slash ∈ launch.path

theorem mem_commands_of_phase {c : Command} (h : p.phase.command? = some c) : c ∈ p.commands := by
  simp [commands, h]

/-- One more command has had its turn. -/
theorem StartsPlain.withPart (h : p.StartsPlain old) {x : Part} (hq : q.shell.PlainSince old)
    (hparts : q.parts = p.parts ++ [x])
    (hx : ∀ launch, x.event? = some (.started launch) → Path.slash ∈ launch.path) :
    q.StartsPlain old := by
  refine ⟨hq, fun launch hlaunch => ?_⟩
  rw [launches, events, hparts, List.filterMap_append, List.filterMap_append] at hlaunch
  rcases List.mem_append.mp hlaunch with hlaunch | hlaunch
  · exact h.slash launch hlaunch
  · obtain ⟨e, he, hlaunch⟩ := List.mem_filterMap.mp hlaunch
    obtain ⟨y, hy, he⟩ := List.mem_filterMap.mp he
    rw [List.mem_singleton.mp hy] at he
    cases e with
    | started l => exact Option.some.inj hlaunch ▸ hx l he
    | reported fault into => cases hlaunch
    | waited n => cases hlaunch

/-- The turn in which a command is carried out. -/
theorem StartsPlain.carryOut (hold : ∀ d ∈ old.directories, d ≠ []) (h : p.StartsPlain old)
    {c : Command} (hc : c.IsWritable) (into : Destination) :
    (p.carryOut writes c into).StartsPlain old := by
  have hcomes := comesTo_carryOut writes p c into
  generalize p.carryOut writes c into = q at hcomes ⊢
  cases hcomes with
  | @started s launch hok =>
      refine h.withPart (h.plain.carryOut hc hok) rfl fun l hl => ?_
      obtain rfl : launch = l := Event.started.inj (Option.some.inj hl)
      rcases Shell.carryOut_eq_ok hok with ⟨path, l, hm, hstart, -, ha⟩ | ⟨-, -, -, ha⟩ |
        ⟨_, _, -, -, -, -, ha⟩ | ⟨-, -, ha⟩
      · obtain rfl := Action.started.inj ha
        have hfirst := Shell.startsFirst_of_meaning (h.plain.ne_nil hold) hm into
        exact (System.load_of_start hstart).1 ▸ hfirst.slash
      all_goals cases ha
  | done hok => exact h.withPart (h.plain.carryOut hc hok) rfl fun _ hl => by cases hl
  | exit hok => exact h.withPart (h.plain.carryOut hc hok) rfl fun _ hl => by cases hl
  | fatal _ _ => exact h.withPart h.plain rfl fun _ hl => by cases hl
  | failed _ _ => exact ⟨h.plain, h.slash⟩

theorem StartsPlain.step (hold : ∀ d ∈ old.directories, d ≠ []) (hstep : Step writes p q)
    (hcs : ∀ c ∈ p.commands, c.IsWritable) (h : p.StartsPlain old) : q.StartsPlain old := by
  cases hstep with
  | finish _ _ _ => exact ⟨h.plain, h.slash⟩
  | unopened _ _ _ => exact ⟨h.plain, h.slash⟩
  | opened _ _ ho =>
      have hsearch := (Shell.searchPath_of_openTarget ho).1
      exact ⟨h.plain.imp hsearch.trans fun hplain => hsearch.symm ▸ hplain, h.slash⟩
  | carriedOut hp => exact h.carryOut hold (hcs _ (mem_commands_of_phase (by rw [hp]; rfl))) _
  | notified _ =>
      rw [notify_eq]
      exact h.withPart h.plain rfl fun _ hl => by cases hl
  | written hn hcourse =>
      refine ⟨h.plain, ?_⟩
      rw [launches, events, parts_withWritten,
        filterMap_set_of_getElem? Part.event? hn (event?_eq_of_program hcourse _ _)]
      exact h.slash
  | ends hn _ _ =>
      refine ⟨h.plain, ?_⟩
      rw [launches, events, parts_withEnded,
        filterMap_set_of_getElem? Part.event? hn (event?_ended _)]
      exact h.slash
  | supplied _ => exact ⟨h.plain, h.slash⟩

theorem startsPlain_of_follow {s : Shell} {console : Console} {line : Text} {cs : List Command}
    (hold : ∀ d ∈ old.directories, d ≠ []) (hs : s.PlainSince old)
    (hline : Line.commands line = .ok cs)
    (h : (start s console cs).follow writes schedule = some p) : p.StartsPlain old := by
  have hkeeps : ∀ p q, Step writes p q → p.commands = cs ∧ p.StartsPlain old →
      q.commands = cs ∧ q.StartsPlain old := by
    rintro p q hstep ⟨hcommands, hp⟩
    refine ⟨(commands_of_step hstep).trans hcommands, hp.step hold hstep ?_⟩
    exact hcommands ▸ Line.isWritable_of_commands hline
  exact (follow_preserves hkeeps h ⟨rfl, hs, by simp [launches, events, start]⟩).2

end Play

namespace Shell

variable {s t : Shell} {old : SearchPath} {line : Text} {r : LineRun} {runs : List LineRun}

/-- What a line leaves of the search path, and what it has started. -/
theorem PlainSince.plays (hold : ∀ d ∈ old.directories, d ≠ []) (h : s.PlainSince old)
    (hr : s.Plays line r) :
    r.shell.PlainSince old ∧ ∀ launch ∈ r.launches, Path.slash ∈ launch.path := by
  obtain ⟨schedule, hr⟩ := hr
  unfold PlaysAlong at hr
  split at hr
  · rename_i m hline
    rw [hr, runLine, hline]
    exact ⟨h, by simp [LineRun.launches, Event.launch?, List.filterMap]⟩
  · rename_i cs hline
    obtain ⟨console, writes, p, status, hp, -, rfl⟩ := hr
    have hplain := Play.startsPlain_of_follow hold h hline hp
    refine ⟨?_, ?_⟩
    · rw [Play.shell_result]
      exact hplain.plain
    · rw [Play.launches_result]
      exact hplain.slash

theorem HasRun.plainSince (hs : ∀ d ∈ s.searchPath.directories, d ≠ [])
    (h : s.HasRun runs t) : t.PlainSince s.searchPath ∧
      ∀ r ∈ runs, ∀ launch ∈ r.launches, Path.slash ∈ launch.path := by
  induction h with
  | start => exact ⟨Or.inl rfl, by simp⟩
  | line _ hr ih =>
      obtain ⟨hplain, hslash⟩ := ih.1.plays hs hr
      exact ⟨hplain, List.forall_mem_append.mpr ⟨ih.2, List.forall_mem_singleton.mpr hslash⟩⟩

/-- **The program that is run is the file that was tested.** Take a shell whose search path has no
empty directory, such as the standard one, and any session it has run. Then every directory that was
put into the search path since is a plain word, and every program was started under a path with a
slash in it. The same holds at every moment of the next line. And when a command is carried out
there whose name leads to a program, then its path is the first on the search path at that moment to
be an executable file, whatever the environment says; and what the start executes is that file. -/
theorem startsFirst_of_hasRun (h : s.HasRun runs t)
    (hs : ∀ d ∈ s.searchPath.directories, d ≠ []) :
    t.PlainSince s.searchPath ∧
      (∀ r ∈ runs, ∀ launch ∈ r.launches, Path.slash ∈ launch.path) ∧
      ∀ line cs, Line.commands line = .ok cs → ∀ console writes schedule p,
        (Play.start t console cs).follow writes schedule = some p →
          p.shell.PlainSince s.searchPath ∧
          (∀ launch ∈ p.launches, Path.slash ∈ launch.path) ∧
          ∀ c into path, p.phase = .opened c into → p.shell.meaning c.name = .program path →
            p.shell.StartsFirst c into path := by
  obtain ⟨hplain, hslash⟩ := h.plainSince hs
  refine ⟨hplain, hslash, fun line cs hline console writes schedule p hp => ?_⟩
  have hstarts := Play.startsPlain_of_follow hs hplain hline hp
  exact ⟨hstarts.plain, hstarts.slash,
    fun c into path _ hm => startsFirst_of_meaning (hstarts.plain.ne_nil hs) hm into⟩

/-- A command that puts a word into the search path, and one that is found there. -/
def pathBinProbe : List Command :=
  [{ name := text "path", operands := [text "bin"], target := none },
    { name := text "probe", operands := [], target := none }]

/-- After a line on the standard search path, the next one sets a search path of its own, and starts
a program from it. -/
theorem startsFirst_pathBinProbe :
    ∃ t p, overProbe.HasRun [overProbe.runLine (text "probe")] t ∧
      (∀ d ∈ overProbe.searchPath.directories, d ≠ []) ∧
      (Play.start t (.ofInput []) pathBinProbe).follow Play.oneWrite [.shell, .shell, .shell] =
        some p ∧
      p.shell.searchPath = { directories := [text "bin"] } ∧
      p.shell.StartsFirst { name := text "probe", operands := [], target := none } .inherited
        (text "bin/probe") := by
  let r := overProbe.runLine (text "probe")
  have hrun : overProbe.HasRun ([] ++ [r]) r.shell := .line .start (overProbe.plays_runLine _)
  have hs : ∀ d ∈ overProbe.searchPath.directories, d ≠ [] := by decide
  have hline : Line.commands (text "path bin & probe") = .ok pathBinProbe := by decide
  have hmoment : ((Play.start r.shell (.ofInput []) pathBinProbe).follow Play.oneWrite
      [.shell, .shell, .shell]).map (fun p =>
        (p.phase, p.shell.searchPath, p.shell.meaning (text "probe"))) =
      some (.opened { name := text "probe", operands := [], target := none } .inherited,
        { directories := [text "bin"] }, .program (text "bin/probe")) := by decide
  obtain ⟨p, hp, hfacts⟩ := Option.map_eq_some_iff.mp hmoment
  obtain ⟨hphase, hfacts⟩ := Prod.mk.inj hfacts
  obtain ⟨hsearch, hmeaning⟩ := Prod.mk.inj hfacts
  obtain ⟨-, -, hnext⟩ := startsFirst_of_hasRun hrun hs
  obtain ⟨-, -, hfirst⟩ := hnext _ _ hline (.ofInput []) Play.oneWrite _ p hp
  exact ⟨r.shell, p, hrun, hs, hp, hsearch, hfirst _ _ _ hphase hmeaning⟩

end Shell

end ParallelShell
