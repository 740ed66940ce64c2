import ParallelShell.Proofs.Input.Typed
import ParallelShell.Proofs.Line.Segments
import ParallelShell.Proofs.Session.Fold
import ParallelShell.Proofs.Text.Encode

set_option autoImplicit false

/-! # Lines that are typed, and lines in a batch

The same lines come in different shapes: a line that is typed has no line feed, one of a batch has;
at a terminal there is an empty line for each one that was dropped; and in a batch an empty last
line is not there at all. None of this makes a difference. What comes of a line depends on its
commands only (`runLine_congr`), a line feed adds none, and a line without commands does nothing
(`runLine_of_commands_eq_nil`). So a session over lines that are typed and one over the same lines
in a batch come to the same (`exists_runs_typed`, `exists_runs_batch`).
-/

namespace ParallelShell

def joinLines (lines : List Text) : Text := List.intercalate ['\n'] lines

namespace Account

def faults (a : Account) : List Fault := a.runs.flatMap LineRun.faults

def launches (a : Account) : List Launch := a.runs.flatMap LineRun.launches

/-- **Two sessions have the same outcome**: the exit code; the shell that is left, with its search
path, its current directory and its files; the faults that were reported, the programs that were
started, and what was written. -/
structure SameOutcome (a b : Account) : Prop where
  code : a.result.1 = b.result.1
  shell : a.session.shell = b.session.shell
  faults : a.faults = b.faults
  launches : a.launches = b.launches
  out : a.session.console.out = b.session.console.out
  err : a.session.console.err = b.session.console.err

end Account

def Account.withInput (a : Account) (input : Except Errno Octets) : Account :=
  { a with session := a.session.withInput input }

/-- **Two accounts agree**: the sessions have finished in the same way, the same has happened in
them, and they leave the same shell behind and have written the same. How many lines there were does
not matter, nor what is left of the standard input. -/
structure Account.Agrees (a b : Account) : Prop where
  finish : a.finish = b.finish
  events : a.runs.flatMap LineRun.events = b.runs.flatMap LineRun.events
  shell : a.session.shell = b.session.shell
  out : a.session.console.out = b.session.console.out
  err : a.session.console.err = b.session.console.err

namespace Account.Agrees

variable {a b c : Account}

theorem refl (a : Account) : a.Agrees a := ⟨rfl, rfl, rfl, rfl, rfl⟩

theorem symm (h : a.Agrees b) : b.Agrees a :=
  ⟨h.finish.symm, h.events.symm, h.shell.symm, h.out.symm, h.err.symm⟩

theorem trans (h : a.Agrees b) (h' : b.Agrees c) : a.Agrees c :=
  ⟨h.finish.trans h'.finish, h.events.trans h'.events, h.shell.trans h'.shell, h.out.trans h'.out,
    h.err.trans h'.err⟩

/-- Of a line in front comes the same. -/
theorem after (h : a.Agrees b) {r r' : LineRun} (hr : r.events = r'.events) :
    (a.after r).Agrees (b.after r') :=
  { h with events := by simp only [Account.after, List.flatMap_cons, hr, h.events] }

/-- A line of which nothing comes. -/
theorem after_left (h : a.Agrees b) {r : LineRun} (hr : r.events = []) : (a.after r).Agrees b :=
  { h with
    events := by simp only [Account.after, List.flatMap_cons, hr, h.events, List.nil_append] }

theorem withInput (a : Account) (input : Except Errno Octets) : (a.withInput input).Agrees a :=
  ⟨rfl, rfl, rfl, rfl, rfl⟩

theorem faults (h : a.Agrees b) : a.faults = b.faults := by
  have hevents := congrArg (List.filterMap Event.fault?) h.events
  rw [List.filterMap_flatMap, List.filterMap_flatMap] at hevents
  exact hevents

theorem launches (h : a.Agrees b) : a.launches = b.launches := by
  have hevents := congrArg (List.filterMap Event.launch?) h.events
  rw [List.filterMap_flatMap, List.filterMap_flatMap] at hevents
  exact hevents

theorem sameOutcome (h : a.Agrees b) : a.SameOutcome b where
  code := by rw [a.result_fst, b.result_fst, h.finish]
  shell := h.shell
  faults := h.faults
  launches := h.launches
  out := h.out
  err := h.err

end Account.Agrees

namespace Session

variable {E : LineEditor} {behaviour : Launch → Activity} {s : Session} {line line' : Text}
  {lines : List Text} {turns : List (List Char)}

/-! ## Lines that come to the same -/

/-- **What comes of a line** depends on its commands. -/
theorem runLine_congr (h : Line.commands line = Line.commands line') (s : Session) :
    s.runLine behaviour line = s.runLine behaviour line' := by
  simp only [runLine, Shell.runLine, h]

/-- **A line without commands** does nothing. -/
theorem runLine_of_commands_eq_nil (h : Line.commands line = .ok []) (s : Session) :
    s.runLine behaviour line = (s, { shell := s.shell, events := [], status := .continues }) := by
  have hrun : s.shell.runLine line = { shell := s.shell, events := [], status := .continues } := by
    simp only [Shell.runLine, h]
    rfl
  simp [runLine, hrun, Scene.announce_eq, LineRun.launches, Scene.perform, Scene.schedule]

theorem isGap_lineFeed : Line.IsGap ['\n'] := List.forall_mem_singleton.mpr rfl

/-- A line feed at its end makes no difference to a line. -/
theorem runLine_append_lineFeed (line : Text) (s : Session) :
    s.runLine behaviour (line ++ ['\n']) = s.runLine behaviour line :=
  runLine_congr (Line.commands_append_gap isGap_lineFeed line) s

/-- An empty line makes no difference to the lines after it. -/
theorem runEach_nil_cons_agrees (s : Session) (lines : List Text) :
    (s.runEach behaviour ([] :: lines)).Agrees (s.runEach behaviour lines) := by
  have hrun : s.runLine behaviour [] = _ := runLine_of_commands_eq_nil rfl s
  have hstatus : (s.runLine behaviour []).2.status.finish? = none := by
    rw [hrun]
    rfl
  rw [runEach_cons_of_none hstatus, hrun]
  exact (Account.Agrees.refl _).after_left rfl

/-- Lines that start alike agree, if they agree after that. -/
theorem runEach_cons_agrees {lines' : List Text}
    (h : s.runLine behaviour line = s.runLine behaviour line')
    (hlines : ∀ t, (runEach behaviour lines t).Agrees (runEach behaviour lines' t)) :
    (s.runEach behaviour (line :: lines)).Agrees (s.runEach behaviour (line' :: lines')) := by
  cases hstatus : (s.runLine behaviour line).2.status.finish? with
  | some finish =>
      rw [runEach_cons_of_some hstatus, runEach_cons_of_some (h ▸ hstatus), h]
      exact .refl _
  | none =>
      rw [runEach_cons_of_none hstatus, runEach_cons_of_none (h ▸ hstatus), ← h]
      exact (hlines _).after rfl

/-- **The lines of the joined text** come to the same as the lines that were joined, although there
is a line feed at the end of each but the last, and an empty last line is not there. -/
theorem runEach_textLines_joinLines (hlines : ∀ line ∈ lines, '\n' ∉ line) (s : Session) :
    (s.runEach behaviour (textLines (joinLines lines))).Agrees (s.runEach behaviour lines) := by
  induction lines generalizing s with
  | nil => exact .refl _
  | cons line lines ih =>
      obtain ⟨hline, hlines⟩ := List.forall_mem_cons.mp hlines
      cases lines with
      | nil =>
          rw [joinLines, List.intercalate_singleton]
          by_cases hnil : line = []
          · rw [hnil]
            exact (runEach_nil_cons_agrees s []).symm
          · rw [textLines_of_not_mem hline hnil]
            exact .refl _
      | cons next lines =>
          have hjoin : joinLines (line :: next :: lines) =
              line ++ '\n' :: joinLines (next :: lines) := by
            simp [joinLines, List.intercalate_cons_cons]
          rw [hjoin, textLines_append_cons hline]
          exact runEach_cons_agrees (runLine_append_lineFeed line s) (ih hlines)

/-! ## Over the sources -/

/-- Lines that are read from a source, if the first of them is, and then the others. -/
theorem exists_runs_agrees {source : Source E} {reading : Reading E}
    (hread : s.read source = .ok (some reading))
    (hnext : ∃ a, Runs behaviour reading.source
        (reading.session.runLine behaviour reading.line).1 a ∧
      a.Agrees ((reading.session.runLine behaviour reading.line).1.runEach behaviour lines)) :
    ∃ a, Runs behaviour source s a ∧
      a.Agrees (reading.session.runEach behaviour (reading.line :: lines)) := by
  cases hstatus : (reading.session.runLine behaviour reading.line).2.status.finish? with
  | some finish =>
      rw [runEach_cons_of_some hstatus]
      exact ⟨_, .stopped hread hstatus, .refl _⟩
  | none =>
      obtain ⟨a, ha, hagrees⟩ := hnext
      rw [runEach_cons_of_none hstatus]
      exact ⟨_, .next hread hstatus ha, hagrees.after rfl⟩

/-- **At a terminal** a session over lines that are typed comes to the same as these lines. Each
line that is dropped is one more empty line. -/
theorem exists_runs_typed (hE : E.ReturnsTyped) (h : Typed lines turns) (x : Terminal E)
    (s : Session) :
    ∃ a, Runs behaviour (.terminal x turns) s a ∧ a.Agrees (s.runEach behaviour lines) := by
  induction h generalizing x s with
  | closed =>
      have hread : s.read (.terminal x [['\x04']]) = .ok none :=
        read_terminal_of_none (x.readLine_closed hE _ _ _)
      exact ⟨_, .ended hread, .refl _⟩
  | line hline _ ih =>
      obtain ⟨x', hread⟩ := read_terminal (x.readLine_enter hE s.shell.searchPath
        s.shell.system.tree s.shell.system.directory hline)
      exact exists_runs_agrees hread (ih x' _)
  | dropped hkeys _ ih =>
      obtain ⟨x', hread⟩ := read_terminal (x.readLine_dropped hE s.shell.searchPath
        s.shell.system.tree s.shell.system.directory hkeys)
      obtain ⟨a, ha, hagrees⟩ := exists_runs_agrees hread (ih x' _)
      exact ⟨a, ha, hagrees.trans (runEach_nil_cons_agrees s _)⟩

theorem runEach_withInput (hcopies : ∀ l, (behaviour l).copiesInput = false) (s : Session)
    (input : Except Errno Octets) (lines : List Text) :
    (s.withInput input).runEach behaviour lines =
      (s.runEach behaviour lines).withInput input := by
  induction lines generalizing s with
  | nil => rfl
  | cons line lines ih =>
      have hrun := runLine_withInput hcopies s input line
      cases hstatus : (s.runLine behaviour line).2.status.finish? with
      | some finish =>
          rw [runEach_cons_of_some hstatus, runEach_cons_of_some (by rw [hrun]; exact hstatus),
            hrun]
          rfl
      | none =>
          rw [runEach_cons_of_none hstatus, runEach_cons_of_none (by rw [hrun]; exact hstatus),
            hrun, ih]
          rfl

/-- **Over a standard input** that no program copies, a session comes to the same as its lines. -/
theorem exists_runs_batch (E : LineEditor) (hcopies : ∀ l, (behaviour l).copiesInput = false)
    {r : Reader} {input : Octets} (hinput : s.console.input = .ok input)
    (hlines : batchLines (r.ahead ++ input) = lines) :
    ∃ a, Runs behaviour (.input r : Source E) s a ∧ a.Agrees (s.runEach behaviour lines) := by
  induction lines generalizing s r input with
  | nil =>
      have hread : s.read (.input r : Source E) = .ok none := by
        simp only [read, hinput, Reader.next?_of_batchLines_eq_nil hlines]
      exact ⟨_, .ended hread, .refl _⟩
  | cons line lines ih =>
      obtain ⟨count, r', hnext, hrest⟩ := Reader.next?_of_batchLines_eq_cons hlines
      let s' := s.withInput (.ok (input.drop count))
      have hread : s.read (.input r : Source E) = .ok (some
          { line, source := .input r', session := s' }) := read_input_of_next hinput hnext
      have hleft : (s'.runLine behaviour line).1.console.input = .ok (input.drop count) :=
        congrArg (·.1.console.input) (runLine_withInput hcopies s _ line)
      obtain ⟨a, ha, hagrees⟩ := exists_runs_agrees hread (ih hleft hrest)
      have hsame : s'.runEach behaviour (line :: lines) = _ := runEach_withInput hcopies s _ _
      rw [hsame] at hagrees
      exact ⟨a, ha, hagrees.trans (.withInput _ _)⟩

/-! ## The two front ends -/

/-- **The front ends agree.** Take lines without control characters, and a session that is given
them in three ways: they are typed, among others that are dropped; they are a standard input, with a
line feed between any two; or they are in a batch file like that, and none of them redirects to it.
If no program copies its input, the session has the same outcome each time. That is because blanks
at the ends of a line change neither its commands nor its error, and a line feed is a blank. Of the
line editor nothing is needed but that it returns what is typed, as `LineEditor.keyByKey` does. -/
theorem start_typed_agrees {E : LineEditor} (hE : E.ReturnsTyped)
    {behaviour : Launch → Activity} (hcopies : ∀ l, (behaviour l).copiesInput = false)
    {lines : List Text} {turns : List (List Char)} (htyped : Typed lines turns) (s : Session) :
    let editor : Terminal E :=
      .build s.shell.searchPath s.shell.system.tree s.shell.system.directory
    let batch := Text.encode (joinLines lines)
    let piped := s.withInput (.ok batch)
    (∃ a, Runs behaviour (.terminal editor turns) s a ∧
      s.startWith E behaviour (some turns) [] = a.result ∧
      (∃ b, Runs behaviour (.input .start : Source E) piped b ∧
        piped.startWith E behaviour none [] = b.result ∧ a.SameOutcome b) ∧
      ∀ terminal path loc mode, path ≠ [] →
        s.shell.system.tree.find s.shell.system.directory path =
          .ok (.file loc mode (.octets batch)) → mode.mayRead = true →
        s.Avoids behaviour loc (textLines (joinLines lines)) →
        ∃ c, Runs behaviour (.opened (.file loc mode (.octets batch)) 0 .start : Source E) s c ∧
          s.startWith E behaviour terminal [path] = c.result ∧ a.SameOutcome c) ∧
    ∀ gap, Line.IsGap gap → ∀ line, Line.commands (gap ++ line) = Line.commands line ∧
      Line.commands (line ++ gap) = Line.commands line := by
  intro editor batch piped
  have hfeed : ∀ line ∈ lines, '\n' ∉ line := fun line hline hmem =>
    absurd (htyped.isTypeable line hline '\n' hmem) (by decide)
  have hdecode : Text.decode batch = joinLines lines := Text.decode_encode _
  have hlines : textLines (Text.decode batch) = textLines (joinLines lines) := by rw [hdecode]
  have hjoined : (s.runEach behaviour (textLines (joinLines lines))).Agrees
      (s.runEach behaviour lines) := runEach_textLines_joinLines hfeed s
  obtain ⟨a, ha, hagrees⟩ : ∃ a, Runs behaviour (.terminal editor turns) s a ∧ _ :=
    exists_runs_typed hE htyped editor s
  have hnone : Invocation.batchFile? [] = .ok none := rfl
  refine ⟨⟨a, ha, ?_, ?_, ?_⟩, fun gap hgap line => ?_⟩
  · obtain ⟨a', ha', hlength⟩ : ∃ a, Runs behaviour (.terminal editor turns) s a ∧ _ :=
      exists_runs_terminal editor turns
    rw [ha'.unique ha] at hlength
    exact start_of_runs hnone rfl ha (Nat.lt_succ_of_le hlength)
  · have hbatch : batchLines (Reader.start.ahead ++ batch) = textLines (joinLines lines) :=
      (batchLines_eq_textLines batch).trans hlines
    have hinput : piped.console.input = .ok batch := rfl
    obtain ⟨b, hb, hagrees'⟩ := exists_runs_batch E hcopies hinput hbatch
    obtain ⟨b', hb', hlength⟩ : ∃ b, Runs behaviour (.input .start : Source E) piped b ∧ _ :=
      exists_runs_input _ (Nat.le_refl _)
    rw [hb'.unique hb] at hlength
    have hsource : piped.source E none none = .ok (.input .start) := rfl
    have hstart := start_of_runs hnone hsource hb (Nat.lt_succ_of_le hlength)
    rw [runEach_withInput hcopies] at hagrees'
    have hsame := (hagrees'.trans (.withInput _ _)).trans hjoined
    exact ⟨b, hb, hstart, (hagrees.trans hsame.symm).sameOutcome⟩
  · intro terminal path loc mode hpath hfind hread havoids
    have hfile : s.fileLines loc (.octets batch) = textLines (joinLines lines) := hlines
    rw [← hfile] at havoids
    obtain ⟨hruns, hbound⟩ := runs_batch E hfind havoids
    have hstart := start_of_path hpath (source_of_file hfind hread E terminal) hruns hbound
    rw [hfile] at hruns hstart
    exact ⟨_, hruns, hstart, (hagrees.trans hjoined.symm).sameOutcome⟩
  · exact ⟨Line.commands_gap_append hgap line, Line.commands_append_gap hgap line⟩

/-- What is pressed for the lines of `nopeExitNope`, if another line is dropped. -/
def nopeExitNopeTurns : List (List Char) :=
  [text "nope\r", text "probe > ou\x03", text "exit\r", text "nope\r", ['\x04']]

/-- Typed, given as a standard input and put into a file, the lines exit with the second. -/
theorem start_typed_nopeExitNope : ∃ a b c : Account,
    let s := fresh (overBatch nopeExitNope) (.ofInput [])
    s.start (fun _ => .idle) (some nopeExitNopeTurns) [] = a.result ∧
      (s.withInput (.ok nopeExitNope)).start (fun _ => .idle) none [] = b.result ∧
      s.start (fun _ => .idle) none [text "batch"] = c.result ∧
      a.SameOutcome b ∧ a.SameOutcome c ∧ c.finish = .exited := by
  let lines := [text "nope", text "exit", text "nope"]
  have hlines : Text.encode (joinLines lines) = nopeExitNope := by decide
  have hnope : IsTypeable (text "nope") := by decide
  have hexit : IsTypeable (text "exit") := by decide
  have hdropped : IsTypeable (text "probe > ou") := by decide
  have htyped : Typed lines nopeExitNopeTurns :=
    .line hnope (.dropped hdropped (.line hexit (.line hnope .closed)))
  let s := fresh (overBatch nopeExitNope) (.ofInput [])
  have hfind := find_batch nopeExitNope
  have huntargeted : isUntargeted nopeExitNope = true := by decide
  have havoids := avoids_of_isUntargeted huntargeted (fun _ => .idle) [text "batch"] s
  have hdecode : Text.decode nopeExitNope = joinLines lines := by rw [← hlines, Text.decode_encode]
  have hcopies : ∀ l, ((fun _ => .idle : Launch → Activity) l).copiesInput = false := fun _ => rfl
  obtain ⟨⟨a, -, ha, ⟨b, -, hb, hab⟩, hfile⟩, -⟩ :=
    start_typed_agrees LineEditor.returnsTyped_keyByKey hcopies htyped s
  rw [hlines] at hb hfile
  obtain ⟨c, hruns, hc, hac⟩ := hfile none (text "batch") _ _ (by decide) hfind (by decide)
    (hdecode ▸ havoids)
  have hsame := hruns.unique (runs_batch .keyByKey (s := s) hfind havoids).1
  exact ⟨a, b, c, ha, hb, hc, hab, hac, hsame ▸ by decide +kernel⟩

end Session

end ParallelShell
