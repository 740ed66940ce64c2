import ParallelShell.Proofs.Session.Twins

set_option autoImplicit false

/-! # The shell as a whole

What is left after the arguments have been looked at, and the source has been opened, is to run one
line after the other. `Session.start_fold` says so for a batch file that its own lines avoid: the
lines are those of its content, decoded as a whole, and they are run up to the first that exits or
fails. What comes after that line in the file is not run, and has no influence: with anything else
in its place, the session is the same.

The exit code is 1 if the session is not started at all (`Session.IsRefused`), if a line cannot be
read, or if a line fails; then the error stream has one more notice (`Session.noted`), and nothing
else is done. In all other cases it is 0, whatever the programs do (`Account.Concludes`).
-/

namespace ParallelShell

/-! ## How a session ends -/

/-- The session with one more notice on the error stream. -/
def Session.noted (s : Session) : Session :=
  { s with console := { s.console with err := s.console.err ++ Fault.notice } }

theorem Session.announceFailure_eq (s : Session) : s.announceFailure = s.noted := rfl

/-- **How a session ends of which an account is given.** If it has failed, the exit code is 1, and
the error stream has one more notice; otherwise the exit code is 0. Apart from that notice, what is
left behind is what the account says. -/
structure Account.Concludes (a : Account) (ending : Nat × Session) : Prop where
  failed : a.HasFailed → ending = (1, a.session.noted)
  succeeded : ¬ a.HasFailed → ending = (0, a.session)

namespace Session

variable {E : LineEditor} {behaviour : Launch → Activity} {s : Session} {source : Source E}
  {terminal : Option (List (List Char))} {arguments : List Text} {path : Text} {loc : Location}
  {lines : List Text} {mode : Mode} {content : Content} {data front back : Octets}

/-! ## Lines that avoid every place -/

/-- Lines without a target avoid every place. -/
theorem avoids_of_forall (h : ∀ line ∈ lines, ∀ cs, Line.commands line = .ok cs →
    ∀ c ∈ cs, c.target = none) (loc : Location) (s : Session) : s.Avoids behaviour loc lines := by
  induction lines generalizing s with
  | nil => trivial
  | cons line lines ih =>
      obtain ⟨hline, hlines⟩ := List.forall_mem_cons.mp h
      exact ⟨fun cs hcs => Shell.avoidsAll_of_forall (hline cs hcs) loc s.shell,
        fun _ => ih hlines _⟩

/-- Lines avoid a place, if those up to the one that ends the session do. -/
theorem Avoids.append_of_stop (h : s.Avoids behaviour loc lines)
    (hstop : (s.runEach behaviour lines).finish ≠ .ended) (more : List Text) :
    s.Avoids behaviour loc (lines ++ more) := by
  induction lines generalizing s with
  | nil => exact absurd rfl hstop
  | cons line lines ih =>
      obtain ⟨hline, hlines⟩ := h
      refine ⟨hline, fun hcontinues => ih (hlines hcontinues) ?_⟩
      rwa [runEach_cons_of_none (Status.finish?_eq_none_iff.mpr hcontinues)] at hstop

theorem Avoids.of_append {more : List Text} (h : s.Avoids behaviour loc (lines ++ more)) :
    s.Avoids behaviour loc lines := by
  induction lines generalizing s with
  | nil => trivial
  | cons line lines ih => exact ⟨h.1, fun hcontinues => ih (h.2 hcontinues)⟩

/-! ## Before the first line -/

/-- A batch file cannot be opened: it is not found, or it may not be read. -/
def CannotOpen (s : Session) (path : Text) : Prop :=
  (∃ cause, s.shell.system.tree.find s.shell.system.directory path = .error cause) ∨
    ∃ loc mode content, s.shell.system.tree.find s.shell.system.directory path =
      .ok (.file loc mode content) ∧ mode.mayRead = false

/-- **A session is not started**: there are several arguments, or an empty one, or the batch file
cannot be opened. -/
def IsRefused (s : Session) (arguments : List Text) : Prop :=
  2 ≤ arguments.length ∨ [] ∈ arguments ∨ ∃ path, arguments = [path] ∧ s.CannotOpen path

theorem batchFile?_eq_ok_iff {file? : Option Text} : Invocation.batchFile? arguments = .ok file? ↔
    arguments.length < 2 ∧ [] ∉ arguments ∧ file? = arguments.head? := by
  have hempty : arguments.any List.isEmpty = true ↔ [] ∈ arguments := by
    simp [List.any_eq_true, List.isEmpty_iff]
  unfold Invocation.batchFile?
  split
  · rename_i h
    simp [hempty.mp h]
  · rename_i h
    rw [hempty] at h
    rcases arguments with _ | ⟨a, _ | ⟨b, rest⟩⟩
    · simp [eq_comm]
    · simp [h, eq_comm]
    · have hlength : ¬ (a :: b :: rest).length < 2 := by simp
      exact iff_of_false (by simp) fun hok => hlength hok.1

theorem source_eq_error_iff (E : LineEditor) (terminal : Option (List (List Char))) :
    (∃ cause, s.source E terminal (some path) = .error cause) ↔ s.CannotOpen path := by
  unfold source CannotOpen
  cases hfind : s.shell.system.tree.find s.shell.system.directory path with
  | error cause => simp [hfind]
  | ok found =>
      cases found with
      | file loc mode content => cases hread : mode.mayRead <;> simp [hfind, hread]
      | _ => simp [hfind]

/-- A session that is not started ends with the notice. -/
theorem start_of_isRefused (E : LineEditor) (terminal : Option (List (List Char)))
    (h : s.IsRefused arguments) : s.startWith E behaviour terminal arguments = (1, s.noted) := by
  unfold startWith
  cases hfile : Invocation.batchFile? arguments with
  | error refusal => simp only [announceFailure_eq]
  | ok file? =>
      obtain ⟨hlength, hempty, rfl⟩ := batchFile?_eq_ok_iff.mp hfile
      rcases h with h | h | ⟨path, rfl, h⟩
      · omega
      · exact absurd h hempty
      · obtain ⟨cause, hcause⟩ := (source_eq_error_iff E terminal).mpr h
        simp only [List.head?_cons, hcause, announceFailure_eq]

/-- Otherwise there is a source. -/
theorem exists_source (E : LineEditor) (terminal : Option (List (List Char)))
    (h : ¬ s.IsRefused arguments) : Invocation.batchFile? arguments = .ok arguments.head? ∧
      ∃ source, s.source E terminal arguments.head? = .ok source := by
  simp only [IsRefused, not_or, not_exists, not_and] at h
  obtain ⟨hlength, hempty, hopen⟩ := h
  refine ⟨batchFile?_eq_ok_iff.mpr ⟨by omega, hempty, rfl⟩, ?_⟩
  rcases arguments with _ | ⟨path, _ | ⟨b, rest⟩⟩
  · cases terminal with
    | none => exact ⟨_, rfl⟩
    | some typed => exact ⟨_, rfl⟩
  · have hopen := mt (source_eq_error_iff E terminal).mp (hopen path rfl)
    cases hsource : s.source E terminal (some path) with
    | error cause => exact absurd ⟨cause, hsource⟩ hopen
    | ok source => exact ⟨source, hsource⟩
  · simp at hlength

/-! ## From the first line on -/

/-- The lines of a file, decoded as a whole. -/
def fileLines (s : Session) (loc : Location) (content : Content) : List Text :=
  textLines (Text.decode (s.shell.system.octets loc content))

/-- No line of a batch file redirects to it. -/
def SparesBatch (behaviour : Launch → Activity) (s : Session) (arguments : List Text) : Prop :=
  ∀ path loc mode content, arguments = [path] →
    s.shell.system.tree.find s.shell.system.directory path = .ok (.file loc mode content) →
      s.Avoids behaviour loc (s.fileLines loc content)

/-- The source that a path leads to. -/
theorem source_eq_ok (h : s.source E terminal (some path) = .ok source) : ∃ found,
    s.shell.system.tree.find s.shell.system.directory path = .ok found ∧
      source = .opened found 0 .start := by
  unfold Session.source at h
  cases hfind : s.shell.system.tree.find s.shell.system.directory path with
  | error cause =>
      simp only [hfind] at h
      cases h
  | ok found =>
      refine ⟨found, rfl, ?_⟩
      cases found with
      | file loc mode content =>
          cases hread : mode.mayRead with
          | false => simp [hfind, hread] at h
          | true => simpa [hfind, hread, eq_comm] using h
      | _ => simpa [hfind, eq_comm] using h

theorem source_of_file
    (hfind : s.shell.system.tree.find s.shell.system.directory path = .ok (.file loc mode content))
    (hread : mode.mayRead = true) (E : LineEditor) (terminal : Option (List (List Char))) :
    s.source E terminal (some path) = .ok (.opened (.file loc mode content) 0 .start) := by
  simp only [Session.source, hfind, hread, if_true]

theorem Runs.concludes {a : Account} (ha : Runs behaviour source s a) : a.Concludes a.result := by
  have hfailed := ha.isFailure_iff
  constructor
  · intro h
    rw [Account.result, if_pos (hfailed.mpr h), announceFailure_eq]
  · intro h
    rw [Account.result, if_neg (mt hfailed.mp h)]

/-- A session over a batch file answers with the result of its account. -/
theorem start_of_path {a : Account} (hpath : path ≠ [])
    (hsource : s.source E terminal (some path) = .ok source) (ha : Runs behaviour source s a)
    (hbound : a.runs.length < s.bound source) :
    s.startWith E behaviour terminal [path] = a.result := by
  have hfile : Invocation.batchFile? [path] = .ok (some path) :=
    batchFile?_eq_ok_iff.mpr ⟨by simp, by simpa using hpath.symm, rfl⟩
  exact start_of_runs hfile hsource ha hbound

/-- **The lines of a batch file** that they avoid, one after the other. -/
theorem runs_batch (E : LineEditor)
    (hfind : s.shell.system.tree.find s.shell.system.directory path = .ok (.file loc mode content))
    (havoids : s.Avoids behaviour loc (s.fileLines loc content)) :
    let source : Source E := .opened (.file loc mode content) 0 .start
    Runs behaviour source s (s.runEach behaviour (s.fileLines loc content)) ∧
      (s.runEach behaviour (s.fileLines loc content)).runs.length < s.bound source := by
  have hnode := FileTree.node?_of_find hfind
  have hlines := batchLines_eq_textLines (s.shell.system.octets loc content)
  refine ⟨runs_opened hnode rfl hlines havoids, ?_⟩
  have hruns := length_runs_runEach behaviour (s.fileLines loc content) s
  have hoctets := length_pieces_le (· = lineFeed) (s.shell.system.octets loc content)
  have hlength := congrArg List.length hlines
  rw [batchLines, List.length_map] at hlength
  rw [fileLines, ← hlength] at hruns
  simp only [bound, pending, hnode, List.drop_zero, Reader.start, List.length_nil]
  exact Nat.lt_of_le_of_lt (Nat.le_trans hruns hoctets) (by omega)

/-- The lines of a batch file up to one that ends the session are all that is run. -/
theorem start_of_stop (hpath : path ≠ [])
    (hfind : s.shell.system.tree.find s.shell.system.directory path = .ok (.file loc mode content))
    (hdata : s.shell.system.octets loc content = front ++ lineFeed :: back)
    (hread : mode.mayRead = true)
    (havoids : s.Avoids behaviour loc (textLines (Text.decode (front ++ [lineFeed]))))
    (hstop : (s.runEach behaviour (textLines (Text.decode (front ++ [lineFeed])))).finish ≠ .ended)
    (E : LineEditor) (terminal : Option (List (List Char))) :
    let a := s.runEach behaviour (textLines (Text.decode (front ++ [lineFeed])))
    s.startWith E behaviour terminal [path] = a.result ∧ a.Concludes a.result := by
  intro a
  have hlines : s.fileLines loc content = textLines (Text.decode (front ++ [lineFeed])) ++
      textLines (Text.decode back) := by rw [fileLines, hdata, textLines_decode_append]
  have hall := havoids.append_of_stop hstop (textLines (Text.decode back))
  rw [← hlines] at hall
  obtain ⟨hruns, hbound⟩ := runs_batch E hfind hall
  rw [hlines, runEach_append_of_stop hstop] at hruns hbound
  exact ⟨start_of_path hpath (source_of_file hfind hread E terminal) hruns hbound, hruns.concludes⟩

/-- **What comes after the line that ends the session** has no influence. -/
theorem start_withOctets {system : System} {console : Console} (hpath : path ≠ [])
    (hfind : system.tree.find system.directory path = .ok (.file loc mode content))
    (hdata : system.octets loc content = front ++ lineFeed :: back)
    (hread : mode.mayRead = true)
    (havoids : (fresh system console).Avoids behaviour loc
      (textLines (Text.decode (front ++ [lineFeed]))))
    (hstop : ((fresh system console).runEach behaviour
      (textLines (Text.decode (front ++ [lineFeed])))).finish ≠ .ended)
    (E : LineEditor) (terminal : Option (List (List Char))) (back' : Octets) :
    let lines := textLines (Text.decode (front ++ [lineFeed]))
    let s := fresh system console
    let s' := fresh (system.withOctets loc mode (front ++ lineFeed :: back') content) console
    let ending := s.startWith E behaviour terminal [path]
    let ending' := s'.startWith E behaviour terminal [path]
    (s'.runEach behaviour lines).Concludes ending' ∧
      (s.runEach behaviour lines).Twins loc (s'.runEach behaviour lines) ∧
      ending.1 = ending'.1 ∧ ending.2.Twins loc ending'.2 := by
  intro lines s s' ending ending'
  have htwins : s.Twins loc s' :=
    twins_withOctets (FileTree.node?_of_find hfind) hdata back' console
  have haccounts := htwins.runEach havoids
  obtain ⟨hending, -⟩ := start_of_stop hpath hfind hdata hread havoids hstop E terminal
  have hdirectory : (system.withOctets loc mode (front ++ lineFeed :: back') content).directory =
      system.directory := by cases content <;> rfl
  have hfind' := System.find_withOctets hfind (front ++ lineFeed :: back')
  rw [← hdirectory] at hfind'
  obtain ⟨hending', hconcludes⟩ := start_of_stop hpath hfind'
    (System.octets_withOctets loc mode content _) hread (htwins.avoids havoids)
    (haccounts.finish ▸ hstop) E terminal
  refine ⟨?_, haccounts, ?_⟩
  · rw [show ending' = _ from hending']
    exact hconcludes
  · rw [show ending = _ from hending, show ending' = _ from hending']
    exact haccounts.result

/-- What is not a file has no lines: it cannot be read, or it is at its end. -/
theorem exists_runs_opened (E : LineEditor) (s : Session) {found : Found}
    (hfile : ∀ loc mode content, found ≠ .file loc mode content) :
    ∃ a, Runs behaviour (.opened found 0 .start : Source E) s a ∧
      a.runs.length < s.bound (.opened found 0 .start : Source E) := by
  have hpending : ∃ answer, s.pending found 0 = answer ∧ ∀ data, answer = .ok data → data = [] := by
    refine ⟨_, rfl, fun data hdata => ?_⟩
    cases found with
    | directory loc => cases hdata
    | file loc mode content => exact absurd rfl (hfile loc mode content)
    | _ => exact (Except.ok.inj hdata).symm
  obtain ⟨answer, hanswer, hnil⟩ := hpending
  cases answer with
  | error e =>
      have hread : s.read (.opened found 0 .start : Source E) = .error e := by
        simp only [read, hanswer]
      exact ⟨_, .unreadable hread, by simp [bound, hanswer]⟩
  | ok data =>
      obtain rfl := hnil data rfl
      have hnext : Reader.start.next? [] = none := Reader.next?_of_nil rfl
      have hread : s.read (.opened found 0 .start : Source E) = .ok none := by
        simp only [read, hanswer, hnext]
      refine ⟨_, .ended hread, ?_⟩
      simp only [bound, hanswer, List.length_nil]
      omega

/-- **A session that is started comes to an end**, within its bound. -/
theorem exists_runs (hsource : s.source E terminal arguments.head? = .ok source)
    (hone : arguments.length < 2) (hspares : s.SparesBatch behaviour arguments) :
    ∃ a, Runs behaviour source s a ∧ a.runs.length < s.bound source := by
  rcases arguments with _ | ⟨path, _ | ⟨b, rest⟩⟩
  · cases terminal with
    | none =>
        obtain rfl := Except.ok.inj hsource
        obtain ⟨a, ha, hn⟩ : ∃ a, Runs behaviour (.input .start : Source E) s a ∧ _ :=
          exists_runs_input _ (Nat.le_refl _)
        exact ⟨a, ha, Nat.lt_succ_of_le hn⟩
    | some typed =>
        obtain rfl := Except.ok.inj hsource
        obtain ⟨a, ha, hn⟩ : ∃ a, Runs behaviour (.terminal _ typed : Source E) s a ∧ _ :=
          exists_runs_terminal _ typed
        exact ⟨a, ha, Nat.lt_succ_of_le hn⟩
  · obtain ⟨found, hfind, rfl⟩ := source_eq_ok hsource
    by_cases hfile : ∃ loc mode content, found = .file loc mode content
    · obtain ⟨loc, mode, content, rfl⟩ := hfile
      exact ⟨_, runs_batch E hfind (hspares path loc mode content rfl hfind)⟩
    · simp only [not_exists] at hfile
      exact exists_runs_opened E s hfile
  · exact absurd hone (by simp)

/-- **A session that is started** ends as its account says, and there is only one. -/
theorem start_of_not_isRefused (E : LineEditor) (terminal : Option (List (List Char)))
    (h : ¬ s.IsRefused arguments) (hspares : s.SparesBatch behaviour arguments) : ∃ source a,
      s.source E terminal arguments.head? = .ok source ∧ Runs behaviour source s a ∧
        a.Concludes (s.startWith E behaviour terminal arguments) := by
  obtain ⟨hfile, source, hsource⟩ := exists_source E terminal h
  obtain ⟨a, ha, hbound⟩ := exists_runs hsource (batchFile?_eq_ok_iff.mp hfile).1 hspares
  rw [start_of_runs hfile hsource ha hbound]
  exact ⟨source, a, hsource, ha, ha.concludes⟩

/-- A source that cannot be read at all ends the session with the notice. -/
theorem start_of_unreadable {file? : Option Text} {e : Errno}
    (hfile : Invocation.batchFile? arguments = .ok file?)
    (hsource : s.source E terminal file? = .ok source)
    (ha : Runs behaviour source s { runs := [], finish := .unreadable e, session := s })
    (hbound : 0 < s.bound source) :
    s.startWith E behaviour terminal arguments = (1, s.noted) :=
  start_of_runs hfile hsource ha hbound

/-- Three lines, the last of them without a line feed. -/
def nopeExitNope : Octets := octets "nope\nexit\nnope"

def nopeProbeNope : Octets := octets "nope\nprobe\nnope"

def overBatch (data : Octets) : System :=
  { Shell.overProbe.system with
    tree := Shell.overProbe.system.tree.put [text "batch"] (.file 0o644 (.octets data)) }

theorem find_batch (data : Octets) : (overBatch data).tree.find [] (text "batch") =
    .ok (.file [text "batch"] 0o644 (.octets data)) := rfl

/-- Whether no line of some octets has a target. -/
def isUntargeted (data : Octets) : Bool :=
  (textLines (Text.decode data)).all fun line =>
    match Line.commands line with
    | .ok cs => cs.all fun c => c.target.isNone
    | .error _ => true

theorem avoids_of_isUntargeted (h : isUntargeted data = true) (behaviour : Launch → Activity)
    (loc : Location) (s : Session) : s.Avoids behaviour loc (textLines (Text.decode data)) := by
  refine avoids_of_forall (fun line hline cs hcs => ?_) loc s
  have hline := List.all_eq_true.mp h line hline
  rw [hcs] at hline
  simpa using hline

theorem sparesBatch_of_isUntargeted {system : System} {console : Console}
    (hfind : system.tree.find system.directory path = .ok (.file loc mode (.octets data)))
    (h : isUntargeted data = true) (behaviour : Launch → Activity) :
    (fresh system console).SparesBatch behaviour [path] := by
  rintro path' loc' mode' content' hpath hfind'
  obtain rfl := (List.cons.inj hpath).1
  obtain ⟨rfl, rfl, rfl⟩ := Found.file.inj (Except.ok.inj (hfind.symm.trans hfind'))
  exact avoids_of_isUntargeted h behaviour loc _

end Session

end ParallelShell
