import ParallelShell.Proofs.Session.Account
import ParallelShell.Proofs.Session.Avoidance
import ParallelShell.Proofs.Session.Input

set_option autoImplicit false

/-! # Sessions over each of the sources

A session over a batch file runs the lines that the file has, one after the other, as long as they
avoid the file (`runs_opened`). Over a standard input or a terminal a session always comes to an
end, since every line uses up octets, or a turn at the terminal (`exists_runs_input`,
`exists_runs_terminal`).
-/

namespace ParallelShell

namespace Session

variable {E : LineEditor} {behaviour : Launch → Activity} {source : Source E} {s : Session}
  {reading : Reading E} {loc : Location} {lines : List Text} {r : Reader}

/-! ## A line, and then the others -/

/-- Lines that are run one after the other, if the first of them is read from a source. -/
theorem runs_of_read (hread : s.read source = .ok (some reading))
    (hnext : (reading.session.runLine behaviour reading.line).2.status = .continues →
      Runs behaviour reading.source (reading.session.runLine behaviour reading.line).1
        ((reading.session.runLine behaviour reading.line).1.runEach behaviour lines)) :
    Runs behaviour source s (reading.session.runEach behaviour (reading.line :: lines)) := by
  cases hstatus : (reading.session.runLine behaviour reading.line).2.status.finish? with
  | some finish =>
      rw [runEach_cons_of_some hstatus]
      exact .stopped hread hstatus
  | none =>
      rw [runEach_cons_of_none hstatus]
      exact .next hread hstatus (hnext (Status.finish?_eq_none_iff.mp hstatus))

/-- A session comes to an end, if it does so after its first line. -/
theorem exists_runs_of_read {n : Nat} (hread : s.read source = .ok (some reading))
    (hnext : ∃ a, Runs behaviour reading.source
      (reading.session.runLine behaviour reading.line).1 a ∧ a.runs.length ≤ n) :
    ∃ a, Runs behaviour source s a ∧ a.runs.length ≤ n + 1 := by
  cases hstatus : (reading.session.runLine behaviour reading.line).2.status.finish? with
  | some finish => exact ⟨_, .stopped hread hstatus, Nat.le_add_left 1 n⟩
  | none =>
      obtain ⟨a, ha, hn⟩ := hnext
      exact ⟨_, .next hread hstatus ha, Nat.succ_le_succ hn⟩

/-! ## A batch file -/

/-- Lines that avoid a place, as far as they are run. -/
def Avoids (behaviour : Launch → Activity) (loc : Location) : List Text → Session → Prop
  | [], _ => True
  | line :: lines, s =>
    s.shell.Avoids loc line ∧
      ((s.runLine behaviour line).2.status = .continues →
        Avoids behaviour loc lines (s.runLine behaviour line).1)

/-- **Over a batch file** that its lines avoid, these are run one after the other. The induction is
on the lines that are left: those of what has been fetched and what has not. -/
theorem runs_opened {mode mode' : Mode} {content content' : Content} {data : Octets}
    {offset : Nat} (hnode : s.shell.system.tree.node? loc = some (.file mode' content'))
    (hdata : s.shell.system.octets loc content' = data)
    (hlines : batchLines (r.ahead ++ data.drop offset) = lines)
    (havoids : s.Avoids behaviour loc lines) :
    Runs behaviour (.opened (.file loc mode content) offset r : Source E) s
      (s.runEach behaviour lines) := by
  have hpending : ∀ offset, s.pending (.file loc mode content) offset = .ok (data.drop offset) :=
    fun offset => by simp only [pending, hnode, hdata]
  induction lines generalizing s r offset with
  | nil =>
      have hread : s.read (.opened (.file loc mode content) offset r : Source E) = .ok none := by
        simp only [read, hpending, Reader.next?_of_batchLines_eq_nil hlines]
      exact .ended hread
  | cons line lines ih =>
      obtain ⟨count, r', hnext, hrest⟩ := Reader.next?_of_batchLines_eq_cons hlines
      have hread : s.read (.opened (.file loc mode content) offset r : Source E) = .ok (some
          { line, source := .opened (.file loc mode content) (offset + count) r',
            session := s }) := by
        simp only [read, hpending, hnext]
      obtain ⟨hline, havoids⟩ := havoids
      refine runs_of_read hread fun hcontinues => ?_
      have hkept := (node?_runLine behaviour hline).trans hnode
      have hdata' := ((sameGround_runLine behaviour s line).octets_eq loc content').trans hdata
      rw [List.drop_drop] at hrest
      exact ih hkept hdata' hrest (havoids hcontinues) fun offset => by
        simp only [pending, hkept, hdata']

/-- A directory cannot be read. -/
theorem runs_directory (s : Session) (loc : Location) :
    Runs behaviour (.opened (.directory loc) 0 .start : Source E) s
      { runs := [], finish := .unreadable .isDirectory, session := s } :=
  .unreadable rfl

/-! ## A standard input -/

theorem read_input_of_error (r : Reader) {e : Errno} (h : s.console.input = .error e) :
    s.read (.input r : Source E) = .error e := by
  simp only [read, h]

theorem read_input_of_nil {input : Octets} (h : s.console.input = .ok input)
    (hnil : r.ahead ++ input = []) : s.read (.input r : Source E) = .ok none := by
  simp only [read, h, Reader.next?_of_nil hnil]

theorem read_input_of_next {input : Octets} {line : Text} {count : Nat} {r' : Reader}
    (h : s.console.input = .ok input) (hnext : r.next? input = some (line, count, r')) :
    s.read (.input r : Source E) = .ok (some
      { line, source := .input r', session := s.withInput (.ok (input.drop count)) }) := by
  simp only [read, h, hnext, withInput]

/-- A standard input that cannot be read. -/
theorem runs_unreadable {e : Errno} (h : s.console.input = .error e) :
    Runs behaviour (.input .start : Source E) s
      { runs := [], finish := .unreadable e, session := s } :=
  .unreadable (read_input_of_error .start h)

/-- **Over a standard input** a session always comes to an end. -/
theorem exists_runs_input (n : Nat) (h : r.ahead.length + s.console.left.length ≤ n) :
    ∃ a, Runs behaviour (.input r : Source E) s a ∧ a.runs.length ≤ n := by
  induction n generalizing s r with
  | zero =>
      cases hinput : s.console.input with
      | error e => exact ⟨_, .unreadable (read_input_of_error r hinput), Nat.le_refl 0⟩
      | ok input =>
          rw [Console.left_of_ok hinput] at h
          have hnil : r.ahead ++ input = [] :=
            List.length_eq_zero_iff.mp (by rw [List.length_append]; omega)
          exact ⟨_, .ended (read_input_of_nil hinput hnil), Nat.le_refl 0⟩
  | succ n ih =>
      cases hinput : s.console.input with
      | error e => exact ⟨_, .unreadable (read_input_of_error r hinput), Nat.zero_le _⟩
      | ok input =>
          rw [Console.left_of_ok hinput] at h
          by_cases hnil : r.ahead ++ input = []
          · exact ⟨_, .ended (read_input_of_nil hinput hnil), Nat.zero_le _⟩
          · obtain ⟨line, count, r', hnext, hne, hsplit, -⟩ := Reader.next?_of_ne_nil hnil
            refine exists_runs_of_read (read_input_of_next hinput hnext) (ih ?_)
            -- the line has used up octets
            have hline : 0 < line.length := List.length_pos_iff.mpr hne
            have hlength := congrArg List.length hsplit
            have hleft := length_left_runLine_le behaviour
              (s.withInput (.ok (input.drop count))) (Text.decode line)
            rw [left_withInput] at hleft
            simp only [List.length_append] at hlength hleft ⊢
            omega

/-! ## A terminal -/

/-- What a turn at the terminal gives is the next line. -/
theorem read_terminal {x : Terminal E} {keys : List Char} {typed : List (List Char)} {line : Text}
    (h : (x.readLine s.shell.searchPath s.shell.system.tree s.shell.system.directory keys).1 =
      some line) : ∃ x', s.read (.terminal x (keys :: typed)) =
        .ok (some { line, source := .terminal x' typed, session := s }) := by
  simp only [read]
  generalize x.readLine _ _ _ keys = answer at h ⊢
  obtain ⟨line?, x'⟩ := answer
  obtain rfl : line? = some line := h
  exact ⟨x', rfl⟩

theorem read_terminal_of_none {x : Terminal E} {keys : List Char} {typed : List (List Char)}
    (h : (x.readLine s.shell.searchPath s.shell.system.tree s.shell.system.directory keys).1 =
      none) : s.read (.terminal x (keys :: typed)) = .ok none := by
  simp only [read]
  generalize x.readLine _ _ _ keys = answer at h ⊢
  obtain ⟨line?, x'⟩ := answer
  obtain rfl : line? = none := h
  rfl

/-- **At a terminal** a session always comes to an end. Each line takes one of the turns at it, and
without another turn the input is closed. -/
theorem exists_runs_terminal (x : Terminal E) (typed : List (List Char)) :
    ∃ a, Runs behaviour (.terminal x typed) s a ∧ a.runs.length ≤ typed.length := by
  induction typed generalizing s x with
  | nil => exact ⟨_, .ended rfl, Nat.le_refl 0⟩
  | cons keys typed ih =>
      cases hkeys : (x.readLine s.shell.searchPath s.shell.system.tree
          s.shell.system.directory keys).1 with
      | none => exact ⟨_, .ended (read_terminal_of_none hkeys), Nat.zero_le _⟩
      | some line =>
          obtain ⟨x', hread⟩ := read_terminal hkeys
          exact exists_runs_of_read hread (ih x')

end Session

end ParallelShell
