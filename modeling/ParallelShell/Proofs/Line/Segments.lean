import ParallelShell.Proofs.Line.Written

set_option autoImplicit false

/-! # Lines read segment by segment

A line is spaced out and cut as a whole, and reading it stops at the first malformed segment. Still,
each of its segments is read as if it were a line of its own: what a line comes to is what its
segments come to, one after the other (`commands_segments`). So no segment has a say in the words or
the redirection of another, and a line is accepted exactly if each of its segments is. The main
statement, `commands_compose`, says so for two lines with a mark between them, and for the segments
of one line.

Blanks count for nothing, neither between two marks nor at the ends of a line
(`commands_gap_append`, `commands_append_gap`). The quote of a malformed segment is no exception:
it is trimmed.
-/

namespace ParallelShell

namespace Line

variable {a b g line p : Text} {c : Char}

/-! ## Segments in a row -/

/-- What segments in a row come to: what those in front come to, and then the others. -/
theorem collect_append (ps qs : List Text) :
    collect (ps ++ qs) = do
      let cs ← collect ps
      let ds ← collect qs
      return cs ++ ds := by
  induction ps with
  | nil =>
      rw [List.nil_append, collect]
      cases collect qs <;> rfl
  | cons p ps ih =>
      rw [List.cons_append, collect, ih, collect]
      cases hp : command? p with
      | error m => rfl
      | ok c? =>
          -- the segments after the first one decide, if they have an error
          cases hps : collect ps with
          | error m => rfl
          | ok cs =>
              cases hqs : collect qs with
              | error m => rfl
              | ok ds => simp [bind, Except.bind, pure, Except.pure]

/-- **A mark puts lines in a row.** -/
theorem commands_append_cons (a b : Text) :
    commands (a ++ segmentMark :: b) = do
      let cs ← commands a
      let ds ← commands b
      return cs ++ ds := by
  rw [commands, segments_spaced_append_cons, collect_append]
  rfl

/-- A line without a mark is a single segment. -/
theorem commands_of_not_mem (h : segmentMark ∉ p) :
    commands p = (command? (spaced p)).map Option.toList := by
  have hspaced : segmentMark ∉ spaced p := by rwa [mem_spaced_iff (by decide)]
  rw [commands, segments_of_not_mem hspaced, collect, collect]
  cases command? (spaced p) <;> simp [Except.map]

/-- **A line is read segment by segment.** -/
theorem commands_segments (line : Text) :
    commands line = List.flatten <$> (segments line).mapM commands := by
  obtain ⟨ps, hcut⟩ := Grammar.exists_cut line
  induction hcut with
  | @last p hp =>
      rw [segments_of_not_mem hp, List.mapM_cons, List.mapM_nil]
      cases commands p <;> simp
  | @more p line ps hp _ ih =>
      rw [commands_append_cons, segments_append_cons, segments_of_not_mem hp, List.singleton_append,
        List.mapM_cons, ih]
      cases commands p with
      | error m => rfl
      | ok cs => cases (segments line).mapM commands <;> rfl

/-- Segments in a row are accepted exactly if each of them is. -/
theorem mapM_commands_eq_ok_iff (ps : List Text) :
    (∃ css, ps.mapM commands = .ok css) ↔ ∀ p ∈ ps, ∃ cs, commands p = .ok cs := by
  induction ps with
  | nil => exact ⟨fun _ => by simp, fun _ => ⟨[], rfl⟩⟩
  | cons p ps ih =>
      rw [List.mapM_cons, List.forall_mem_cons, ← ih]
      cases commands p with
      | error m => simp [bind, Except.bind]
      | ok cs => cases ps.mapM commands <;> simp [bind, Except.bind, pure, Except.pure]

/-! ## Blanks -/

theorem isWhiteSpace_of_isGap (h : IsGap g) : ∀ c ∈ g, isWhiteSpace c = true :=
  fun c hc => isWhiteSpace_of_isBlank (h c hc)

theorem spaced_of_isGap (h : IsGap g) : spaced g = g :=
  spaced_of_not_mem fun hm => absurd (h _ hm) (by decide)

theorem words_of_isGap (h : IsGap g) : words g = [] := by
  rw [← spaced_of_isGap h]
  exact Grammar.words_spaced_of_tokens (tokens_gap h)

theorem words_gap_append (h : IsGap g) (t : Text) : words (g ++ t) = words t := by
  induction g with
  | nil => rfl
  | cons c g ih =>
      rw [List.cons_append, words_cons_of_isBlank (h c (by simp)),
        ih fun d hd => h d (by simp [hd])]

theorem words_append_gap (h : IsGap g) (t : Text) : words (t ++ g) = words t := by
  cases g with
  | nil => rw [List.append_nil]
  | cons c g =>
      have hg : IsGap g := fun d hd => h d (by simp [hd])
      rw [words_append_cons (h c (by simp)), words_of_isGap hg, List.append_nil]

/-- White space at the ends of a text is trimmed off like what is there already. -/
theorem trim_append_append {x y : Text} (hx : ∀ c ∈ x, isWhiteSpace c = true)
    (hy : ∀ c ∈ y, isWhiteSpace c = true) (t : Text) : Text.trim (x ++ t ++ y) = Text.trim t := by
  obtain ⟨before, after, ht, hbefore, hafter, hends⟩ := Grammar.trimmed_trim t
  refine Grammar.trim_of_trimmed ⟨x ++ before, after ++ y, ?_, ?_, ?_, hends⟩
  · calc x ++ t ++ y
        = x ++ (before ++ Text.trim t ++ after) ++ y := by rw [← ht]
      _ = x ++ before ++ Text.trim t ++ (after ++ y) := by simp only [List.append_assoc]
  · exact List.forall_mem_append.mpr ⟨hx, hbefore⟩
  · exact List.forall_mem_append.mpr ⟨hafter, hy⟩

/-- Blanks at the ends of a segment change neither its command nor its quote. -/
theorem command?_gap_append_gap {g' : Text} (hg : IsGap g) (hg' : IsGap g') (t : Text) :
    command? (g ++ t ++ g') = command? t := by
  have htrim := trim_append_append (isWhiteSpace_of_isGap hg) (isWhiteSpace_of_isGap hg') t
  rw [command?, command?, words_append_gap hg', words_gap_append hg, htrim]

theorem commands_of_isGap (h : IsGap g) : commands g = .ok [] := by
  rw [commands_of_not_mem (segmentMark_not_mem_of_isGap h), command?, spaced_of_isGap h,
    words_of_isGap h]
  rfl

/-- Blanks at the ends of a line without a mark. -/
theorem commands_gap_append_gap_of_not_mem {g' : Text} (hg : IsGap g) (hg' : IsGap g')
    (hp : segmentMark ∉ p) : commands (g ++ p ++ g') = commands p := by
  have hmark : segmentMark ∉ g ++ p ++ g' := by
    simp [hp, segmentMark_not_mem_of_isGap hg, segmentMark_not_mem_of_isGap hg']
  rw [commands_of_not_mem hmark, commands_of_not_mem hp, spaced_append, spaced_append,
    spaced_of_isGap hg, spaced_of_isGap hg', command?_gap_append_gap hg hg']

/-- **Blanks in front of a line** change nothing. -/
theorem commands_gap_append (hg : IsGap g) (line : Text) :
    commands (g ++ line) = commands line := by
  have hfirst : ∀ {p : Text}, segmentMark ∉ p → commands (g ++ p) = commands p := fun hp => by
    simpa using commands_gap_append_gap_of_not_mem hg isGap_nil hp
  obtain ⟨ps, hcut⟩ := Grammar.exists_cut line
  cases hcut with
  | last hp => exact hfirst hp
  | more hp _ =>
      rw [← List.append_assoc, commands_append_cons, commands_append_cons, hfirst hp]

/-- **Blanks behind a line** change nothing. -/
theorem commands_append_gap (hg : IsGap g) (line : Text) :
    commands (line ++ g) = commands line := by
  -- the blanks belong to the last segment
  obtain ⟨ps, hcut⟩ := Grammar.exists_cut line
  induction hcut with
  | last hp =>
      simpa using commands_gap_append_gap_of_not_mem isGap_nil hg hp
  | more hp _ ih =>
      rw [List.append_assoc, List.cons_append, commands_append_cons, commands_append_cons, ih]

/-- **Reading a line is compositional at marks.** Two lines with a mark between them come to the
error of the first, if it has one, or else to that of the second, or else to the commands of the
first followed by those of the second. So a line comes to what its segments come to, each read by
itself, one after the other; a segment of blanks is neutral, wherever it stands; and a line is
accepted exactly if each of its segments is. -/
theorem commands_compose :
    (∀ a b, commands (a ++ segmentMark :: b) =
      match commands a, commands b with
      | .error m, _ => .error m
      | .ok _, .error m => .error m
      | .ok cs, .ok ds => .ok (cs ++ ds)) ∧
    (∀ line, commands line = List.flatten <$> (segments line).mapM commands) ∧
    (∀ g, IsGap g → ∀ a b,
      commands (g ++ segmentMark :: b) = commands b ∧
      commands (a ++ segmentMark :: g) = commands a ∧
      commands (a ++ segmentMark :: (g ++ segmentMark :: b)) =
        commands (a ++ segmentMark :: b)) ∧
    ∀ line, (∃ cs, commands line = .ok cs) ↔
      ∀ p ∈ segments line, ∃ cs, commands p = .ok cs := by
  refine ⟨fun a b => ?_, commands_segments, fun g hg a b => ?_, fun line => ?_⟩
  · rw [commands_append_cons]
    cases commands a with
    | error m => rfl
    | ok cs => cases commands b <;> rfl
  · have hfront : ∀ b, commands (g ++ segmentMark :: b) = commands b := fun b => by
      rw [commands_append_cons, commands_of_isGap hg]
      cases commands b <;> rfl
    refine ⟨hfront b, ?_, ?_⟩
    · rw [commands_append_cons, commands_of_isGap hg]
      cases commands a <;> simp [bind, Except.bind, pure, Except.pure]
    · rw [commands_append_cons, hfront, ← commands_append_cons]
  · rw [← mapM_commands_eq_ok_iff, commands_segments]
    cases (segments line).mapM commands <;> simp

/-- A segment of blanks between two commands. -/
theorem commands_compose_cdPath : IsGap (text " \t") ∧
    commands (text "cd" ++ segmentMark :: (text " \t" ++ segmentMark :: text "path >f")) =
      .ok [{ name := text "cd", operands := [], target := none },
        { name := text "path", operands := [], target := some (text "f") }] := by
  have hgap : IsGap (text " \t") := List.all_eq_true.mp (by decide)
  have hneutral := (commands_compose.2.2.1 _ hgap (text "cd") (text "path >f")).2.2
  exact ⟨hgap, hneutral.trans (by decide)⟩

/-- Both sides of the mark are malformed; the line is rejected for the first. -/
example : commands (text "a >& &> f ") = .error { segment := text "a  >" } := by decide

end Line

end ParallelShell
