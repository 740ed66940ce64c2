import ParallelShell.Proofs.Completion.Offers
import ParallelShell.Proofs.Line.Grammar

set_option autoImplicit false

/-! # The typed word and the command

A completer and the reader of a line decide on their own where the name of a command starts. The
completer leaves out all white space in front of it (`Completer.lead`), the reader only blanks. So
a line that a candidate has been added to need not run the command that was offered:
`Completer.words_candidate_iff` says when it does, namely if what was left out is made of blanks.
After a no-break space, which is white space but a letter of a word, `exit` is offered, and what
is read in the end is another word (`Completer.not_forall_words_candidate`).

The names themselves do no harm here as long as they are made of letters and without `&`.
-/

namespace ParallelShell

open Line

namespace Completer

/-- What stands between the last mark and the end of a text. -/
def lastPart (before : Text) : Text := (before.reverse.takeWhile (· ≠ '&')).reverse

def lead (before : Text) : Text := (lastPart before).takeWhile isWhiteSpace

theorem lead_append_typedWord (before : Text) : lead before ++ typedWord before = lastPart before :=
  List.takeWhile_append_dropWhile

theorem isWhiteSpace_of_mem_lead {before : Text} {ch : Char} (h : ch ∈ lead before) :
    isWhiteSpace ch = true := List.mem_takeWhile_imp h

theorem segmentMark_not_mem_lastPart (before : Text) : segmentMark ∉ lastPart before := by
  intro h
  have := List.mem_takeWhile_imp (List.mem_reverse.mp h)
  simp [segmentMark] at this

/-- In front of the last part there is nothing, or a mark. -/
theorem exists_append_lastPart (before : Text) :
    before = lastPart before ∨ ∃ front, before = front ++ segmentMark :: lastPart before := by
  have hsplit : before = (before.reverse.dropWhile (· ≠ '&')).reverse ++ lastPart before := by
    rw [lastPart, ← List.reverse_append, List.takeWhile_append_dropWhile, List.reverse_reverse]
  cases hd : before.reverse.dropWhile (· ≠ '&') with
  | nil =>
      rw [hd] at hsplit
      exact Or.inl hsplit
  | cons c front =>
      have hc : c = segmentMark := by
        have hend := eq_false_of_mem_head?_dropWhile c (by rw [hd]; rfl)
        simpa [segmentMark] using hend
      rw [hd, hc] at hsplit
      exact Or.inr ⟨front.reverse, by simpa using hsplit⟩

/-- What is added behind a text without a mark belongs to the last segment. -/
theorem getLast?_segments_spaced {before added : Text} (h : segmentMark ∉ added) :
    (segments (spaced (before ++ added))).getLast? = some (spaced (lastPart before ++ added)) := by
  have hlast : segments (spaced (lastPart before ++ added)) =
      [spaced (lastPart before ++ added)] := by
    refine segments_of_not_mem ?_
    rw [mem_spaced_iff (by decide), List.mem_append]
    exact not_or.mpr ⟨segmentMark_not_mem_lastPart before, h⟩
  rcases exists_append_lastPart before with hb | ⟨front, hb⟩
  · rw [← hb] at hlast ⊢
    rw [hlast]
    rfl
  · have hmore : before ++ added = front ++ segmentMark :: (lastPart before ++ added) := by
      conv_lhs => rw [hb]
      simp
    rw [hmore, segments_spaced_append_cons, hlast, List.getLast?_concat]

/-- A text in front of a word and a blank leaves the word as it is exactly when it is made of
blanks. -/
theorem words_append_name_iff {gap name : Text} (hne : name ≠ [])
    (hname : ∀ ch ∈ name, isBlank ch = false) :
    words (gap ++ (name ++ [' '])) = [name] ↔ ∀ ch ∈ gap, isBlank ch = true := by
  constructor
  · intro h
    -- the characters other than blanks are all there in the words
    have hflat := flatten_words (gap ++ (name ++ [' ']))
    have hkept : (name ++ [' ']).filter (fun c => !isBlank c) = name := by
      have hall : name.filter (fun c => !isBlank c) = name := by
        rw [List.filter_eq_self]
        intro ch hch
        simp [hname ch hch]
      rw [List.filter_append, hall]
      simp [isBlank]
    rw [h, List.filter_append, hkept] at hflat
    have hnil : gap.filter (fun c => !isBlank c) = [] := by
      have hlen := congrArg List.length hflat
      simp only [List.flatten_cons, List.flatten_nil, List.append_nil, List.length_append] at hlen
      exact List.eq_nil_of_length_eq_zero (by omega)
    intro ch hch
    simpa using List.filter_eq_nil_iff.mp hnil ch hch
  · intro h
    induction gap with
    | nil =>
        rw [List.nil_append, words_append hne hname (by simp [isBlank])]
        rfl
    | cons c gap ih =>
        rw [List.cons_append, words_cons_of_isBlank (h c (by simp))]
        exact ih fun ch hch => h ch (by simp [hch])

/-- **When the command that is run is the one that was offered.** A candidate that has been added
to a text is the only word of the last segment exactly when what the completer left out in front
of the typed word is made of blanks. -/
theorem words_candidate_iff {c : Completer} {line : Text} {cursor : Nat} {x : Candidate}
    (hnames : ∀ name ∈ c.names, ∀ ch ∈ name, Grammar.IsLetter ch ∧ ch ≠ segmentMark)
    (hx : x ∈ (c.complete line cursor).candidates) :
    (segments (spaced (Text.upTo cursor line ++ x.replacement))).getLast?.map words =
        some [x.display] ↔
      ∀ ch ∈ lead (Text.upTo cursor line), isBlank ch = true := by
  rw [candidates_complete, mem_candidates] at hx
  obtain ⟨hword, -, name, hmem, hx⟩ := hx
  generalize Text.upTo cursor line = before at *
  obtain ⟨rest, -, hname, rfl⟩ := (candidate?_eq_some_iff _ _ _).mp hx
  have hletters := hnames name hmem
  have hne : name ≠ [] := by
    rw [hname]
    exact List.append_ne_nil_of_left_ne_nil hword rest
  have hadded : segmentMark ∉ rest ++ [' '] := by
    intro h
    rcases List.mem_append.mp h with h | h
    · exact (hletters segmentMark (by simp [hname, h])).2 rfl
    · exact absurd h (by decide)
  have hseg : lastPart before ++ (rest ++ [' ']) = lead before ++ (name ++ [' ']) := by
    rw [← lead_append_typedWord, hname]
    simp
  have hplain : redirectMark ∉ lead before ++ (name ++ [' ']) := by
    intro h
    simp only [List.mem_append] at h
    rcases h with h | h | h
    · exact absurd (isWhiteSpace_of_mem_lead h) (by decide)
    · exact (hletters _ h).1.2 rfl
    · exact absurd h (by decide)
  rw [getLast?_segments_spaced hadded, hseg, spaced_of_not_mem hplain, Option.map_some,
    Option.some_inj]
  exact words_append_name_iff hne fun ch hch => (hletters ch hch).1.1

/-- A completer that knows the built-ins and no program. -/
def builtInsOnly : Completer := build { directories := [] } .empty []

theorem isLetter_of_mem_builtInsOnly : ∀ name ∈ builtInsOnly.names, ∀ ch ∈ name,
    Grammar.IsLetter ch ∧ ch ≠ segmentMark := by
  have hall : (builtInsOnly.names.all fun name => name.all fun ch =>
      isBlank ch = false ∧ ch ≠ redirectMark ∧ ch ≠ segmentMark) = true := by decide
  intro name hname ch hch
  have hch := List.all_eq_true.mp (List.all_eq_true.mp hall name hname) ch hch
  obtain ⟨hblank, hredirect, hsegment⟩ := of_decide_eq_true hch
  exact ⟨⟨hblank, hredirect⟩, hsegment⟩

theorem mem_candidates_builtInsOnly {line : Text} {cursor : Nat}
    (h : typedWord (Text.upTo cursor line) = text "ex") :
    { display := text "exit", replacement := text "it " } ∈
      (builtInsOnly.complete line cursor).candidates := by
  rw [candidates_complete, mem_candidates, h]
  exact ⟨by decide, by decide, text "exit", by decide, by decide⟩

/-- Behind a space, `exit` is offered for `ex`, and `exit` is what is read. -/
theorem words_candidate_exit :
    { display := text "exit", replacement := text "it " } ∈
        (builtInsOnly.complete (text "cd & ex") 7).candidates ∧
      (segments (spaced (Text.upTo 7 (text "cd & ex") ++ text "it "))).getLast?.map words =
        some [text "exit"] := by
  have hx : { display := text "exit", replacement := text "it " } ∈
      (builtInsOnly.complete (text "cd & ex") 7).candidates :=
    mem_candidates_builtInsOnly (by decide)
  have hlead : ∀ ch ∈ lead (Text.upTo 7 (text "cd & ex")), isBlank ch = true :=
    List.forall_mem_singleton.mpr (by decide)
  exact ⟨hx, (words_candidate_iff isLetter_of_mem_builtInsOnly hx).mpr hlead⟩

/-- The class of characters matters: behind a no-break space `exit` is offered as well, and a word
that starts with the no-break space is read. -/
theorem not_forall_words_candidate :
    ¬ ∀ (c : Completer) (line : Text) (cursor : Nat) (x : Candidate),
      (∀ name ∈ c.names, ∀ ch ∈ name, Grammar.IsLetter ch ∧ ch ≠ segmentMark) →
      x ∈ (c.complete line cursor).candidates →
        (segments (spaced (Text.upTo cursor line ++ x.replacement))).getLast?.map words =
          some [x.display] := by
  intro h
  have hread := h builtInsOnly (text "\u00a0ex") 4 _ isLetter_of_mem_builtInsOnly
    (mem_candidates_builtInsOnly (by decide))
  exact absurd hread (by decide)

end Completer

end ParallelShell
