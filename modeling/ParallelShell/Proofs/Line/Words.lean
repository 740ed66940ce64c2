import Mathlib.Data.List.TakeWhile
import ParallelShell.Line.Command

set_option autoImplicit false

/-! # What the steps of reading a line do

A line is read in steps: it is spaced out, cut into segments, each segment is split into words, and
the redirection is taken out of the words. This file says what each step does, so that nothing
after it has to look into one.

* **Words** come apart at a blank (`words_append_cons`), and a run without blanks is one word
  (`words_of_forall_not_isBlank`). Everything else about words follows from the two. Together they
  hold all characters but the blanks (`flatten_words`).
* **Spacing out** goes character by character, leaves marks alone (`mem_spaced_iff`), and makes
  every `>` a word of its own (`words_spaced_cons_redirectMark`).
* **Cutting** a line without a mark gives the line (`segments_of_not_mem`).
* **Redirections**: the two sides of the first operator decide (`ofWords?_append_cons`), so
  `Redirected.ofWords?` gives something exactly on words of two forms (`ofWords?_eq_some_iff`).
-/

namespace ParallelShell

/-! ## Runs -/

/-- A run ends at an element that does not go on with it. -/
theorem eq_false_of_mem_head?_dropWhile {α : Type} {p : α → Bool} {xs : List α} :
    ∀ x ∈ (xs.dropWhile p).head?, p x = false := by
  intro x hx
  have hend := List.head?_dropWhile_not p xs
  rw [Option.mem_def.mp hx] at hend
  simpa using hend

namespace Line

/-! ## Words -/

/-- What stands before a blank is read as if the blank were the end. -/
theorem scan_append_cons {c : Char} (h : isBlank c = true) (x y : Text) :
    scan (x ++ c :: y) = { scan x with later := (scan x).later ++ words y } := by
  -- reading goes from the right, so when `x` is reached the blank has closed the words of `y`
  induction x with
  | nil => simp [Scan.read, h, words]
  | cons d x ih =>
      rw [List.cons_append, scan_cons, ih, scan_cons]
      by_cases hd : isBlank d = true
      · by_cases hc : (scan x).current.isEmpty = true <;> simp [Scan.read, Scan.words, hd, hc]
      · simp [Scan.read, hd]

/-- **Words come apart at a blank.** -/
theorem words_append_cons {c : Char} (h : isBlank c = true) (x y : Text) :
    words (x ++ c :: y) = words x ++ words y := by
  rw [words, scan_append_cons h]
  by_cases hx : (scan x).current.isEmpty = true <;> simp [words, Scan.words, hx]

/-- As long as there is no blank, what is read is the word being read. -/
theorem scan_of_forall_not_isBlank {w : Text} (h : ∀ c ∈ w, isBlank c = false) :
    scan w = { current := w, later := [] } := by
  induction w with
  | nil => rfl
  | cons c w ih =>
      have hc : isBlank c = false := h c (by simp)
      rw [scan_cons, ih fun d hd => h d (by simp [hd])]
      simp [Scan.read, hc]

/-- **A run of characters without a blank is one word.** -/
theorem words_of_forall_not_isBlank {w : Text} (hne : w ≠ []) (h : ∀ c ∈ w, isBlank c = false) :
    words w = [w] := by
  rw [words, scan_of_forall_not_isBlank h]
  simp [Scan.words, hne]

/-- A run of characters in front of a blank, or of the end, is a word. -/
theorem words_append {w s : Text} (hne : w ≠ []) (h : ∀ c ∈ w, isBlank c = false)
    (hs : ∀ c ∈ s.head?, isBlank c = true) : words (w ++ s) = w :: words s := by
  cases s with
  | nil => simpa using words_of_forall_not_isBlank hne h
  | cons c s =>
      have hc : isBlank c = true := hs c (by simp)
      rw [words_append_cons hc, words_of_forall_not_isBlank hne h, words_cons_of_isBlank hc]
      rfl

/-- The words of a segment in a row are its characters other than blanks. -/
theorem flatten_words (segment : Text) :
    (words segment).flatten = segment.filter fun c => !isBlank c := by
  have flatten : ∀ s : Scan, s.words.flatten = s.current ++ s.later.flatten := by
    intro s
    unfold Scan.words
    by_cases hs : s.current = [] <;> simp [hs]
  induction segment with
  | nil => rfl
  | cons c segment ih =>
      rw [words, flatten] at ih
      rw [words, scan_cons, flatten]
      by_cases hc : isBlank c = true
      · simp [Scan.read, hc, flatten, ih]
      · simp [Scan.read, hc, ih]

/-! ## Spacing out -/

theorem spaced_cons (c : Char) (line : Text) :
    spaced (c :: line) = (if c = redirectMark then [' ', c, ' '] else [c]) ++ spaced line := by
  simp [spaced]

theorem spaced_cons_of_ne {c : Char} (h : c ≠ redirectMark) (line : Text) :
    spaced (c :: line) = c :: spaced line := by
  simp [spaced_cons, h]

theorem spaced_of_not_mem {line : Text} (h : redirectMark ∉ line) : spaced line = line := by
  induction line with
  | nil => rfl
  | cons c line ih =>
      rw [List.mem_cons, not_or] at h
      rw [spaced_cons_of_ne (Ne.symm h.1), ih h.2]

theorem mem_spaced_iff {c : Char} (h : c ≠ ' ') (line : Text) : c ∈ spaced line ↔ c ∈ line := by
  induction line with
  | nil => simp
  | cons d line ih =>
      by_cases hd : d = redirectMark <;> simp [spaced_cons, hd, h, ih]

/-- An operator is a word of its own, whatever stands next to it. -/
theorem words_spaced_cons_redirectMark (line : Text) :
    words (spaced (redirectMark :: line)) = redirectWord :: words (spaced line) := by
  have hop : spaced (redirectMark :: line) = ' ' :: ([redirectMark] ++ ' ' :: spaced line) := by
    simp [spaced_cons]
  have hw : words [redirectMark] = [redirectWord] := by decide
  rw [hop, words_cons_of_isBlank (by decide), words_append_cons (by decide), hw]
  rfl

/-! ## Cutting into segments -/

theorem segments_of_not_mem {line : Text} (h : segmentMark ∉ line) : segments line = [line] :=
  Text.split_of_not_mem h

theorem segments_spaced_append_cons (a b : Text) :
    segments (spaced (a ++ segmentMark :: b)) = segments (spaced a) ++ segments (spaced b) := by
  rw [spaced_append, spaced_cons_of_ne (by decide), segments_append_cons]

/-! ## Redirections -/

theorem ofWords?_of_not_mem {ws : List Text} (h : redirectWord ∉ ws) :
    Redirected.ofWords? ws = some { words := ws, target := none } := by
  have hd : ws.dropWhile (· ≠ redirectWord) = [] := by
    rw [List.dropWhile_eq_nil_iff]
    intro w hw
    have : w ≠ redirectWord := fun e => h (e ▸ hw)
    simpa using this
  simp only [Redirected.ofWords?, hd]

/-- What stands on the two sides of the first operator decides. -/
theorem ofWords?_append_cons {before : List Text} (h : redirectWord ∉ before)
    (after : List Text) :
    Redirected.ofWords? (before ++ redirectWord :: after) =
      match after with
      | [target] =>
        if before.isEmpty then none else some { words := before, target := some target }
      | _ => none := by
  have hall : ∀ w ∈ before, decide (w ≠ redirectWord) = true := by
    intro w hw
    have : w ≠ redirectWord := fun e => h (e ▸ hw)
    simpa using this
  have ht : (before ++ redirectWord :: after).takeWhile (· ≠ redirectWord) = before := by
    rw [List.takeWhile_append_of_pos hall]
    simp
  have hd : (before ++ redirectWord :: after).dropWhile (· ≠ redirectWord) =
      redirectWord :: after := by
    rw [List.dropWhile_append_of_pos hall]
    simp
  simp only [Redirected.ofWords?, ht, hd]
  rcases after with _ | ⟨target, _ | ⟨w, rest⟩⟩ <;> rfl

/-- One word behind the first operator is the target. -/
theorem ofWords?_append {ws : List Text} (hne : ws ≠ []) (h : redirectWord ∉ ws) (target : Text) :
    Redirected.ofWords? (ws ++ [redirectWord, target]) =
      some { words := ws, target := some target } := by
  rw [ofWords?_append_cons h]
  simp [hne]

/-- **When a redirection can be taken out of words**: if there is none, or if exactly one word
comes after the first operator, and at least one before it. -/
theorem ofWords?_eq_some_iff (ws : List Text) (r : Redirected) :
    Redirected.ofWords? ws = some r ↔
      (redirectWord ∉ ws ∧ r = { words := ws, target := none }) ∨
        ∃ target, ws = r.words ++ [redirectWord, target] ∧ r.words ≠ [] ∧
          redirectWord ∉ r.words ∧ r.target = some target := by
  constructor
  · intro h
    by_cases hmem : redirectWord ∈ ws
    · obtain ⟨before, after, rfl, hfirst⟩ := List.eq_append_cons_of_mem hmem
      rw [ofWords?_append_cons hfirst] at h
      split at h
      · -- nothing before the operator is no command; otherwise both parts are as they should be
        split at h
        · cases h
        · rename_i target hne
          obtain rfl := Option.some.inj h
          exact Or.inr ⟨target, rfl, by simpa using hne, hfirst, rfl⟩
      · cases h
    · rw [ofWords?_of_not_mem hmem] at h
      exact Or.inl ⟨hmem, (Option.some.inj h).symm⟩
  · rintro (⟨hm, rfl⟩ | ⟨target, hws, hne, hm, ht⟩)
    · exact ofWords?_of_not_mem hm
    · obtain ⟨words, t⟩ := r
      simp only at hws hne hm ht
      subst hws ht
      exact ofWords?_append hne hm target

end Line

end ParallelShell
