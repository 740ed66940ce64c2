import ParallelShell.Proofs.Line.Words

set_option autoImplicit false

/-! # Words read from the left

`words` reads a segment from its right end. A segment that arrives character by character is read
from the left, and then the end of a word is seen only on the character behind it. `Lookahead` is a
reader that keeps this one character in view. Asked for a word, it passes over blanks, takes
characters as long as they are none, and stops with the character in view that ended the word
(`next?`); asked again and again until it gives none, it has given some words (`Yields`).

What ties the reader to the segment is what it has not read, the character in view included
(`unread`). Each step is said in terms of it: passing over blanks drops them from it, and reading a
word takes the word off. Only at the end is nothing in view, so when no word is given, nothing but
blanks was left. The main result is `yields_iff`: the reader comes to an end, whatever the segment,
and has given its words.
-/

namespace ParallelShell

namespace Line

/-- A reader with one character of look-ahead. -/
structure Lookahead where
  /-- The character in view, if the segment has not ended. -/
  current : Option Char
  /-- What comes after it. -/
  rest : Text
  /-- Nothing is in view only where nothing is left. -/
  rest_eq_nil : current = none → rest = []

namespace Lookahead

def ofText : Text → Lookahead
  | [] => { current := none, rest := [], rest_eq_nil := fun _ => rfl }
  | c :: t => { current := some c, rest := t, rest_eq_nil := by simp }

def advance (s : Lookahead) : Lookahead := ofText s.rest

def unread (s : Lookahead) : Text := s.current.toList ++ s.rest

variable {s s' : Lookahead} {c : Char} {w : Text} {ws : List Text}

@[simp]
theorem unread_ofText (t : Text) : (ofText t).unread = t := by
  cases t <;> rfl

/-- Advancing takes the character in view off what has not been read. -/
theorem unread_of_current (h : s.current = some c) : s.unread = c :: s.advance.unread := by
  rw [advance, unread_ofText, unread, h]
  rfl

theorem unread_of_current_eq_none (h : s.current = none) : s.unread = [] := by
  simp [unread, h, s.rest_eq_nil h]

theorem length_unread_advance_lt (h : s.current = some c) :
    s.advance.unread.length < s.unread.length := by
  simp [unread_of_current h]

/-- Passes over blanks. -/
def skipBlanks (s : Lookahead) : Lookahead :=
  match _h : s.current with
  | none => s
  | some c => if isBlank c then s.advance.skipBlanks else s
termination_by s.unread.length
decreasing_by exact length_unread_advance_lt ‹_›

/-- Takes characters up to the next blank and puts them behind those of a word. -/
def takeWord (s : Lookahead) (word : Text) : Text × Lookahead :=
  match _h : s.current with
  | none => (word, s)
  | some c => if isBlank c then (word, s) else s.advance.takeWord (word ++ [c])
termination_by s.unread.length
decreasing_by exact length_unread_advance_lt ‹_›

def next? (s : Lookahead) : Option (Text × Lookahead) :=
  match s.skipBlanks.current with
  | none => none
  | some _ => some (s.skipBlanks.takeWord [])

/-- **Reading to the end**: asked until there is none, the reader gives these words. -/
inductive Yields : Lookahead → List Text → Prop
  | done {s : Lookahead} : s.next? = none → Yields s []
  | word {s s' : Lookahead} {w : Text} {ws : List Text} :
      s.next? = some (w, s') → Yields s' ws → Yields s (w :: ws)

/-! ## What a step leaves unread -/

theorem unread_skipBlanks (s : Lookahead) : s.skipBlanks.unread = s.unread.dropWhile isBlank := by
  fun_induction skipBlanks s with
  | case1 s h => simp [unread_of_current_eq_none h]
  | case2 s c h hc ih => rw [ih, unread_of_current h, List.dropWhile_cons_of_pos hc]
  | case3 s c h hc => rw [unread_of_current h, List.dropWhile_cons_of_neg hc]

theorem takeWord_eq (s : Lookahead) (word : Text) :
    (s.takeWord word).1 = word ++ s.unread.takeWhile (fun c => !isBlank c) ∧
      (s.takeWord word).2.unread = s.unread.dropWhile (fun c => !isBlank c) := by
  fun_induction takeWord s word with
  | case1 s word h => simp [unread_of_current_eq_none h]
  | case2 s word c h hc => simp [unread_of_current h, hc]
  | case3 s word c h hc ih => simp [unread_of_current h, hc, ih]

/-! ## Words of what is unread -/

theorem words_dropWhile_isBlank (t : Text) : words (t.dropWhile isBlank) = words t := by
  induction t with
  | nil => rfl
  | cons c t ih =>
      by_cases hc : isBlank c = true
      · rw [List.dropWhile_cons_of_pos hc, ih, words_cons_of_isBlank hc]
      · rw [List.dropWhile_cons_of_neg hc]

/-- The first word goes up to the first blank. -/
theorem words_cons_of_not_isBlank (hc : isBlank c = false) (t : Text) :
    words (c :: t) = (c :: t).takeWhile (fun d => !isBlank d) ::
      words ((c :: t).dropWhile fun d => !isBlank d) := by
  have hne : (c :: t).takeWhile (fun d => !isBlank d) ≠ [] := by simp [hc]
  have hword : ∀ d ∈ (c :: t).takeWhile (fun d => !isBlank d), isBlank d = false := by
    intro d hd
    simpa using List.mem_takeWhile_imp hd
  have hend : ∀ d ∈ ((c :: t).dropWhile fun d => !isBlank d).head?, isBlank d = true := by
    intro d hd
    simpa using eq_false_of_mem_head?_dropWhile d hd
  rw [← words_append hne hword hend, List.takeWhile_append_dropWhile]

/-- Where no word is given, there is none. -/
theorem words_of_next?_eq_none (h : s.next? = none) : words s.unread = [] := by
  unfold next? at h
  split at h
  · rename_i hend
    rw [← words_dropWhile_isBlank, ← unread_skipBlanks, unread_of_current_eq_none hend]
    rfl
  · cases h

/-- **The word that is given** is the first one, and the others are still to be read. -/
theorem words_of_next?_eq_some (h : s.next? = some (w, s')) :
    words s.unread = w :: words s'.unread := by
  unfold next? at h
  split at h
  · cases h
  · rename_i c hc
    have hunread := unread_of_current hc
    -- blanks have been passed over, so the character in view is none
    have hletter : isBlank c = false := by
      apply eq_false_of_mem_head?_dropWhile c
      rw [← unread_skipBlanks, hunread]
      rfl
    have htake := takeWord_eq s.skipBlanks []
    rw [Option.some.inj h, hunread] at htake
    obtain ⟨hw, hs'⟩ : w = _ ∧ s'.unread = _ := htake
    calc words s.unread
        = words (c :: s.skipBlanks.advance.unread) := by
          rw [← words_dropWhile_isBlank, ← unread_skipBlanks, hunread]
      _ = _ := words_cons_of_not_isBlank hletter _
      _ = w :: words s'.unread := by
          rw [hw, hs']
          rfl

/-- **The reader gives the words of what it has not read**, and comes to an end. -/
theorem yields_iff (s : Lookahead) (ws : List Text) : s.Yields ws ↔ ws = words s.unread := by
  constructor
  · intro h
    induction h with
    | done h => exact (words_of_next?_eq_none h).symm
    | word h _ ih => rw [words_of_next?_eq_some h, ih]
  · intro hws
    -- every word that is given is one of the words, so their number bounds the calls
    induction ws generalizing s with
    | nil =>
        refine .done ?_
        cases h : s.next? with
        | none => rfl
        | some r =>
            obtain ⟨v, s'⟩ := r
            rw [words_of_next?_eq_some h] at hws
            cases hws
    | cons w ws ih =>
        cases h : s.next? with
        | none =>
            rw [words_of_next?_eq_none h] at hws
            cases hws
        | some r =>
            obtain ⟨v, s'⟩ := r
            rw [words_of_next?_eq_some h] at hws
            obtain ⟨rfl, hrest⟩ := List.cons.inj hws
            exact .word h (ih s' hrest)

end Lookahead

end Line

end ParallelShell
