import Mathlib.Data.List.Induction
import ParallelShell.Proofs.Line.Lookahead
import ParallelShell.Proofs.Line.Segments

set_option autoImplicit false

/-! # A segment taken apart

A segment can be taken apart into blanks, a word, blanks, a word and so on up to blanks at its end,
where between two words stands at least one blank. `Parts` holds what it is taken apart into, and
`Parts.IsMaximal` says that the words are words and the blanks are blanks.

There is exactly one way to do so (`exists_isMaximal`, `eq_of_text_eq`), and the words in it are the
words of the segment (`words_text`). So the words are settled by the segment alone, without any
reader: the main statement is `words_decomposition`. It has two consequences in it. Words come apart
at any blanks between them, and a character that is no blank, be it white space or a control
character, is inside the word that goes from the blank before it to the blank behind it.
-/

namespace ParallelShell

namespace Line

structure Parts where
  /-- The blanks in front of the first word. -/
  lead : Text
  /-- The words, each with the blanks behind it. -/
  words : List (Text × Text)

namespace Parts

def text (p : Parts) : Text := p.lead ++ p.words.flatMap fun q => q.1 ++ q.2

def list (p : Parts) : List Text := p.words.map Prod.fst

/-- **Words as long as they go**, and blanks around them. -/
structure IsMaximal (p : Parts) : Prop where
  lead : IsGap p.lead
  word : ∀ q ∈ p.words, q.1 ≠ [] ∧ ∀ c ∈ q.1, isBlank c = false
  gap : ∀ q ∈ p.words, IsGap q.2
  apart : ∀ q ∈ p.words.dropLast, q.2 ≠ []

variable {p q : Parts} {b w : Text} {ws : List (Text × Text)}

/-! ## The first word -/

theorem text_cons (lead w b : Text) (ws : List (Text × Text)) :
    text { lead, words := (w, b) :: ws } = lead ++ (w ++ text { lead := b, words := ws }) := by
  simp [text]

/-- Behind the first word the blanks after it lead, and they are none only at the end. -/
theorem isMaximal_cons_iff {lead : Text} :
    IsMaximal { lead, words := (w, b) :: ws } ↔
      IsGap lead ∧ (w ≠ [] ∧ ∀ c ∈ w, isBlank c = false) ∧ (ws ≠ [] → b ≠ []) ∧
        IsMaximal { lead := b, words := ws } := by
  constructor
  · rintro ⟨hlead, hword, hgap, hapart⟩
    rw [List.forall_mem_cons] at hword hgap
    refine ⟨hlead, hword.1, ?_, hgap.1, hword.2, hgap.2, ?_⟩
    · intro hws
      exact hapart (w, b) (by simp [List.dropLast_cons_of_ne_nil hws])
    · intro q hq
      have hws : ws ≠ [] := by
        rintro rfl
        cases hq
      exact hapart q (by simpa [List.dropLast_cons_of_ne_nil hws] using Or.inr hq)
  · rintro ⟨hlead, hfirst, hb, hgap, hword, hgaps, hapart⟩
    refine ⟨hlead, List.forall_mem_cons.mpr ⟨hfirst, hword⟩,
      List.forall_mem_cons.mpr ⟨hgap, hgaps⟩, ?_⟩
    intro q hq
    have hws : ws ≠ [] := by
      rintro rfl
      cases hq
    rw [List.dropLast_cons_of_ne_nil hws] at hq
    rcases List.mem_cons.mp hq with rfl | hq
    · exact hb hws
    · exact hapart q hq

/-- A word ends at a blank, or at the end. -/
theorem isBlank_of_mem_head?_text (h : IsMaximal { lead := b, words := ws })
    (hb : ws ≠ [] → b ≠ []) : ∀ c ∈ (text { lead := b, words := ws }).head?, isBlank c = true := by
  intro c hc
  cases b with
  | nil =>
      have hws : ws = [] := not_not.mp fun hws => hb hws rfl
      simp [text, hws] at hc
  | cons d b =>
      obtain rfl : d = c := by simpa [text] using hc
      exact h.lead d (by simp)

/-! ## Words of the parts -/

/-- **The words of parts in a row** are the words among the parts. -/
theorem words_text (h : p.IsMaximal) : Line.words p.text = p.list := by
  obtain ⟨lead, ws⟩ := p
  induction ws generalizing lead with
  | nil => simpa [text, list] using words_of_isGap h.lead
  | cons q ws ih =>
      obtain ⟨w, b⟩ := q
      obtain ⟨hlead, ⟨hne, hword⟩, hb, hrest⟩ := isMaximal_cons_iff.mp h
      rw [text_cons, words_gap_append hlead,
        words_append hne hword (isBlank_of_mem_head?_text hrest hb), ih b hrest]
      rfl

/-! ## One way to take a segment apart -/

theorem takeWhile_isBlank_text {lead : Text} (h : IsMaximal { lead, words := (w, b) :: ws }) :
    (text { lead, words := (w, b) :: ws }).takeWhile isBlank = lead := by
  obtain ⟨hlead, ⟨hne, hword⟩, -, -⟩ := isMaximal_cons_iff.mp h
  rw [text_cons, List.takeWhile_append_of_pos hlead]
  cases w with
  | nil => exact absurd rfl hne
  | cons c w => simp [hword c (by simp)]

/-- **No segment can be taken apart in two ways.** -/
theorem eq_of_text_eq (hp : p.IsMaximal) (hq : q.IsMaximal) (h : p.text = q.text) : p = q := by
  obtain ⟨lead, ws⟩ := p
  obtain ⟨lead', vs⟩ := q
  -- the words are the same, so only the blanks have to be compared
  have hlist : ws.map Prod.fst = vs.map Prod.fst := by
    simpa [words_text hp, words_text hq, list] using congrArg Line.words h
  induction ws generalizing lead lead' vs with
  | nil =>
      obtain rfl : vs = [] := by simpa using hlist.symm
      simpa [text] using h
  | cons x ws ih =>
      obtain ⟨w, b⟩ := x
      cases vs with
      | nil => simp at hlist
      | cons y vs =>
          obtain ⟨v, d⟩ := y
          obtain ⟨rfl, hrest⟩ : w = v ∧ ws.map Prod.fst = vs.map Prod.fst := by simpa using hlist
          obtain rfl : lead = lead' := by
            rw [← takeWhile_isBlank_text hp, h, takeWhile_isBlank_text hq]
          rw [text_cons, text_cons, List.append_cancel_left_eq, List.append_cancel_left_eq] at h
          obtain ⟨-, -, -, hp'⟩ := isMaximal_cons_iff.mp hp
          obtain ⟨-, -, -, hq'⟩ := isMaximal_cons_iff.mp hq
          injection ih b hp' d vs hq' h hrest with hgap hwords
          rw [hgap, hwords]

/-- **Every segment can be taken apart.** -/
theorem exists_isMaximal (segment : Text) : ∃ p : Parts, p.IsMaximal ∧ p.text = segment := by
  induction segment with
  | nil => exact ⟨{ lead := [], words := [] }, ⟨isGap_nil, by simp, by simp, by simp⟩, rfl⟩
  | cons c segment ih =>
      obtain ⟨⟨lead, ws⟩, hp, rfl⟩ := ih
      by_cases hc : isBlank c = true
      · exact ⟨{ lead := c :: lead, words := ws },
          ⟨List.forall_mem_cons.mpr ⟨hc, hp.lead⟩, hp.word, hp.gap, hp.apart⟩, rfl⟩
      have hletter : isBlank c = false := by simpa using hc
      by_cases hjoin : ws ≠ [] ∧ lead = []
      · -- a word begins right behind the character, and becomes longer
        obtain ⟨hws, rfl⟩ := hjoin
        obtain ⟨⟨w, b⟩, ws, rfl⟩ := List.exists_cons_of_ne_nil hws
        obtain ⟨-, ⟨-, hword⟩, hb, hrest⟩ := isMaximal_cons_iff.mp hp
        refine ⟨{ lead := [], words := (c :: w, b) :: ws }, ?_, by simp [text]⟩
        exact isMaximal_cons_iff.mpr
          ⟨isGap_nil, ⟨by simp, List.forall_mem_cons.mpr ⟨hletter, hword⟩⟩, hb, hrest⟩
      · refine ⟨{ lead := [], words := ([c], lead) :: ws }, ?_, by simp [text]⟩
        exact isMaximal_cons_iff.mpr
          ⟨isGap_nil, ⟨by simp, by simpa using hletter⟩, fun hws hl => hjoin ⟨hws, hl⟩, hp⟩

theorem existsUnique_isMaximal (segment : Text) :
    ∃! p : Parts, p.IsMaximal ∧ p.text = segment := by
  obtain ⟨p, hp, rfl⟩ := exists_isMaximal segment
  exact ⟨p, ⟨hp, rfl⟩, fun q hq => eq_of_text_eq hq.1 hp hq.2⟩

end Parts

/-! ## Words at blanks, and at other characters -/

variable {x y : Text}

/-- **Words come apart at blanks**, however many there are. -/
theorem words_append_gap_append {b : Text} (hne : b ≠ []) (hb : IsGap b) (x y : Text) :
    words (x ++ b ++ y) = words x ++ words y := by
  cases b with
  | nil => exact absurd rfl hne
  | cons c b =>
      rw [List.append_assoc, List.cons_append, words_append_cons (hb c (by simp)),
        words_gap_append fun d hd => hb d (by simp [hd])]

/-- What stands behind a blank begins a word of its own. -/
theorem words_append_of_getLast? (hx : ∀ d ∈ x.getLast?, isBlank d = true) (t : Text) :
    words (x ++ t) = words x ++ words t := by
  rcases List.eq_nil_or_concat x with rfl | ⟨x, d, rfl⟩
  · rfl
  · have hd : isBlank d = true := hx d (by simp)
    rw [List.concat_eq_append, words_append_gap_append (b := [d]) (by simp) (by simpa [IsGap]),
      words_append_gap (by simpa [IsGap])]

/-- A text ends with a run of characters that are no blanks, behind a blank or from its start. -/
theorem exists_run_getLast? (x : Text) : ∃ x' u, x = x' ++ u ∧ (∀ d ∈ u, isBlank d = false) ∧
    ∀ d ∈ x'.getLast?, isBlank d = true := by
  induction x using List.reverseRecOn with
  | nil => exact ⟨[], [], rfl, by simp, by simp⟩
  | append_singleton x d ih =>
      by_cases hd : isBlank d = true
      · exact ⟨x ++ [d], [], by simp, by simp, by simpa using hd⟩
      · obtain ⟨x', u, rfl, hu, hx'⟩ := ih
        refine ⟨x', u ++ [d], by simp, ?_, hx'⟩
        exact List.forall_mem_append.mpr ⟨hu, by simpa using hd⟩

/-- A text begins with a run of characters that are no blanks, up to a blank or to its end. -/
theorem exists_run_head? (y : Text) : ∃ v y', y = v ++ y' ∧ (∀ d ∈ v, isBlank d = false) ∧
    ∀ d ∈ y'.head?, isBlank d = true := by
  induction y with
  | nil => exact ⟨[], [], rfl, by simp, by simp⟩
  | cons d y ih =>
      by_cases hd : isBlank d = true
      · exact ⟨[], d :: y, rfl, by simp, by simpa using hd⟩
      · obtain ⟨v, y', rfl, hv, hy'⟩ := ih
        exact ⟨d :: v, y', rfl, List.forall_mem_cons.mpr ⟨by simpa using hd, hv⟩, hy'⟩

/-- **A character that is no blank stays inside a word**, the one from the blank before it to the
blank behind it. -/
theorem exists_word_of_not_isBlank {c : Char} (hc : isBlank c = false) (x y : Text) :
    ∃ x' u v y', x = x' ++ u ∧ y = v ++ y' ∧ (∀ d ∈ u ++ c :: v, isBlank d = false) ∧
      (∀ d ∈ x'.getLast?, isBlank d = true) ∧ (∀ d ∈ y'.head?, isBlank d = true) ∧
      words (x ++ c :: y) = words x' ++ (u ++ c :: v) :: words y' := by
  obtain ⟨x', u, rfl, hu, hx'⟩ := exists_run_getLast? x
  obtain ⟨v, y', rfl, hv, hy'⟩ := exists_run_head? y
  have hword : ∀ d ∈ u ++ c :: v, isBlank d = false :=
    List.forall_mem_append.mpr ⟨hu, List.forall_mem_cons.mpr ⟨hc, hv⟩⟩
  refine ⟨x', u, v, y', rfl, rfl, hword, hx', hy', ?_⟩
  calc words (x' ++ u ++ c :: (v ++ y'))
      = words (x' ++ ((u ++ c :: v) ++ y')) := by simp
    _ = words x' ++ words ((u ++ c :: v) ++ y') := words_append_of_getLast? hx' _
    _ = words x' ++ (u ++ c :: v) :: words y' := by rw [words_append (by simp) hword hy']

/-- **The words of a segment** are those of the only way to take it apart. Whatever the segment,
there is exactly one way, it has the words of the segment in it, and no other list of words; and a
reader that goes through the segment from the left, with one character of look-ahead, comes to an
end and gives the same. Hence the words on the two sides of any blanks are read as if each side were
alone, and every character but the six blanks stays inside a word, together with all that stands
between it and the next blank on either side. -/
theorem words_decomposition :
    (∀ segment, (∃! p : Parts, p.IsMaximal ∧ p.text = segment) ∧
      ∀ ws, words segment = ws ↔ ∃ p : Parts, p.IsMaximal ∧ p.text = segment ∧ p.list = ws) ∧
    (∀ segment ws, (Lookahead.ofText segment).Yields ws ↔ ws = words segment) ∧
    (∀ x b y, b ≠ [] → IsGap b → words (x ++ b ++ y) = words x ++ words y) ∧
    ∀ x c y, c ∉ [' ', '\t', '\r', '\n', '\x0b', '\x0c'] →
      ∃ x' u v y', x = x' ++ u ∧ y = v ++ y' ∧ (∀ d ∈ u ++ c :: v, isBlank d = false) ∧
        (∀ d ∈ x'.getLast?, isBlank d = true) ∧ (∀ d ∈ y'.head?, isBlank d = true) ∧
        words (x ++ c :: y) = words x' ++ (u ++ c :: v) :: words y' := by
  refine ⟨fun segment => ⟨Parts.existsUnique_isMaximal segment, fun ws => ?_⟩, fun segment ws => ?_,
    fun x b y hne hb => words_append_gap_append hne hb x y, fun x c y hc => ?_⟩
  · constructor
    · rintro rfl
      obtain ⟨p, hp, rfl⟩ := Parts.exists_isMaximal segment
      exact ⟨p, hp, rfl, (Parts.words_text hp).symm⟩
    · rintro ⟨p, hp, rfl, rfl⟩
      exact Parts.words_text hp
  · rw [Lookahead.yields_iff, Lookahead.unread_ofText]
  · exact exists_word_of_not_isBlank (by simpa [isBlank, and_assoc] using hc) x y

/-- Two blanks in a row, and a next line, which is white space and a control character. -/
theorem words_decomposition_nextLine :
    (text "\t\x0b" ≠ [] ∧ IsGap (text "\t\x0b") ∧
      words (text "ls" ++ text "\t\x0b" ++ text "-l") = words (text "ls") ++ words (text "-l")) ∧
    isWhiteSpace '\u0085' = true ∧ '\u0085' ∉ [' ', '\t', '\r', '\n', '\x0b', '\x0c'] ∧
      ∃ w ∈ words (text "a b" ++ '\u0085' :: text "c d"), '\u0085' ∈ w := by
  obtain ⟨-, -, happend, hinside⟩ := words_decomposition
  have hne : text "\t\x0b" ≠ [] := by decide
  have hgap : IsGap (text "\t\x0b") := List.all_eq_true.mp (by decide)
  have hother : '\u0085' ∉ [' ', '\t', '\r', '\n', '\x0b', '\x0c'] := by decide
  refine ⟨⟨hne, hgap, happend _ _ _ hne hgap⟩, by decide, hother, ?_⟩
  obtain ⟨x', u, v, y', -, -, -, -, -, hwords⟩ := hinside (text "a b") '\u0085' (text "c d") hother
  refine ⟨u ++ '\u0085' :: v, ?_, by simp⟩
  rw [hwords]
  simp

end Line

end ParallelShell
