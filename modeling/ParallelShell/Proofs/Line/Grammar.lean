import ParallelShell.Proofs.Line.Words

set_option autoImplicit false

/-! # The grammar of a line

`Line.commands` reads a line in steps, and the first of them already changes the line. This file
says what a line means without any of the steps, by a grammar on the line as it was typed:

* the line is cut into pieces at every `&` (`Cut`);
* a piece consists of tokens (`Tokens`): a `>` is a token wherever it stands, blanks stand between
  tokens, and every other run of characters, as long as it goes, is one word;
* tokens are well formed if they have one of two shapes (`Shape`): no operator at all, or words
  without an operator, then the operator, then one more token, whichever it is;
* the pieces mean their commands, in order, or the quote of the leftmost ill-formed one
  (`Meaning`), whatever stands in the pieces after it.

The main statement, `commands_eq_iff_reading`, is that the two agree on every line. In particular
the grammar gives every line a meaning, and only one.
-/

namespace ParallelShell

namespace Line

namespace Grammar

/-- A character that makes up words: neither a blank nor the operator. -/
def IsLetter (c : Char) : Prop := isBlank c = false ∧ c ≠ redirectMark

inductive Cut : Text → List Text → Prop
  | last {p : Text} : segmentMark ∉ p → Cut p [p]
  | more {p line : Text} {ps : List Text} :
      segmentMark ∉ p → Cut line ps → Cut (p ++ segmentMark :: line) (p :: ps)

/-- The tokens of a piece. A word ends only where no letter follows. -/
inductive Tokens : Text → List Text → Prop
  | nil : Tokens [] []
  | blank {c : Char} {t : Text} {ws : List Text} :
      isBlank c = true → Tokens t ws → Tokens (c :: t) ws
  | operator {t : Text} {ws : List Text} :
      Tokens t ws → Tokens (redirectMark :: t) (redirectWord :: ws)
  | word {w t : Text} {ws : List Text} :
      w ≠ [] → (∀ c ∈ w, IsLetter c) → (∀ c ∈ t.head?, ¬ IsLetter c) → Tokens t ws →
        Tokens (w ++ t) (w :: ws)

/-- The command that tokens make up, if they are well formed. -/
inductive Shape : List Text → Command → Prop
  | plain {name : Text} {operands : List Text} :
      redirectWord ∉ name :: operands →
        Shape (name :: operands) { name, operands, target := none }
  | redirected {name : Text} {operands : List Text} {target : Text} :
      redirectWord ∉ name :: operands →
        Shape (name :: operands ++ [redirectWord, target])
          { name, operands, target := some target }

inductive Padded : Text → Text → Prop
  | nil : Padded [] []
  | operator {t u : Text} :
      Padded t u → Padded (redirectMark :: t) (' ' :: redirectMark :: ' ' :: u)
  | other {c : Char} {t u : Text} : c ≠ redirectMark → Padded t u → Padded (c :: t) (c :: u)

def Trimmed (t q : Text) : Prop :=
  ∃ a b : Text, t = a ++ q ++ b ∧ (∀ c ∈ a, isWhiteSpace c = true) ∧
    (∀ c ∈ b, isWhiteSpace c = true) ∧ (∀ c ∈ q.head?, isWhiteSpace c = false) ∧
    (∀ c ∈ q.getLast?, isWhiteSpace c = false)

def Quoted (piece quote : Text) : Prop := ∃ padded, Padded piece padded ∧ Trimmed padded quote

inductive Meaning : List Text → Except Malformed (List Command) → Prop
  | nil : Meaning [] (.ok [])
  | blank {p : Text} {ps : List Text} {r : Except Malformed (List Command)} :
      Tokens p [] → Meaning ps r → Meaning (p :: ps) r
  | command {p : Text} {ws ps : List Text} {c : Command} {cs : List Command} :
      Tokens p ws → Shape ws c → Meaning ps (.ok cs) → Meaning (p :: ps) (.ok (c :: cs))
  | later {p : Text} {ws ps : List Text} {c : Command} {m : Malformed} :
      Tokens p ws → Shape ws c → Meaning ps (.error m) → Meaning (p :: ps) (.error m)
  | malformed {p q : Text} {ws ps : List Text} :
      Tokens p ws → ws ≠ [] → (∀ c, ¬ Shape ws c) → Quoted p q →
        Meaning (p :: ps) (.error { segment := q })

/-- **What a line means.** -/
def Reading (line : Text) (r : Except Malformed (List Command)) : Prop :=
  ∃ pieces, Cut line pieces ∧ Meaning pieces r

/-! ## Pieces -/

theorem exists_cut (line : Text) : ∃ ps, Cut line ps := by
  induction line with
  | nil => exact ⟨[[]], .last (by simp)⟩
  | cons c line ih =>
      obtain ⟨ps, hps⟩ := ih
      by_cases hc : c = segmentMark
      · subst hc
        exact ⟨[] :: ps, .more (p := []) (by simp) hps⟩
      · cases hps with
        | last hp => exact ⟨[c :: line], .last (by simp [Ne.symm hc, hp])⟩
        | @more p t ps hp ht =>
            exact ⟨(c :: p) :: ps, .more (p := c :: p) (by simp [Ne.symm hc, hp]) ht⟩

/-- Spaced out or not, a line is cut at the same places. -/
theorem segments_spaced_of_cut {line : Text} {ps : List Text} (h : Cut line ps) :
    segments (spaced line) = ps.map spaced := by
  induction h with
  | @last p hp =>
      have hp' : segmentMark ∉ spaced p := by rwa [mem_spaced_iff (by decide)]
      rw [segments_of_not_mem hp']
      rfl
  | @more p line ps hp _ ih =>
      have hp' : segmentMark ∉ spaced p := by rwa [mem_spaced_iff (by decide)]
      rw [segments_spaced_append_cons, ih, segments_of_not_mem hp']
      rfl

/-! ## Tokens -/

/-- Every piece has tokens. A letter in front makes the first word longer, if there is a word, and
is a word of its own otherwise. -/
theorem exists_tokens (p : Text) : ∃ ws, Tokens p ws := by
  induction p with
  | nil => exact ⟨[], .nil⟩
  | cons c p ih =>
      obtain ⟨ws, hws⟩ := ih
      by_cases hb : isBlank c = true
      · exact ⟨ws, .blank hb hws⟩
      · by_cases ho : c = redirectMark
        · subst ho
          exact ⟨redirectWord :: ws, .operator hws⟩
        · have hc : IsLetter c := ⟨by simpa using hb, ho⟩
          -- where no word begins behind the letter, the letter is a word
          have alone : (∀ d ∈ p.head?, ¬ IsLetter d) → ∃ ws, Tokens (c :: p) ws := fun hp =>
            ⟨[c] :: ws, .word (w := [c]) (by simp) (by simpa using hc) hp hws⟩
          cases hws with
          | nil => exact alone (by simp)
          | blank hd _ => exact alone (by simp [IsLetter, hd])
          | operator _ => exact alone (by simp [IsLetter])
          | @word w t ws hne hw ht hts =>
              refine ⟨(c :: w) :: ws, .word (w := c :: w) (by simp) ?_ ht hts⟩
              intro d hd
              rcases List.mem_cons.mp hd with rfl | hd
              · exact hc
              · exact hw d hd

/-- Where no letter follows, a blank or nothing follows once the text is spaced out. -/
theorem isBlank_of_mem_head?_spaced {t : Text} (h : ∀ c ∈ t.head?, ¬ IsLetter c) :
    ∀ c ∈ (spaced t).head?, isBlank c = true := by
  cases t with
  | nil => simp
  | cons d t =>
      have hd : ¬ IsLetter d := h d (by simp)
      by_cases ho : d = redirectMark
      · intro c hc
        have : c = ' ' := by simpa [spaced_cons, ho] using hc.symm
        rw [this]
        decide
      · intro c hc
        have : c = d := by simpa [spaced_cons_of_ne ho] using hc.symm
        subst this
        by_contra hb
        exact hd ⟨by simpa using hb, ho⟩

/-- The tokens of a piece are the words of the piece spaced out. -/
theorem words_spaced_of_tokens {p : Text} {ws : List Text} (h : Tokens p ws) :
    words (spaced p) = ws := by
  induction h with
  | nil => rfl
  | @blank c t ws hc _ ih =>
      have hne : c ≠ redirectMark := by
        rintro rfl
        exact absurd hc (by decide)
      rw [spaced_cons_of_ne hne, words_cons_of_isBlank hc, ih]
  | operator _ ih => rw [words_spaced_cons_redirectMark, ih]
  | @word w t ws hne hw ht _ ih =>
      have hm : redirectMark ∉ w := fun hm => (hw _ hm).2 rfl
      rw [spaced_append, spaced_of_not_mem hm,
        words_append hne (fun c hc => (hw c hc).1) (isBlank_of_mem_head?_spaced ht), ih]

theorem tokens_words_spaced (p : Text) : Tokens p (words (spaced p)) := by
  obtain ⟨ws, hws⟩ := exists_tokens p
  rwa [words_spaced_of_tokens hws]

/-! ## Shapes -/

/-- Tokens are well formed exactly when the redirection can be taken out of them, and then they
make up the same command. -/
theorem shape_iff_ofWords? {ws : List Text} (c : Command) :
    Shape ws c ↔ ∃ r, Redirected.ofWords? ws = some r ∧ r.command? = some c := by
  constructor
  · intro h
    cases h with
    | plain hm => exact ⟨_, ofWords?_of_not_mem hm, rfl⟩
    | redirected hm => exact ⟨_, ofWords?_append (by simp) hm _, rfl⟩
  · rintro ⟨⟨words, target⟩, hr, hc⟩
    cases words with
    | nil => exact absurd hc (by simp [Redirected.command?])
    | cons name operands =>
        obtain rfl : _ = c := Option.some.inj hc
        rcases (ofWords?_eq_some_iff _ _).mp hr with ⟨hm, heq⟩ | ⟨t, hws, -, hm, ht⟩
        · injection heq with hw ht
          subst hw ht
          exact .plain hm
        · simp only at hws hm ht
          subst hws ht
          exact .redirected hm

theorem ne_nil_of_shape {ws : List Text} {c : Command} (h : Shape ws c) : ws ≠ [] := by
  cases h <;> simp

/-- Words from which the redirection can be taken out make up a command. -/
theorem exists_shape {ws : List Text} {r : Redirected} (hne : ws ≠ [])
    (h : Redirected.ofWords? ws = some r) : ∃ c, r.command? = some c := by
  obtain ⟨words, target⟩ := r
  have hw : words ≠ [] := by
    rcases (ofWords?_eq_some_iff _ _).mp h with ⟨-, heq⟩ | ⟨t, -, hne', -, -⟩
    · injection heq with hws _
      rwa [hws]
    · exact hne'
  cases words with
  | nil => exact absurd rfl hw
  | cons name operands => exact ⟨_, rfl⟩

/-! ## Quotes -/

theorem padded_iff_spaced {t u : Text} : Padded t u ↔ spaced t = u := by
  constructor
  · intro h
    induction h with
    | nil => rfl
    | operator _ ih => simp [spaced_cons, ih]
    | other hc _ ih => rw [spaced_cons_of_ne hc, ih]
  · rintro rfl
    induction t with
    | nil => exact .nil
    | cons c t ih =>
        by_cases hc : c = redirectMark
        · subst hc
          exact .operator ih
        · rw [spaced_cons_of_ne hc]
          exact .other hc ih

theorem dropWhile_isWhiteSpace {a t : Text} (ha : ∀ c ∈ a, isWhiteSpace c = true)
    (ht : ∀ c ∈ t.head?, isWhiteSpace c = false) : (a ++ t).dropWhile isWhiteSpace = t := by
  rw [List.dropWhile_append_of_pos ha]
  cases t with
  | nil => rfl
  | cons c t => simp [ht c (by simp)]

theorem trim_of_trimmed {t q : Text} (h : Trimmed t q) : Text.trim t = q := by
  obtain ⟨a, b, rfl, ha, hb, hq, hq'⟩ := h
  -- if nothing is left, the two ends cannot be told apart
  have hfront : (q ++ b).dropWhile isWhiteSpace = q ++ b ∨ q = [] := by
    cases q with
    | nil => exact Or.inr rfl
    | cons c q => exact Or.inl (dropWhile_isWhiteSpace (a := []) (by simp) (by simpa using hq))
  have hend : (b.reverse ++ q.reverse).dropWhile isWhiteSpace = q.reverse :=
    dropWhile_isWhiteSpace (by simpa using hb) (by simpa [List.head?_reverse] using hq')
  simp only [Text.trim, Text.trimStart, Text.trimEnd]
  rw [List.append_assoc, List.dropWhile_append_of_pos ha]
  rcases hfront with hf | rfl
  · rw [hf, List.reverse_append, hend, List.reverse_reverse]
  · have hall : (([] : Text) ++ b).dropWhile isWhiteSpace = [] :=
      List.dropWhile_eq_nil_iff.mpr (by simpa using hb)
    rw [List.nil_append] at hall
    simp only [List.nil_append, hall, List.reverse_nil, List.dropWhile_nil]

/-- Trimming cuts off all the white space at the ends and nothing else. -/
theorem trimmed_trim (t : Text) : Trimmed t (Text.trim t) := by
  set u := t.dropWhile isWhiteSpace with hu
  have ht : t = t.takeWhile isWhiteSpace ++ u := List.takeWhile_append_dropWhile.symm
  have hv : u = Text.trim t ++ (u.reverse.takeWhile isWhiteSpace).reverse := by
    rw [Text.trim, Text.trimEnd, Text.trimStart, ← hu, ← List.reverse_append,
      List.takeWhile_append_dropWhile, List.reverse_reverse]
  refine ⟨t.takeWhile isWhiteSpace, (u.reverse.takeWhile isWhiteSpace).reverse, ?_,
    fun c hc => List.mem_takeWhile_imp hc,
    fun c hc => List.mem_takeWhile_imp (List.mem_reverse.mp hc), ?_, ?_⟩
  · rw [List.append_assoc, ← hv, ← ht]
  · -- the first character of what is left is also the first of `u`
    intro c hc
    have hcu : c ∈ u.head? := by
      rw [hv]
      cases hq : Text.trim t with
      | nil => simp [hq] at hc
      | cons d q => simpa [hq] using hc
    exact eq_false_of_mem_head?_dropWhile c (hu ▸ hcu)
  · intro c hc
    rw [Text.trim, Text.trimEnd, List.getLast?_reverse] at hc
    exact eq_false_of_mem_head?_dropWhile c hc

theorem quoted_iff {p q : Text} : Quoted p q ↔ Text.trim (spaced p) = q := by
  constructor
  · rintro ⟨u, hu, hq⟩
    rw [padded_iff_spaced.mp hu, trim_of_trimmed hq]
  · rintro rfl
    exact ⟨spaced p, padded_iff_spaced.mpr rfl, trimmed_trim _⟩

/-! ## Lines -/

/-- **What a piece means**: nothing, a command, or that it is ill formed. -/
theorem command?_spaced (p : Text) :
    (Tokens p [] ∧ command? (spaced p) = .ok none) ∨
      (∃ ws c, Tokens p ws ∧ Shape ws c ∧ command? (spaced p) = .ok (some c)) ∨
      (∃ ws q, Tokens p ws ∧ ws ≠ [] ∧ (∀ c, ¬ Shape ws c) ∧ Quoted p q ∧
        command? (spaced p) = .error { segment := q }) := by
  have htokens := tokens_words_spaced p
  unfold command?
  split
  · rename_i hws
    exact Or.inl ⟨hws ▸ htokens, rfl⟩
  · rename_i hne
    split
    · rename_i hr
      refine Or.inr (Or.inr ⟨_, _, htokens, hne, ?_, quoted_iff.mpr rfl, rfl⟩)
      intro c hc
      obtain ⟨r, hr', -⟩ := (shape_iff_ofWords? c).mp hc
      simp [hr] at hr'
    · rename_i r hr
      obtain ⟨c, hc⟩ := exists_shape hne hr
      exact Or.inr (Or.inl ⟨_, c, htokens, (shape_iff_ofWords? c).mpr ⟨r, hr, hc⟩, by rw [hc]⟩)

/-- What pieces mean is what is collected from them, spaced out. -/
theorem meaning_collect (ps : List Text) : Meaning ps (collect (ps.map spaced)) := by
  induction ps with
  | nil => exact .nil
  | cons p ps ih =>
      rw [List.map_cons, collect]
      -- whatever the first piece is, what becomes of the line is settled by the pieces after it,
      -- unless the first is malformed
      rcases command?_spaced p with ⟨ht, hc⟩ | ⟨ws, c, ht, hs, hc⟩ | ⟨ws, q, ht, hne, hs, hq, hc⟩
      · rw [hc]
        cases hrest : collect (ps.map spaced) with
        | error m => exact .blank ht (by rwa [hrest] at ih)
        | ok cs => exact .blank ht (by rwa [hrest] at ih)
      · rw [hc]
        cases hrest : collect (ps.map spaced) with
        | error m => exact .later ht hs (by rwa [hrest] at ih)
        | ok cs => exact .command ht hs (by rwa [hrest] at ih)
      · rw [hc]
        exact .malformed ht hne hs hq

theorem shape_unique {ws : List Text} {c d : Command} (hc : Shape ws c) (hd : Shape ws d) :
    c = d := by
  obtain ⟨r, hr, hrc⟩ := (shape_iff_ofWords? c).mp hc
  obtain ⟨r', hr', hrd⟩ := (shape_iff_ofWords? d).mp hd
  rw [hr] at hr'
  obtain rfl := Option.some.inj hr'
  rw [hrc] at hrd
  exact Option.some.inj hrd

theorem tokens_unique {p : Text} {ws vs : List Text} (hw : Tokens p ws) (hv : Tokens p vs) :
    ws = vs := by
  rw [← words_spaced_of_tokens hw, words_spaced_of_tokens hv]

theorem meaning_unique {ps : List Text} {r r' : Except Malformed (List Command)}
    (h : Meaning ps r) (h' : Meaning ps r') : r = r' := by
  -- the first piece has its tokens and its shape only once, so the two derivations go the same way
  induction h generalizing r' with
  | nil =>
      cases h'
      rfl
  | blank ht _ ih =>
      cases h' with
      | blank _ h' => exact ih h'
      | command ht' hs' _ => exact absurd (tokens_unique ht' ht) (ne_nil_of_shape hs')
      | later ht' hs' _ => exact absurd (tokens_unique ht' ht) (ne_nil_of_shape hs')
      | malformed ht' hne _ _ => exact absurd (tokens_unique ht' ht) hne
  | command ht hs _ ih =>
      cases h' with
      | blank ht' _ => exact absurd (tokens_unique ht ht') (ne_nil_of_shape hs)
      | command ht' hs' h' =>
          obtain rfl := tokens_unique ht ht'
          rw [shape_unique hs hs', Except.ok.inj (ih h')]
      | later _ _ h' => cases ih h'
      | malformed ht' _ hs' _ => exact absurd (tokens_unique ht ht' ▸ hs) (hs' _)
  | later ht hs _ ih =>
      cases h' with
      | blank ht' _ => exact absurd (tokens_unique ht ht') (ne_nil_of_shape hs)
      | command _ _ h' => cases ih h'
      | later _ _ h' => exact ih h'
      | malformed ht' _ hs' _ => exact absurd (tokens_unique ht ht' ▸ hs) (hs' _)
  | malformed ht hne hs hq =>
      cases h' with
      | blank ht' _ => exact absurd (tokens_unique ht ht') hne
      | command ht' hs' _ => exact absurd (tokens_unique ht' ht ▸ hs') (hs _)
      | later ht' hs' _ => exact absurd (tokens_unique ht' ht ▸ hs') (hs _)
      | malformed _ _ _ hq' => rw [← quoted_iff.mp hq, quoted_iff.mp hq']

/-- The grammar gives a line its commands, or the malformed segment that rejects it. -/
theorem reading_commands (line : Text) : Reading line (commands line) := by
  obtain ⟨ps, hps⟩ := exists_cut line
  refine ⟨ps, hps, ?_⟩
  rw [commands, segments_spaced_of_cut hps]
  exact meaning_collect ps

/-- The grammar gives a line nothing else. -/
theorem commands_of_reading {line : Text} {r : Except Malformed (List Command)}
    (h : Reading line r) : commands line = r := by
  obtain ⟨ps, hps, hm⟩ := h
  rw [commands, segments_spaced_of_cut hps]
  exact meaning_unique (meaning_collect ps) hm

/-- **A line is read as the grammar says.** Whatever the line, its commands, or the malformed
segment that rejects it, are what the grammar gives for the line as it was typed, and the grammar
gives nothing else. -/
theorem commands_eq_iff_reading (line : Text) (r : Except Malformed (List Command)) :
    commands line = r ↔ Reading line r := by
  constructor
  · rintro rfl
    exact reading_commands line
  · exact commands_of_reading

example : commands (text "a b>c&&> >d & e") = .error { segment := text ">   > d" } := by decide

end Grammar

end Line

end ParallelShell
