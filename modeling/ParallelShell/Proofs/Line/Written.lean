import ParallelShell.Proofs.Line.Grammar

set_option autoImplicit false

/-! # Writing commands out

A line is read as commands; the other way round, commands can be written out as a line. There is a
lot of room in this: between two words stand blanks, as many as one likes but at least one; around
an operator or a mark, and at the two ends, there may be blanks or not; and marks with nothing but
blanks between them may be put in anywhere. `Written cs line` says that a line writes out some
commands in one of these ways.

Not every command can be written out. Its words have to be **plain**, that is, not empty and free
of blanks, marks and operators; and so has its target, which may however also be an operator
(`Command.IsWritable`).

The main statement, `commands_eq_ok_iff_written`, is that a line is read as some commands exactly if
they can be written out and the line does so, and that all commands that can be written out are read
from some line.
-/

namespace ParallelShell

namespace Line

def IsPlain (w : Text) : Prop := w ≠ [] ∧ segmentMark ∉ w ∧ ∀ c ∈ w, Grammar.IsLetter c

def IsGap (b : Text) : Prop := ∀ c ∈ b, isBlank c = true

inductive WordsWritten : List Text → Text → Prop
  | single {w : Text} : WordsWritten [w] w
  | cons {w b t : Text} {ws : List Text} :
      b ≠ [] → IsGap b → WordsWritten ws t → WordsWritten (w :: ws) (w ++ b ++ t)

/-- A command written out: its words, then its target behind an operator. -/
inductive CommandWritten : Command → Text → Prop
  | plain {name a t b : Text} {operands : List Text} :
      IsGap a → WordsWritten (name :: operands) t → IsGap b →
        CommandWritten { name, operands, target := none } (a ++ t ++ b)
  | redirected {name a t b c target d : Text} {operands : List Text} :
      IsGap a → WordsWritten (name :: operands) t → IsGap b → IsGap c → IsGap d →
        CommandWritten { name, operands, target := some target }
          (a ++ t ++ b ++ redirectMark :: (c ++ target ++ d))

/-- **Commands written out**, with marks between them and as many more marks as one likes. -/
inductive Written : List Command → Text → Prop
  | blank {b : Text} : IsGap b → Written [] b
  | last {c : Command} {p : Text} : CommandWritten c p → Written [c] p
  | skip {b line : Text} {cs : List Command} :
      IsGap b → Written cs line → Written cs (b ++ segmentMark :: line)
  | more {c : Command} {p line : Text} {cs : List Command} :
      CommandWritten c p → Written cs line → Written (c :: cs) (p ++ segmentMark :: line)

end Line

/-- **A command that can be written out.** -/
structure Command.IsWritable (c : Command) : Prop where
  words : ∀ w ∈ c.name :: c.operands, Line.IsPlain w
  target : ∀ t ∈ c.target, Line.IsPlain t ∨ t = Line.redirectWord

namespace Line

open Grammar

/-! ## What is written is read -/

theorem isGap_nil : IsGap [] := by
  simp [IsGap]

theorem not_isLetter_of_isBlank {c : Char} (h : isBlank c = true) : ¬ IsLetter c := by
  rintro ⟨hc, -⟩
  simp [h] at hc

theorem segmentMark_not_mem_of_isGap {b : Text} (h : IsGap b) : segmentMark ∉ b := fun hm =>
  absurd (h _ hm) (by decide)

theorem redirectWord_not_mem {ws : List Text} (h : ∀ w ∈ ws, IsPlain w) : redirectWord ∉ ws :=
  fun hm => ((h _ hm).2.2 redirectMark (by simp [redirectWord])).2 rfl

/-- Blanks in front of a piece are part of no token. -/
theorem tokens_gap_append {b t : Text} {ws : List Text} (hb : IsGap b) (h : Tokens t ws) :
    Tokens (b ++ t) ws := by
  induction b with
  | nil => exact h
  | cons c b ih =>
      exact .blank (hb c (by simp)) (ih fun d hd => hb d (by simp [hd]))

theorem tokens_gap {b : Text} (hb : IsGap b) : Tokens b [] := by
  simpa using tokens_gap_append hb .nil

/-- What follows written words goes on where no letter follows. -/
theorem tokens_append_of_wordsWritten {ws vs : List Text} {t rest : Text}
    (hw : WordsWritten ws t) (hplain : ∀ w ∈ ws, IsPlain w)
    (hhead : ∀ c ∈ rest.head?, ¬ IsLetter c) (hrest : Tokens rest vs) :
    Tokens (t ++ rest) (ws ++ vs) := by
  induction hw with
  | @single w =>
      obtain ⟨hne, -, hletters⟩ := hplain w (by simp)
      exact .word hne hletters hhead hrest
  | @cons w b t ws hb hgap _ ih =>
      obtain ⟨hne, -, hletters⟩ := hplain w (by simp)
      have hlater : Tokens (b ++ (t ++ rest)) (ws ++ vs) :=
        tokens_gap_append hgap (ih fun v hv => hplain v (by simp [hv]))
      rw [List.append_assoc, List.append_assoc, List.cons_append]
      refine .word hne hletters ?_ hlater
      cases b with
      | nil => exact absurd rfl hb
      | cons d b =>
          intro c hc
          obtain rfl : d = c := by simpa using hc
          exact not_isLetter_of_isBlank (hgap d (by simp))

/-- A command that is written out has the tokens that make it up. -/
theorem exists_tokens_of_commandWritten {c : Command} {p : Text} (h : CommandWritten c p)
    (hc : c.IsWritable) : ∃ ws, Tokens p ws ∧ Shape ws c := by
  have gapHead : ∀ {b : Text}, IsGap b → ∀ d ∈ b.head?, ¬ IsLetter d := fun hb d hd =>
    not_isLetter_of_isBlank (hb d (List.mem_of_mem_head? hd))
  cases h with
  | @plain name a t b operands ha ht hb =>
      refine ⟨name :: operands, ?_, .plain (redirectWord_not_mem hc.words)⟩
      have hwords := tokens_append_of_wordsWritten ht hc.words (gapHead hb) (tokens_gap hb)
      rw [List.append_assoc]
      simpa using tokens_gap_append ha hwords
  | @redirected name a t b c target d operands ha ht hb hgap hd =>
      refine ⟨_, ?_, .redirected (redirectWord_not_mem hc.words)⟩
      -- the target is a word or an operator; in both cases it is a token in front of blanks
      have htarget : Tokens (target ++ d) [target] := by
        rcases hc.target target (by simp) with ⟨hne, -, hletters⟩ | rfl
        · exact .word hne hletters (gapHead hd) (tokens_gap hd)
        · exact .operator (tokens_gap hd)
      have hlater : Tokens (b ++ redirectMark :: (c ++ target ++ d)) [redirectWord, target] := by
        rw [List.append_assoc c]
        exact tokens_gap_append hb (.operator (tokens_gap_append hgap htarget))
      have hhead : ∀ x ∈ (b ++ redirectMark :: (c ++ target ++ d)).head?, ¬ IsLetter x := by
        cases b with
        | nil => simp [IsLetter]
        | cons x b => exact gapHead (b := x :: b) hb
      have hwords := tokens_append_of_wordsWritten ht hc.words hhead hlater
      rw [List.append_assoc, List.append_assoc]
      exact tokens_gap_append ha hwords

theorem segmentMark_not_mem_of_wordsWritten {ws : List Text} {t : Text} (h : WordsWritten ws t)
    (hplain : ∀ w ∈ ws, IsPlain w) : segmentMark ∉ t := by
  induction h with
  | @single w => exact (hplain w (by simp)).2.1
  | @cons w b t ws _ hb _ ih =>
      have hw := (hplain w (by simp)).2.1
      have ht := ih fun v hv => hplain v (by simp [hv])
      simp [hw, ht, segmentMark_not_mem_of_isGap hb]

theorem segmentMark_not_mem_of_commandWritten {c : Command} {p : Text} (h : CommandWritten c p)
    (hc : c.IsWritable) : segmentMark ∉ p := by
  cases h with
  | plain ha ht hb =>
      have ht' := segmentMark_not_mem_of_wordsWritten ht hc.words
      simp [ht', segmentMark_not_mem_of_isGap ha, segmentMark_not_mem_of_isGap hb]
  | @redirected _ a t b c target d _ ha ht hb hgap hd =>
      have ht' := segmentMark_not_mem_of_wordsWritten ht hc.words
      have htarget : segmentMark ∉ target := by
        rcases hc.target target (by simp) with hp | rfl
        · exact hp.2.1
        · decide
      have hmarks : segmentMark ≠ redirectMark := by decide
      simp [ht', htarget, hmarks, segmentMark_not_mem_of_isGap ha, segmentMark_not_mem_of_isGap hb,
        segmentMark_not_mem_of_isGap hgap, segmentMark_not_mem_of_isGap hd]

/-- **What is written is read.** -/
theorem reading_of_written {cs : List Command} {line : Text} (h : Written cs line)
    (hcs : ∀ c ∈ cs, c.IsWritable) : Reading line (.ok cs) := by
  induction h with
  | blank hb =>
      exact ⟨_, .last (segmentMark_not_mem_of_isGap hb), .blank (tokens_gap hb) .nil⟩
  | @last c p hp =>
      have hc := hcs c (by simp)
      obtain ⟨ws, ht, hs⟩ := exists_tokens_of_commandWritten hp hc
      exact ⟨_, .last (segmentMark_not_mem_of_commandWritten hp hc), .command ht hs .nil⟩
  | skip hb _ ih =>
      obtain ⟨ps, hps, hm⟩ := ih hcs
      exact ⟨_, .more (segmentMark_not_mem_of_isGap hb) hps, .blank (tokens_gap hb) hm⟩
  | @more c p line cs hp _ ih =>
      have hc := hcs c (by simp)
      obtain ⟨ws, ht, hs⟩ := exists_tokens_of_commandWritten hp hc
      obtain ⟨ps, hps, hm⟩ := ih fun d hd => hcs d (by simp [hd])
      exact ⟨_, .more (segmentMark_not_mem_of_commandWritten hp hc) hps, .command ht hs hm⟩

/-! ## What is read is written -/

/-- A piece without tokens is blank. -/
theorem isGap_of_tokens {p : Text} (h : Tokens p []) : IsGap p := by
  generalize hws : ([] : List Text) = ws at h
  induction h with
  | nil => exact isGap_nil
  | blank hc _ ih => exact List.forall_mem_cons.mpr ⟨hc, ih hws⟩
  | operator _ _ => cases hws
  | word _ _ _ _ _ => cases hws

/-- The tokens of a piece are plain words and operators. -/
theorem isPlain_of_mem_tokens {p : Text} {ws : List Text} (h : Tokens p ws)
    (hp : segmentMark ∉ p) : ∀ w ∈ ws, IsPlain w ∨ w = redirectWord := by
  induction h with
  | nil => simp
  | blank _ _ ih => exact ih (by simp_all)
  | operator _ ih =>
      intro w hw
      rcases List.mem_cons.mp hw with rfl | hw
      · exact Or.inr rfl
      · exact ih (by simp_all) w hw
  | @word v t ws hne hletters _ _ ih =>
      rw [List.mem_append, not_or] at hp
      intro w hw
      rcases List.mem_cons.mp hw with rfl | hw
      · exact Or.inl ⟨hne, hp.1, hletters⟩
      · exact ih hp.2 w hw

/-- Written words start with a letter. -/
theorem exists_isLetter_of_wordsWritten {ws : List Text} {t : Text} (h : WordsWritten ws t)
    (hws : ∀ w ∈ ws, IsPlain w) : ∃ c ∈ t.head?, IsLetter c := by
  have start : ∀ {w : Text}, IsPlain w → ∀ u : Text, ∃ c ∈ (w ++ u).head?, IsLetter c := by
    rintro w ⟨hne, -, hletters⟩ u
    cases w with
    | nil => exact absurd rfl hne
    | cons c w => exact ⟨c, rfl, hletters c (by simp)⟩
  cases h with
  | single => simpa using start (hws t (by simp)) []
  | @cons w b t ws _ _ _ =>
      rw [List.append_assoc]
      exact start (hws w (by simp)) (b ++ t)

/-- A piece whose tokens are plain words writes them, with blanks at its ends. -/
theorem exists_wordsWritten_of_tokens {p : Text} {ws : List Text} (h : Tokens p ws)
    (hne : ws ≠ []) (hws : ∀ w ∈ ws, IsPlain w) :
    ∃ a t b, p = a ++ t ++ b ∧ IsGap a ∧ WordsWritten ws t ∧ IsGap b := by
  induction h with
  | nil => exact absurd rfl hne
  | @blank c t ws hc _ ih =>
      obtain ⟨a, u, b, rfl, ha, hu, hb⟩ := ih hne hws
      exact ⟨c :: a, u, b, rfl, List.forall_mem_cons.mpr ⟨hc, ha⟩, hu, hb⟩
  | operator _ _ => exact absurd (List.mem_cons_self) (redirectWord_not_mem hws)
  | @word w t ws hw hletters hhead ht ih =>
      by_cases hlast : ws = []
      · subst hlast
        exact ⟨[], w, t, rfl, isGap_nil, .single, isGap_of_tokens ht⟩
      · have hws' : ∀ v ∈ ws, IsPlain v := fun v hv => hws v (by simp [hv])
        obtain ⟨a, u, b, rfl, ha, hu, hb⟩ := ih hlast hws'
        refine ⟨[], w ++ a ++ u, b, by simp, isGap_nil, .cons ?_ ha hu, hb⟩
        -- without a blank the next word would go on with this one
        rintro rfl
        obtain ⟨c, hc, hletter⟩ := exists_isLetter_of_wordsWritten hu hws'
        refine hhead c ?_ hletter
        cases u with
        | nil => cases hc
        | cons d u => exact hc

/-- A piece is cut at the first operator among its tokens. -/
theorem exists_tokens_of_append {p : Text} {ws vs : List Text}
    (h : Tokens p (ws ++ redirectWord :: vs)) (hws : ∀ w ∈ ws, IsPlain w) :
    ∃ p₁ p₂, p = p₁ ++ redirectMark :: p₂ ∧ Tokens p₁ ws ∧ Tokens p₂ vs := by
  generalize htokens : ws ++ redirectWord :: vs = us at h
  induction h generalizing ws with
  | nil => simp at htokens
  | @blank c t us hc _ ih =>
      obtain ⟨p₁, p₂, rfl, h₁, h₂⟩ := ih hws htokens
      exact ⟨c :: p₁, p₂, rfl, .blank hc h₁, h₂⟩
  | @operator t us ht _ =>
      cases ws with
      | nil =>
          obtain rfl : vs = us := by simpa using htokens
          exact ⟨[], t, rfl, .nil, ht⟩
      | cons w ws =>
          obtain rfl : w = redirectWord := (List.cons.inj htokens).1
          exact absurd (List.mem_cons_self) (redirectWord_not_mem hws)
  | @word w t us hw hletters hhead _ ih =>
      cases ws with
      | nil =>
          obtain rfl : redirectWord = w := (List.cons.inj htokens).1
          exact absurd rfl (hletters redirectMark (by simp [redirectWord])).2
      | cons v ws =>
          obtain ⟨rfl, htail⟩ := List.cons.inj htokens
          obtain ⟨p₁, p₂, rfl, h₁, h₂⟩ := ih (fun x hx => hws x (by simp [hx])) htail
          refine ⟨v ++ p₁, p₂, by simp, .word hw hletters ?_ h₁, h₂⟩
          cases p₁ with
          | nil => simp
          | cons d p₁ => exact hhead

/-- A piece with one token is that token, with blanks at its ends. -/
theorem exists_gaps_of_tokens {p v : Text} (h : Tokens p [v]) :
    ∃ a b, p = a ++ v ++ b ∧ IsGap a ∧ IsGap b := by
  generalize hv : [v] = ws at h
  induction h with
  | nil => cases hv
  | @blank c t ws hc _ ih =>
      obtain ⟨a, b, rfl, ha, hb⟩ := ih hv
      exact ⟨c :: a, b, rfl, List.forall_mem_cons.mpr ⟨hc, ha⟩, hb⟩
  | @operator t ws ht _ =>
      obtain ⟨rfl, rfl⟩ := List.cons.inj hv
      exact ⟨[], t, rfl, isGap_nil, isGap_of_tokens ht⟩
  | @word w t ws _ _ _ ht _ =>
      obtain ⟨rfl, rfl⟩ := List.cons.inj hv
      exact ⟨[], t, rfl, isGap_nil, isGap_of_tokens ht⟩

/-- A piece from which a command is read writes it out. -/
theorem commandWritten_of_tokens {p : Text} {ws : List Text} {c : Command} (ht : Tokens p ws)
    (hs : Shape ws c) (hp : segmentMark ∉ p) : CommandWritten c p ∧ c.IsWritable := by
  have hmem := isPlain_of_mem_tokens ht hp
  cases hs with
  | @plain name operands hop =>
      have hplain : ∀ w ∈ name :: operands, IsPlain w := fun w hw =>
        (hmem w hw).resolve_right fun e => hop (e ▸ hw)
      obtain ⟨a, t, b, rfl, ha, hwritten, hb⟩ :=
        exists_wordsWritten_of_tokens ht (by simp) hplain
      exact ⟨.plain ha hwritten hb, hplain, by simp⟩
  | @redirected name operands target hop =>
      have hplain : ∀ w ∈ name :: operands, IsPlain w := fun w hw =>
        (hmem w (List.mem_append_left _ hw)).resolve_right fun e => hop (e ▸ hw)
      obtain ⟨p₁, p₂, rfl, h₁, h₂⟩ := exists_tokens_of_append ht hplain
      obtain ⟨a, t, b, rfl, ha, hwritten, hb⟩ :=
        exists_wordsWritten_of_tokens h₁ (by simp) hplain
      obtain ⟨e, d, rfl, he, hd⟩ := exists_gaps_of_tokens h₂
      refine ⟨.redirected ha hwritten hb he hd, hplain, ?_⟩
      intro v hv
      obtain rfl : target = v := by simpa using hv
      exact hmem target (by simp)

/-- **What is read is written.** -/
theorem written_of_cut {line : Text} {ps : List Text} {cs : List Command} (hcut : Cut line ps)
    (hm : Meaning ps (.ok cs)) : Written cs line ∧ ∀ c ∈ cs, c.IsWritable := by
  induction hcut generalizing cs with
  | @last p hp =>
      cases hm with
      | blank ht hm =>
          cases hm
          exact ⟨.blank (isGap_of_tokens ht), by simp⟩
      | command ht hs hm =>
          cases hm
          obtain ⟨hw, hc⟩ := commandWritten_of_tokens ht hs hp
          exact ⟨.last hw, by simpa using hc⟩
  | @more p line ps hp _ ih =>
      cases hm with
      | blank ht hm =>
          obtain ⟨hline, hcs⟩ := ih hm
          exact ⟨.skip (isGap_of_tokens ht) hline, hcs⟩
      | command ht hs hm =>
          obtain ⟨hw, hc⟩ := commandWritten_of_tokens ht hs hp
          obtain ⟨hline, hcs⟩ := ih hm
          exact ⟨.more hw hline, by simpa using ⟨hc, hcs⟩⟩

/-- The commands that are read from a line can be written out. -/
theorem isWritable_of_commands {line : Text} {cs : List Command} (h : commands line = .ok cs) :
    ∀ c ∈ cs, c.IsWritable := by
  obtain ⟨ps, hcut, hm⟩ := reading_commands line
  rw [h] at hm
  exact (written_of_cut hcut hm).2

/-! ## Every command can be put on a line -/

theorem exists_wordsWritten (w : Text) (ws : List Text) : ∃ t, WordsWritten (w :: ws) t := by
  induction ws generalizing w with
  | nil => exact ⟨w, .single⟩
  | cons v ws ih =>
      obtain ⟨t, ht⟩ := ih v
      exact ⟨w ++ [' '] ++ t, .cons (by simp) (by simp [IsGap, isBlank]) ht⟩

theorem exists_commandWritten (c : Command) : ∃ p, CommandWritten c p := by
  obtain ⟨name, operands, target⟩ := c
  obtain ⟨t, ht⟩ := exists_wordsWritten name operands
  cases target with
  | none => exact ⟨_, .plain isGap_nil ht isGap_nil⟩
  | some target => exact ⟨_, .redirected isGap_nil ht isGap_nil isGap_nil isGap_nil⟩

theorem exists_written (cs : List Command) : ∃ line, Written cs line := by
  induction cs with
  | nil => exact ⟨[], .blank isGap_nil⟩
  | cons c cs ih =>
      obtain ⟨p, hp⟩ := exists_commandWritten c
      obtain ⟨line, hline⟩ := ih
      exact ⟨p ++ segmentMark :: line, .more hp hline⟩

/-- **Reading and writing are inverse to each other.** A line is read as some commands exactly if
all of them can be written out and the line is one of the ways to do so. And commands are read from
some line exactly if all of them can be written out. -/
theorem commands_eq_ok_iff_written (cs : List Command) :
    (∀ line, commands line = .ok cs ↔ (∀ c ∈ cs, c.IsWritable) ∧ Written cs line) ∧
      ((∃ line, commands line = .ok cs) ↔ ∀ c ∈ cs, c.IsWritable) := by
  have written : ∀ {line}, commands line = .ok cs → Written cs line ∧ ∀ c ∈ cs, c.IsWritable := by
    intro line h
    obtain ⟨ps, hcut, hm⟩ := reading_commands line
    rw [h] at hm
    exact written_of_cut hcut hm
  have read : ∀ {line}, (∀ c ∈ cs, c.IsWritable) → Written cs line → commands line = .ok cs :=
    fun hcs h => commands_of_reading (reading_of_written h hcs)
  refine ⟨fun line => ⟨fun h => (written h).symm, fun h => read h.1 h.2⟩, ?_, ?_⟩
  · rintro ⟨line, h⟩
    exact (written h).2
  · intro hcs
    obtain ⟨line, hline⟩ := exists_written cs
    exact ⟨line, read hcs hline⟩

end Line

end ParallelShell
