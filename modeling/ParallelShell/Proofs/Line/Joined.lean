import Mathlib.Data.List.Forall2
import ParallelShell.Proofs.Line.Grammar

set_option autoImplicit false

/-! # Lines joined by marks

Lines can be put into one, with a mark between any two of them: `a`, `b` and `c` make up the line
`a & b & c`. If each of them can be read, so can the line they make up, and its commands are theirs
in a row (`commands_joined`). All of it is read off from the grammar: where lines are put together,
their pieces stand side by side, and the blanks around the mark belong to no token.
-/

namespace ParallelShell

namespace Line

def joined (lines : List Text) : Text := [' ', segmentMark, ' '].intercalate lines

namespace Grammar

variable {c : Char}

theorem ne_segmentMark_of_isBlank (hc : isBlank c = true) : segmentMark ≠ c := by
  rintro rfl
  exact absurd hc (by decide)

/-- A blank at the end of a piece is part of no token. -/
theorem tokens_append_blank (hc : isBlank c = true) {p : Text} {ws : List Text}
    (h : Tokens p ws) : Tokens (p ++ [c]) ws := by
  induction h with
  | nil => exact .blank hc .nil
  | blank hd _ ih => exact .blank hd ih
  | operator _ ih => exact .operator ih
  | @word w t ws hne hw ht _ ih =>
      rw [List.append_assoc]
      refine .word hne hw ?_ ih
      cases t with
      | nil => simp [IsLetter, hc]
      | cons d t => exact ht

theorem cut_append {a b : Text} {ps qs : List Text} (ha : Cut a ps) (hb : Cut b qs) :
    Cut (a ++ segmentMark :: b) (ps ++ qs) := by
  induction ha with
  | last hp => exact .more hp hb
  | more hp _ ih =>
      rw [List.append_assoc]
      exact .more hp ih

theorem meaning_append {ps qs : List Text} {cs ds : List Command} (hp : Meaning ps (.ok cs))
    (hq : Meaning qs (.ok ds)) : Meaning (ps ++ qs) (.ok (cs ++ ds)) := by
  induction ps generalizing cs with
  | nil =>
      cases hp
      exact hq
  | cons p ps ih =>
      cases hp with
      | blank ht hp => exact .blank ht (ih hp)
      | command ht hs hp => exact .command ht hs (ih hp)

/-- A piece may be replaced by one that has the same tokens. -/
theorem meaning_cons_of_tokens {p p' : Text} {ps : List Text} {cs : List Command}
    (hp : ∀ ws, Tokens p ws → Tokens p' ws) (h : Meaning (p :: ps) (.ok cs)) :
    Meaning (p' :: ps) (.ok cs) := by
  cases h with
  | blank ht h => exact .blank (hp _ ht) h
  | command ht hs h => exact .command (hp _ ht) hs h

theorem reading_cons_blank (hc : isBlank c = true) {line : Text} {cs : List Command}
    (h : Reading line (.ok cs)) : Reading (c :: line) (.ok cs) := by
  have hmark := ne_segmentMark_of_isBlank hc
  obtain ⟨ps, hps, hm⟩ := h
  cases hps with
  | last hp =>
      refine ⟨[c :: line], .last (by simp [hmark, hp]), ?_⟩
      exact meaning_cons_of_tokens (fun ws => Tokens.blank hc) hm
  | @more p rest ps hp hrest =>
      refine ⟨(c :: p) :: ps, .more (p := c :: p) (by simp [hmark, hp]) hrest, ?_⟩
      exact meaning_cons_of_tokens (fun ws => Tokens.blank hc) hm

theorem reading_append_blank (hc : isBlank c = true) {line : Text} {cs : List Command}
    (h : Reading line (.ok cs)) : Reading (line ++ [c]) (.ok cs) := by
  have hmark := ne_segmentMark_of_isBlank hc
  obtain ⟨ps, hps, hm⟩ := h
  induction hps generalizing cs with
  | @last p hp =>
      refine ⟨[p ++ [c]], .last (by simp [hmark, hp]), ?_⟩
      exact meaning_cons_of_tokens (fun ws => tokens_append_blank hc) hm
  | @more p rest ps hp _ ih =>
      have ahead : ∀ {ds : List Command}, Meaning ps (.ok ds) →
          ∃ qs, Cut (p ++ segmentMark :: rest ++ [c]) (p :: qs) ∧ Meaning qs (.ok ds) := by
        intro ds hds
        obtain ⟨qs, hqs, hmq⟩ := ih hds
        rw [List.append_assoc]
        exact ⟨qs, .more hp hqs, hmq⟩
      cases hm with
      | blank ht hm =>
          obtain ⟨qs, hqs, hmq⟩ := ahead hm
          exact ⟨p :: qs, hqs, .blank ht hmq⟩
      | command ht hs hm =>
          obtain ⟨qs, hqs, hmq⟩ := ahead hm
          exact ⟨p :: qs, hqs, .command ht hs hmq⟩

/-- Two lines that can be read, with a mark and its blanks between them. -/
theorem reading_append {a b : Text} {cs ds : List Command} (ha : Reading a (.ok cs))
    (hb : Reading b (.ok ds)) :
    Reading (a ++ [' ', segmentMark, ' '] ++ b) (.ok (cs ++ ds)) := by
  obtain ⟨ps, hps, hm⟩ := reading_append_blank (c := ' ') (by decide) ha
  obtain ⟨qs, hqs, hmq⟩ := reading_cons_blank (c := ' ') (by decide) hb
  refine ⟨ps ++ qs, ?_, meaning_append hm hmq⟩
  simpa using cut_append hps hqs

end Grammar

/-- **The commands of lines put into one** are the commands of the lines, in a row. -/
theorem commands_joined {lines : List Text} {css : List (List Command)}
    (h : List.Forall₂ (fun line cs => commands line = .ok cs) lines css) :
    commands (joined lines) = .ok css.flatten := by
  induction h with
  | nil => rfl
  | @cons line cs lines css hline hlines ih =>
      cases hlines with
      | nil => simpa [joined] using hline
      | @cons line' cs' lines css hline' hlines =>
          have hfirst := Grammar.reading_commands line
          have hrest := Grammar.reading_commands (joined (line' :: lines))
          rw [hline] at hfirst
          rw [ih] at hrest
          have := Grammar.commands_of_reading (Grammar.reading_append hfirst hrest)
          rwa [joined, List.intercalate_cons_cons]

end Line

end ParallelShell
