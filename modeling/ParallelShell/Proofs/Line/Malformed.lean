import Mathlib.Data.List.Basic
import ParallelShell.Proofs.Line.Grammar

set_option autoImplicit false

/-! # Lines that are rejected

Whether a line is rejected can be seen on the line as it was typed, piece by piece: a piece is **ill
formed** if it has an operator, and before the first one there is no word, or behind it not exactly
one token (`IllFormed`). Everything else in the line is of no importance, before that piece or
after it.

This is said without shapes, and `illFormed_iff` says that it comes to the same: a piece is ill
formed if it has tokens, and they make up no command. So a line is rejected exactly if one of its
pieces is ill formed (`commands_eq_error_iff`).
-/

namespace ParallelShell

namespace Line

namespace Grammar

variable {p before after line : Text} {ws vs ps : List Text}

/-- **An ill-formed piece**: the first operator does not have a word before it and exactly one token
behind it. -/
def IllFormed (p : Text) : Prop :=
  ∃ before after, p = before ++ redirectMark :: after ∧ redirectMark ∉ before ∧
    (Tokens before [] ∨ ∀ w, ¬ Tokens after [w])

def HasIllFormed (line : Text) : Prop := ∃ ps, Cut line ps ∧ ∃ p ∈ ps, IllFormed p

/-! ## Pieces -/

/-- **Tokens come apart at an operator.** -/
theorem words_spaced_append_cons (before after : Text) :
    words (spaced (before ++ redirectMark :: after)) =
      words (spaced before) ++ redirectWord :: words (spaced after) := by
  have hop : spaced (redirectMark :: after) = ' ' :: redirectMark :: ' ' :: spaced after := by
    simp [spaced_cons]
  calc words (spaced (before ++ redirectMark :: after))
      = words (spaced before ++ ' ' :: redirectMark :: ' ' :: spaced after) := by
        rw [spaced_append, hop]
    _ = words (spaced before) ++ words (redirectMark :: ' ' :: spaced after) :=
        words_append_cons (by decide) _ _
    _ = words (spaced before) ++ words (spaced (redirectMark :: after)) := by
        rw [hop, words_cons_of_isBlank (c := ' ') (by decide)]
    _ = words (spaced before) ++ redirectWord :: words (spaced after) := by
        rw [words_spaced_cons_redirectMark]

theorem tokens_append_operator (hbefore : Tokens before ws) (hafter : Tokens after vs) :
    Tokens (before ++ redirectMark :: after) (ws ++ redirectWord :: vs) := by
  have htokens := tokens_words_spaced (before ++ redirectMark :: after)
  rwa [words_spaced_append_cons, words_spaced_of_tokens hbefore,
    words_spaced_of_tokens hafter] at htokens

/-- Where no operator was typed, there is none among the tokens. -/
theorem redirectWord_not_mem_of_tokens (h : Tokens p ws) (hp : redirectMark ∉ p) :
    redirectWord ∉ ws := by
  induction h with
  | nil => simp
  | blank _ _ ih => exact ih fun hm => hp (List.mem_cons_of_mem _ hm)
  | operator _ _ => exact absurd List.mem_cons_self hp
  | @word w t ws _ hw _ _ ih =>
      rw [List.mem_append, not_or] at hp
      intro hm
      rcases List.mem_cons.mp hm with rfl | hm
      · exact hp.1 (by simp [redirectWord])
      · exact ih hp.2 hm

/-- Tokens have only one first operator. -/
theorem eq_of_append_redirectWord {us : List Text}
    (h : ws ++ redirectWord :: us = vs ++ redirectWord :: ps) (hws : redirectWord ∉ ws)
    (hvs : redirectWord ∉ vs) : ws = vs ∧ us = ps := by
  induction ws generalizing vs with
  | nil =>
      cases vs with
      | nil => exact ⟨rfl, (List.cons.inj h).2⟩
      | cons v vs => exact absurd ((List.cons.inj h).1 ▸ List.mem_cons_self) hvs
  | cons w ws ih =>
      cases vs with
      | nil => exact absurd ((List.cons.inj h).1 ▸ List.mem_cons_self) hws
      | cons v vs =>
          rw [List.mem_cons, not_or] at hws hvs
          obtain ⟨rfl, htail⟩ := List.cons.inj h
          obtain ⟨rfl, rfl⟩ := ih htail hws.2 hvs.2
          exact ⟨rfl, rfl⟩

/-- **A piece is ill formed** if it has tokens, and they make up no command. -/
theorem illFormed_iff (h : Tokens p ws) : IllFormed p ↔ ws ≠ [] ∧ ∀ c, ¬ Shape ws c := by
  constructor
  · rintro ⟨before, after, rfl, hfirst, hbad⟩
    obtain ⟨vs, hvs⟩ := exists_tokens before
    obtain ⟨us, hus⟩ := exists_tokens after
    obtain rfl := tokens_unique h (tokens_append_operator hvs hus)
    refine ⟨by simp, fun c hc => ?_⟩
    have hnone := redirectWord_not_mem_of_tokens hvs hfirst
    -- the operator of the shape is the first one among the tokens, so both cut at the same place
    generalize htokens : vs ++ redirectWord :: us = tokens at hc
    cases hc with
    | plain hop => exact hop (htokens ▸ by simp)
    | @redirected name operands target hop =>
        obtain ⟨rfl, rfl⟩ := eq_of_append_redirectWord htokens hnone hop
        rcases hbad with hblank | hafter
        · exact absurd (tokens_unique hvs hblank) (by simp)
        · exact hafter target hus
  · rintro ⟨hne, hshape⟩
    have hmark : redirectMark ∈ p := by
      by_contra hm
      have hop := redirectWord_not_mem_of_tokens h hm
      cases ws with
      | nil => exact hne rfl
      | cons name operands => exact hshape _ (.plain hop)
    obtain ⟨before, after, rfl, hfirst⟩ := List.eq_append_cons_of_mem hmark
    refine ⟨before, after, rfl, hfirst, ?_⟩
    by_contra hgood
    rw [not_or, not_forall] at hgood
    obtain ⟨hwords, target, htarget⟩ := hgood
    have hafter : Tokens after [target] := not_not.mp htarget
    obtain ⟨vs, hvs⟩ := exists_tokens before
    obtain rfl := tokens_unique h (tokens_append_operator hvs hafter)
    have hop := redirectWord_not_mem_of_tokens hvs hfirst
    cases vs with
    | nil => exact hwords hvs
    | cons name operands => exact hshape _ (.redirected hop)

/-! ## Lines -/

/-- What pieces mean is an error exactly if one of them is ill formed, wherever it stands. -/
theorem eq_error_iff_of_meaning {r : Except Malformed (List Command)} (h : Meaning ps r) :
    (∃ m, r = .error m) ↔ ∃ p ∈ ps, IllFormed p := by
  induction h with
  | nil => simp
  | blank ht _ ih =>
      rw [List.exists_mem_cons_iff, illFormed_iff ht, ih]
      simp
  | command ht hs _ ih =>
      have hgood : ¬ IllFormed _ := fun hbad => ((illFormed_iff ht).mp hbad).2 _ hs
      simp only [List.exists_mem_cons_iff, hgood, false_or, ← ih]
      simp
  | later ht hs _ ih =>
      have hgood : ¬ IllFormed _ := fun hbad => ((illFormed_iff ht).mp hbad).2 _ hs
      simp only [List.exists_mem_cons_iff, hgood, false_or, ← ih]
  | malformed ht hne hs _ =>
      rw [List.exists_mem_cons_iff, illFormed_iff ht]
      simp [hne, hs]

/-- The pieces of a line mean its commands, whichever way they were found. -/
theorem meaning_of_cut (h : Cut line ps) : Meaning ps (commands line) := by
  rw [commands, segments_spaced_of_cut h]
  exact meaning_collect ps

/-- **A line is rejected** exactly if one of its pieces is ill formed. -/
theorem commands_eq_error_iff (line : Text) :
    (∃ m, commands line = .error m) ↔ HasIllFormed line := by
  constructor
  · intro h
    obtain ⟨ps, hps⟩ := exists_cut line
    exact ⟨ps, hps, (eq_error_iff_of_meaning (meaning_of_cut hps)).mp h⟩
  · rintro ⟨ps, hps, hbad⟩
    exact (eq_error_iff_of_meaning (meaning_of_cut hps)).mpr hbad

end Grammar

end Line

end ParallelShell
