import ParallelShell.Completion
import ParallelShell.Proofs.Text.Order

set_option autoImplicit false

/-! # What is offered

A completer offers names in increasing order and each once, so the order in which its names were
collected, and how often each was, leaves no trace: two completers that know the same names offer
the same (`Completer.complete_congr`). What is offered for a typed word are exactly the known names
that continue it (`Completer.mem_offers`), and each comes with what continues it, and a space
(`Completer.candidate?_eq_some_iff`).
-/

namespace ParallelShell

namespace Completer

/-- A name is a candidate if it is the typed word and something more. -/
theorem candidate?_eq_some_iff (word name : Text) (x : Candidate) :
    candidate? word name = some x ↔
      ∃ rest, rest ≠ [] ∧ name = word ++ rest ∧
        x = { display := name, replacement := rest ++ [' '] } := by
  have ha := Text.after?_eq_some_iff word name
  constructor
  · intro h
    unfold candidate? at h
    split at h
    · rename_i c rest hr
      injection h with h
      exact ⟨c :: rest, List.cons_ne_nil _ _, (ha _).mp hr, h.symm⟩
    · cases h
  · rintro ⟨rest, hne, hname, rfl⟩
    obtain ⟨c, rest, rfl⟩ := List.exists_cons_of_ne_nil hne
    rw [candidate?, (ha _).mpr hname]

/-- **What is offered are the names that continue the typed word.** -/
theorem mem_offers (names : List Text) (word : Text) (x : Candidate) :
    x ∈ offers names word ↔ ∃ name ∈ names, candidate? word name = some x := by
  simp only [offers, List.mem_filterMap, Text.sorted, List.mem_mergeSort, List.mem_eraseDups]

theorem candidates_complete (c : Completer) (line : Text) (cursor : Nat) :
    (c.complete line cursor).candidates = c.candidates (Text.upTo cursor line) := rfl

/-- What is offered is a name that continues a typed word without white space. -/
theorem mem_candidates (c : Completer) (before : Text) (x : Candidate) :
    x ∈ c.candidates before ↔
      typedWord before ≠ [] ∧ (typedWord before).any isWhiteSpace = false ∧
        ∃ name ∈ c.names, candidate? (typedWord before) name = some x := by
  unfold candidates
  by_cases hw : typedWord before = []
  · simp [hw]
  · by_cases hs : (typedWord before).any isWhiteSpace = true
    · simp [hs]
    · simp only [List.isEmpty_iff, hw, hs, Bool.or_eq_true, Bool.false_eq_true, or_self,
        if_false, mem_offers, ne_eq, not_false_eq_true, true_and]

/-- **What is offered depends on which names are known, and on nothing else.** -/
theorem complete_congr {c d : Completer} (h : ∀ name, name ∈ c.names ↔ name ∈ d.names)
    (line : Text) (cursor : Nat) : c.complete line cursor = d.complete line cursor := by
  have ho : ∀ word, offers c.names word = offers d.names word := by
    intro word
    rw [offers, offers, Text.sorted_eraseDups_congr h]
  simp only [complete, candidates, ho]

end Completer

end ParallelShell
