import Mathlib.Data.Nat.PSub
import ParallelShell.Proofs.Line.Words

set_option autoImplicit false

/-! # Redirections by position

`Redirected.ofWords?` cuts words in two at the first operator. The redirection can as well be taken
out by counting: look up the position of the first operator, see from it and from the number of
words whether one word stands before it and exactly one behind it, then take the last word off as
the target and cut the rest at the position.

The number of words behind a position is a difference, and a difference of natural numbers may go
below zero. So `counted` subtracts with `Nat.psub`, which gives nothing then; that it never does,
and that counting comes to the same as cutting, is `counted_eq`. The main statement,
`ofWords?_outcomes`, says for all words what becomes of them: there are three outcomes, each has its
shape, and every list of words has exactly one of the shapes.
-/

namespace ParallelShell

namespace Line

variable {ws before after : List Text}

/-! ## Shapes of words -/

/-- Words with a target: some words without an operator, the operator, and one word more. -/
def Redirects (ws before : List Text) (target : Text) : Prop :=
  ws = before ++ [redirectWord, target] ∧ before ≠ [] ∧ redirectWord ∉ before

/-- Words whose first operator has no word before it, or not exactly one behind it. -/
def Misplaced (ws : List Text) : Prop :=
  ∃ before after, ws = before ++ redirectWord :: after ∧ redirectWord ∉ before ∧
    (before = [] ∨ after.length ≠ 1)

theorem ofWords?_eq_plain_iff (args : List Text) :
    Redirected.ofWords? ws = some { words := args, target := none } ↔
      redirectWord ∉ ws ∧ args = ws := by
  rw [ofWords?_eq_some_iff]
  simp

theorem ofWords?_eq_redirected_iff (target : Text) :
    Redirected.ofWords? ws = some { words := before, target := some target } ↔
      Redirects ws before target := by
  rw [ofWords?_eq_some_iff]
  constructor
  · rintro (⟨-, heq⟩ | ⟨t, hws, hne, hfirst, ht⟩)
    · cases heq
    · obtain rfl := Option.some.inj ht
      exact ⟨hws, hne, hfirst⟩
  · rintro ⟨hws, hne, hfirst⟩
    exact .inr ⟨target, hws, hne, hfirst, rfl⟩

/-- **No meaning** is left to words exactly if their first operator is misplaced. -/
theorem ofWords?_eq_none_iff : Redirected.ofWords? ws = none ↔ Misplaced ws := by
  constructor
  · intro h
    have hmem : redirectWord ∈ ws := by
      by_contra hm
      rw [ofWords?_of_not_mem hm] at h
      cases h
    obtain ⟨before, after, rfl, hfirst⟩ := List.eq_append_cons_of_mem hmem
    refine ⟨before, after, rfl, hfirst, ?_⟩
    by_contra hgood
    rw [not_or, not_not, List.length_eq_one_iff] at hgood
    obtain ⟨hne, target, rfl⟩ := hgood
    rw [ofWords?_append hne hfirst] at h
    cases h
  · rintro ⟨before, after, rfl, hfirst, hbad⟩
    rw [ofWords?_append_cons hfirst]
    split
    · have hnil : before = [] := hbad.resolve_right (by simp)
      simp [hnil]
    · rfl

theorem ofWords?_cases (ws : List Text) :
    redirectWord ∉ ws ∨ (∃ before target, Redirects ws before target) ∨ Misplaced ws := by
  cases h : Redirected.ofWords? ws with
  | none => exact .inr (.inr (ofWords?_eq_none_iff.mp h))
  | some r =>
      obtain ⟨words, target⟩ := r
      cases target with
      | none => exact .inl ((ofWords?_eq_plain_iff words).mp h).1
      | some target => exact .inr (.inl ⟨words, target, (ofWords?_eq_redirected_iff target).mp h⟩)

/-! ## Counting -/

/-- How many words stand behind a position; nothing if a difference goes below zero. -/
def behind? (ws : List Text) (position : Nat) : Option Nat := do
  let rest ← ws.length.psub position
  rest.psub 1

/-- The redirection taken out by counting. Without an outer value some difference was below zero;
without an inner one the redirection is malformed. -/
def counted (ws : List Text) : Option (Option Redirected) :=
  match ws.idxOf? redirectWord with
  | none => some (some { words := ws, target := none })
  | some position =>
    if position = 0 ∨ ws.length < 3 then some none
    else do
      let behind ← behind? ws position
      if behind ≠ 1 then return none
      return ws.getLast?.map fun target =>
        { words := ws.dropLast.take position, target := some target }

theorem idxOf?_append_cons (h : redirectWord ∉ before) (after : List Text) :
    (before ++ redirectWord :: after).idxOf? redirectWord = some before.length := by
  induction before with
  | nil => simp [List.idxOf?_cons]
  | cons w before ih =>
      rw [List.mem_cons, not_or] at h
      simp [List.idxOf?_cons, ih h.2, Ne.symm h.1]

/-- Behind the first operator stands what comes after it. -/
theorem behind?_append_cons (before after : List Text) (w : Text) :
    behind? (before ++ w :: after) before.length = some after.length := by
  have hrest : (before ++ w :: after).length.psub before.length = some (after.length + 1) := by
    rw [Nat.psub_eq_some, List.length_append, List.length_cons, Nat.add_comm]
  have hone : (after.length + 1).psub 1 = some after.length := Nat.psub_eq_some.mpr rfl
  rw [behind?, hrest]
  exact hone

/-- **Nothing goes below zero**: an operator stands at its position, and the words behind it are
those that are left. -/
theorem behind?_of_idxOf? {position : Nat} (h : ws.idxOf? redirectWord = some position) :
    ∃ behind, behind? ws position = some behind ∧ position + 1 + behind = ws.length := by
  have hmem : redirectWord ∈ ws := by
    by_contra hm
    rw [List.idxOf?_eq_none_iff.mpr hm] at h
    cases h
  obtain ⟨before, after, rfl, hfirst⟩ := List.eq_append_cons_of_mem hmem
  rw [idxOf?_append_cons hfirst] at h
  obtain rfl := Option.some.inj h
  refine ⟨after.length, behind?_append_cons before after redirectWord, ?_⟩
  rw [List.length_append, List.length_cons]
  omega

/-- Taking the last word off, and then cutting at the operator, leaves what is before it. -/
theorem take_dropLast (before : List Text) (w target : Text) :
    (before ++ [w, target]).dropLast.take before.length = before := by
  rw [List.dropLast_append_of_ne_nil (by simp)]
  simp

/-- **Counting comes to the same as cutting**, and no difference goes below zero on the way. -/
theorem counted_eq (ws : List Text) : counted ws = some (Redirected.ofWords? ws) := by
  by_cases hmem : redirectWord ∈ ws
  · obtain ⟨before, after, rfl, hfirst⟩ := List.eq_append_cons_of_mem hmem
    simp only [counted, idxOf?_append_cons hfirst, behind?_append_cons]
    rw [ofWords?_append_cons hfirst]
    cases before with
    | nil => rcases after with _ | ⟨target, _ | ⟨w, rest⟩⟩ <;> rfl
    | cons name operands =>
        rcases after with _ | ⟨target, _ | ⟨w, rest⟩⟩
        · simp
        · -- a word before the operator and one behind it make three, so the length decides nothing
          have hlong : ¬ ((name :: operands).length = 0 ∨
              (name :: operands ++ [redirectWord, target]).length < 3) := by simp
          have hlast : (name :: operands ++ [redirectWord, target]).getLast? = some target := by
            rw [List.getLast?_append]
            rfl
          rw [if_neg hlong, hlast, take_dropLast]
          rfl
        · simp
  · rw [counted, List.idxOf?_eq_none_iff.mpr hmem, ofWords?_of_not_mem hmem]

/-! ## Outcomes -/

theorem mem_of_redirects {target : Text} (h : Redirects ws before target) :
    redirectWord ∈ ws := by
  simp [h.1]

theorem mem_of_misplaced (h : Misplaced ws) : redirectWord ∈ ws := by
  obtain ⟨before, after, rfl, -⟩ := h
  simp

/-- Both shapes have an operator, but cutting at the first one gives them different outcomes. -/
theorem not_misplaced_of_redirects {target : Text} (h : Redirects ws before target) :
    ¬ Misplaced ws := by
  rw [← ofWords?_eq_none_iff, (ofWords?_eq_redirected_iff target).mpr h]
  simp

/-- **What becomes of words**, whatever they are and wherever operators stand among them. They are
kept as they are exactly if none of them is an operator. They come apart into words and a target
exactly if they are those words, at least one and none of them an operator, then an operator, then
the target. In all other cases, which are those of a misplaced operator, they have no meaning. Each
list of words has one of the three shapes and no second one. Counting gives the same outcomes, and
wherever the first operator stands, no difference goes below zero. -/
theorem ofWords?_outcomes (ws : List Text) :
    (∀ args, Redirected.ofWords? ws = some { words := args, target := none } ↔
      redirectWord ∉ ws ∧ args = ws) ∧
    (∀ before target, Redirected.ofWords? ws = some { words := before, target := some target } ↔
      Redirects ws before target) ∧
    (Redirected.ofWords? ws = none ↔
      redirectWord ∈ ws ∧ ∀ before target, ¬ Redirects ws before target) ∧
    (Redirected.ofWords? ws = none ↔ Misplaced ws) ∧
    (redirectWord ∉ ws ∨ (∃ before target, Redirects ws before target) ∨ Misplaced ws) ∧
    (¬ (redirectWord ∉ ws ∧ ∃ before target, Redirects ws before target) ∧
      ¬ (redirectWord ∉ ws ∧ Misplaced ws) ∧
      ¬ ((∃ before target, Redirects ws before target) ∧ Misplaced ws)) ∧
    (∀ position, ws.idxOf? redirectWord = some position →
      ∃ behind, behind? ws position = some behind ∧ position + 1 + behind = ws.length) ∧
    counted ws = some (Redirected.ofWords? ws) := by
  refine ⟨ofWords?_eq_plain_iff, fun before => ofWords?_eq_redirected_iff, ?_,
    ofWords?_eq_none_iff, ofWords?_cases ws, ⟨?_, ?_, ?_⟩, fun position => behind?_of_idxOf?,
    counted_eq ws⟩
  · rw [ofWords?_eq_none_iff]
    constructor
    · intro h
      exact ⟨mem_of_misplaced h, fun before target hr => not_misplaced_of_redirects hr h⟩
    · rintro ⟨hmem, hnone⟩
      rcases ofWords?_cases ws with hm | ⟨before, target, hr⟩ | h
      · exact absurd hmem hm
      · exact absurd hr (hnone before target)
      · exact h
  · rintro ⟨hm, before, target, hr⟩
    exact hm (mem_of_redirects hr)
  · rintro ⟨hm, h⟩
    exact hm (mem_of_misplaced h)
  · rintro ⟨⟨before, target, hr⟩, h⟩
    exact not_misplaced_of_redirects hr h

/-- The second of two operators is the target. -/
theorem ofWords?_outcomes_secondOperator : let ws := [text "ls", text ">", text ">"]
    ws.idxOf? redirectWord = some 1 ∧
      (∃ behind, behind? ws 1 = some behind ∧ 1 + 1 + behind = ws.length) ∧
      Redirected.ofWords? ws = some { words := [text "ls"], target := some (text ">") } := by
  intro ws
  have hfirst : ws.idxOf? redirectWord = some 1 := by decide
  obtain ⟨-, hredirected, -, -, -, -, hbehind, -⟩ := ofWords?_outcomes ws
  refine ⟨hfirst, hbehind 1 hfirst, (hredirected [text "ls"] (text ">")).mpr ⟨rfl, ?_, ?_⟩⟩
  · simp
  · decide

end Line

end ParallelShell
