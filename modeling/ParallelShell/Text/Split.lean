import ParallelShell.Text.Basic

set_option autoImplicit false

/-! # Splitting at a mark

A text is split at every occurrence of one character, the **mark**. The parts are what stands
between the marks, so there is one part more than there are marks, empty parts included, and a
text without a mark is its own only part.

Command lines are split at `&` and paths at `/`. What both uses rest on is that a mark between
two texts puts their parts in a row (`split_append_cons`).
-/

namespace ParallelShell

namespace Text

/-- Puts a character in front of parts: a mark opens an empty part, any other character joins the
first part. -/
def extend (mark c : Char) : List Text → List Text
  | [] => if c = mark then [[], []] else [[c]]
  | p :: ps => if c = mark then [] :: p :: ps else (c :: p) :: ps

def split (mark : Char) (t : Text) : List Text := t.foldr (extend mark) [[]]

@[simp]
theorem split_nil (mark : Char) : split mark [] = [[]] := rfl

@[simp]
theorem split_cons (mark c : Char) (t : Text) :
    split mark (c :: t) = extend mark c (split mark t) := rfl

theorem extend_ne_nil (mark c : Char) (ps : List Text) : extend mark c ps ≠ [] := by
  cases ps <;> simp only [extend] <;> split <;> simp

/-- There is at least one part. -/
theorem split_ne_nil (mark : Char) (t : Text) : split mark t ≠ [] := by
  cases t with
  | nil => simp
  | cons c t => exact extend_ne_nil mark c _

/-- A text without a mark is its own only part. -/
theorem split_of_not_mem {mark : Char} {t : Text} (h : mark ∉ t) : split mark t = [t] := by
  induction t with
  | nil => rfl
  | cons c t ih =>
      rw [List.mem_cons, not_or] at h
      rw [split_cons, ih h.2, extend, if_neg (Ne.symm h.1)]

/-- A mark between two texts puts their parts in a row. -/
theorem split_append_cons (mark : Char) (a b : Text) :
    split mark (a ++ mark :: b) = split mark a ++ split mark b := by
  induction a with
  | nil =>
      cases h : split mark b with
      | nil => exact absurd h (split_ne_nil mark b)
      | cons p ps => simp [extend, h]
  | cons c a ih =>
      rw [List.cons_append, split_cons, ih, split_cons]
      cases h : split mark a with
      | nil => exact absurd h (split_ne_nil mark a)
      | cons p ps =>
          by_cases hc : c = mark <;> simp [extend, hc]

end Text

end ParallelShell
