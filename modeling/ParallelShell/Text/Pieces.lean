set_option autoImplicit false

/-! # Pieces that end with a mark

Input is read in lines, and a line includes the line feed that ends it. `pieces` cuts any list in
that way: right after each element that is a mark. So every piece but possibly the last ends with
a mark, no piece is empty, and the pieces in a row are the list (`flatten_pieces`).
-/

namespace ParallelShell

variable {α : Type}

/-- Puts an element in front of pieces: a mark is a piece of its own, any other element joins the
first piece. -/
def attach (isMark : α → Bool) (x : α) (ps : List (List α)) : List (List α) :=
  if isMark x then [x] :: ps
  else match ps with
    | [] => [[x]]
    | p :: ps => (x :: p) :: ps

def pieces (isMark : α → Bool) (xs : List α) : List (List α) := xs.foldr (attach isMark) []

@[simp]
theorem pieces_nil (isMark : α → Bool) : pieces isMark [] = [] := rfl

@[simp]
theorem pieces_cons (isMark : α → Bool) (x : α) (xs : List α) :
    pieces isMark (x :: xs) = attach isMark x (pieces isMark xs) := rfl

@[simp]
theorem flatten_attach (isMark : α → Bool) (x : α) (ps : List (List α)) :
    (attach isMark x ps).flatten = x :: ps.flatten := by
  unfold attach
  cases ps <;> by_cases h : isMark x = true <;> simp [h]

/-- Cutting loses nothing and adds nothing. -/
@[simp]
theorem flatten_pieces (isMark : α → Bool) (xs : List α) : (pieces isMark xs).flatten = xs := by
  induction xs with
  | nil => rfl
  | cons x xs ih => simp [ih]

/-- No piece is empty. -/
theorem ne_nil_of_mem_pieces (isMark : α → Bool) (xs p : List α) (h : p ∈ pieces isMark xs) :
    p ≠ [] := by
  induction xs generalizing p with
  | nil => simp at h
  | cons x xs ih =>
      rw [pieces_cons] at h
      unfold attach at h
      split at h
      · rcases List.mem_cons.mp h with rfl | h
        · simp
        · exact ih p h
      · cases hps : pieces isMark xs with
        | nil =>
            rw [hps] at h
            rcases List.mem_cons.mp h with rfl | h
            · simp
            · simp at h
        | cons q qs =>
            rw [hps] at h
            rcases List.mem_cons.mp h with rfl | h
            · simp
            · exact ih p (by rw [hps]; exact List.mem_cons_of_mem q h)

end ParallelShell
