import ParallelShell.Proofs.Input.Lines
import ParallelShell.Proofs.Text.Lossy

set_option autoImplicit false

/-! # Reading lines until the end

A batch is read by calls that follow each other. Each is answered with a line, until one is
answered with none, and so is every call after it (`Reader.answer`). What the answers have in
common with the input as a whole is `Faithful`: although each line is decoded by itself, and
although the octets come in portions, nothing of the input is lost, added or read in another way
(`Reader.answers_faithful`).

Most of it is a fact about pieces: where they have their marks, and how many there are
(`length_pieces`). The lines are pieces of the octets and of the decoded text at once, so each
fact can be read off where it is simpler.
-/

namespace ParallelShell

/-! ## Marks of pieces -/

section

variable {α : Type} {isMark : α → Bool} {x a : α} {xs p : List α}

/-- **What comes in front** is a piece of its own if it is a mark, or if nothing follows;
otherwise it joins the first piece. -/
theorem pieces_cons_cases (isMark : α → Bool) (x : α) (xs : List α) :
    ((isMark x = true ∨ xs = []) ∧ pieces isMark (x :: xs) = [x] :: pieces isMark xs) ∨
      (isMark x = false ∧ xs ≠ [] ∧ ∃ p ps, p ≠ [] ∧ pieces isMark xs = p :: ps ∧
        pieces isMark (x :: xs) = (x :: p) :: ps) := by
  by_cases hx : isMark x = true
  · refine .inl ⟨.inl hx, ?_⟩
    simp [attach, hx]
  cases hxs : pieces isMark xs with
  | nil =>
      refine .inl ⟨.inr (pieces_eq_nil_iff.mp hxs), ?_⟩
      simp [attach, hx, hxs]
  | cons p ps =>
      have hne : xs ≠ [] := by
        rintro rfl
        cases hxs
      have hp : p ≠ [] := ne_nil_of_mem_pieces isMark xs p (by simp [hxs])
      refine .inr ⟨by simpa using hx, hne, p, ps, hp, rfl, ?_⟩
      simp [attach, hx, hxs]

/-- **A mark is the last of its piece.** -/
theorem isMark_of_mem_dropLast (h : p ∈ pieces isMark xs) (ha : a ∈ p.dropLast) :
    isMark a = false := by
  -- from the back to the front: an element that joins a piece is no mark
  induction xs generalizing p with
  | nil => simp at h
  | cons x xs ih =>
      rcases pieces_cons_cases isMark x xs with ⟨-, heq⟩ | ⟨hx, -, q, qs, hq, hqs, heq⟩
      · rw [heq] at h
        rcases List.mem_cons.mp h with rfl | h
        · simp at ha
        · exact ih h ha
      · rw [heq] at h
        rcases List.mem_cons.mp h with rfl | h
        · rw [List.dropLast_cons_of_ne_nil hq] at ha
          rcases List.mem_cons.mp ha with rfl | ha
          · exact hx
          · exact ih (by simp [hqs]) ha
        · exact ih (by simp [hqs, h]) ha

/-- **Every piece but the last ends with a mark.** -/
theorem isMark_of_mem_dropLast_pieces (h : p ∈ (pieces isMark xs).dropLast) :
    ∃ a, p.getLast? = some a ∧ isMark a = true := by
  induction xs generalizing p with
  | nil => simp at h
  | cons x xs ih =>
      rcases pieces_cons_cases isMark x xs with ⟨hx, heq⟩ | ⟨-, -, q, qs, hq, hqs, heq⟩
      · rw [heq] at h
        by_cases hxs : pieces isMark xs = []
        · simp [hxs] at h
        · rw [List.dropLast_cons_of_ne_nil hxs] at h
          rcases List.mem_cons.mp h with rfl | h
          · -- a piece of its own that is not the last is a mark
            have hne : xs ≠ [] := mt pieces_eq_nil_iff.mpr hxs
            exact ⟨x, rfl, hx.resolve_right hne⟩
          · exact ih h
      · rw [heq] at h
        cases qs with
        | nil => simp at h
        | cons q' qs =>
            rw [List.dropLast_cons_of_ne_nil (by simp)] at h
            rw [hqs, List.dropLast_cons_of_ne_nil (by simp)] at ih
            rcases List.mem_cons.mp h with rfl | h
            · -- a piece that something joins ends as before
              obtain ⟨a, ha, hmark⟩ := ih List.mem_cons_self
              refine ⟨a, ?_, hmark⟩
              rw [List.getLast?_cons, ha, Option.getD_some]
            · exact ih (List.mem_cons_of_mem _ h)

/-- **The number of pieces** is that of the marks, and one more if there is no mark at the end. -/
theorem length_pieces (isMark : α → Bool) (xs : List α) :
    (pieces isMark xs).length =
      xs.countP isMark + if xs.getLast?.all isMark then 0 else 1 := by
  induction xs with
  | nil => rfl
  | cons x xs ih =>
      have hend : xs ≠ [] → (x :: xs).getLast? = xs.getLast? := by
        intro hne
        obtain ⟨y, ys, rfl⟩ := List.exists_cons_of_ne_nil hne
        exact List.getLast?_cons_cons
      rcases pieces_cons_cases isMark x xs with ⟨hx, heq⟩ | ⟨hx, hne, q, qs, -, hqs, heq⟩
      · rw [heq, List.length_cons, ih, List.countP_cons]
        by_cases hxs : xs = []
        · -- a single element is a piece, with or without a mark
          subst hxs
          cases hmark : isMark x with
          | true => simp [hmark]
          | false => simp [hmark]
        · have hmark : isMark x = true := hx.resolve_right hxs
          rw [hend hxs, if_pos hmark]
          omega
      · calc (pieces isMark (x :: xs)).length
            = (pieces isMark xs).length := by rw [heq, hqs, List.length_cons, List.length_cons]
          _ = (x :: xs).countP isMark + if (x :: xs).getLast?.all isMark then 0 else 1 := by
              rw [ih, hend hne, List.countP_cons_of_neg (by simp [hx])]

end

/-! ## Calls that follow each other -/

namespace Reader

/-- **A call for a line**: its answer, and the reader and what it can still fetch afterwards. Where
there is no line, nothing changes. -/
def call (r : Reader) (pending : Octets) : Option Text × Reader × Octets :=
  match r.next? pending with
  | some (line, count, r') => (some line, r', pending.drop count)
  | none => (none, r, pending)

/-- **The answer to a call**, by the number of calls before it. -/
def answer (r : Reader) (pending : Octets) : Nat → Option Text
  | 0 => (r.call pending).1
  | n + 1 => answer (r.call pending).2.1 (r.call pending).2.2 n

/-- **One call** answers with the first of the lines that are left, and leaves the others. -/
theorem call_eq (r : Reader) (pending : Octets) : ∃ r' pending',
    r.call pending = ((batchLines (r.ahead ++ pending)).head?, r', pending') ∧
      batchLines (r'.ahead ++ pending') = (batchLines (r.ahead ++ pending)).tail := by
  cases hlines : batchLines (r.ahead ++ pending) with
  | nil =>
      refine ⟨r, pending, ?_, hlines⟩
      rw [call, next?_of_batchLines_eq_nil hlines]
      rfl
  | cons line lines =>
      obtain ⟨count, r', hnext, hrest⟩ := next?_of_batchLines_eq_cons hlines
      refine ⟨r', pending.drop count, ?_, hrest⟩
      rw [call, hnext]
      rfl

/-- **All calls** answer with the lines in a row, and then with none. -/
theorem answer_eq (r : Reader) (pending : Octets) (n : Nat) :
    r.answer pending n = (batchLines (r.ahead ++ pending))[n]? := by
  induction n generalizing r pending with
  | zero =>
      obtain ⟨r', pending', hcall, -⟩ := call_eq r pending
      rw [answer, hcall]
      exact List.head?_eq_getElem?
  | succ n ih =>
      obtain ⟨r', pending', hcall, hrest⟩ := call_eq r pending
      rw [answer, hcall, ih, hrest, List.getElem?_tail]

end Reader

/-! ## Nothing is lost -/

/-- **The lines of an input, and nothing but them.** -/
structure Faithful (input : Octets) (lines : List Text) : Prop where
  /-- In a row, the lines are what the input is decoded to as a whole. -/
  flatten_eq : lines.flatten = Text.decode input
  /-- That is the input with every maximal invalid part read as one U+FFFD. -/
  lossy : Text.Lossy input lines.flatten
  /-- No line is empty. -/
  ne_nil : ∀ line ∈ lines, line ≠ []
  /-- A line feed is the last character of its line. -/
  not_mem_dropLast : ∀ line ∈ lines, '\n' ∉ line.dropLast
  /-- Every line but the last ends with one. -/
  getLast?_eq : ∀ line ∈ lines.dropLast, line.getLast? = some '\n'
  /-- There are as many lines as line feeds, and one more if the input ends with something else. -/
  length_eq : lines.length = input.count lineFeed +
    if input = [] ∨ input.getLast? = some lineFeed then 0 else 1
  /-- The characters below 0x80 are the octets below 0x80, in order. -/
  filter_eq : lines.flatten.filter isAscii = (input.filter (· < 0x80)).map ofOctet
  /-- A text is read back from its octets. -/
  encoded : ∀ t, Text.encode t = input → lines.flatten = t

theorem flatten_batchLines (input : Octets) : (batchLines input).flatten = Text.decode input := by
  rw [batchLines_eq_textLines]
  exact flatten_pieces _ _

theorem length_batchLines (input : Octets) : (batchLines input).length =
    input.count lineFeed + if input = [] ∨ input.getLast? = some lineFeed then 0 else 1 := by
  have hcount : input.countP (fun b => decide (b = lineFeed)) = input.count lineFeed :=
    List.countP_congr (by simp)
  have hlast : input.getLast?.all (fun b => decide (b = lineFeed)) = true ↔
      input = [] ∨ input.getLast? = some lineFeed := by
    cases h : input.getLast? with
    | none => simpa using List.getLast?_eq_none_iff.mp h
    | some last =>
        have hne : input ≠ [] := by
          rintro rfl
          cases h
        simp [hne]
  rw [batchLines, List.length_map, length_pieces, hcount]
  simp only [hlast]

theorem faithful_batchLines (input : Octets) : Faithful input (batchLines input) where
  flatten_eq := flatten_batchLines input
  lossy := Text.lossy_iff.mpr (flatten_batchLines input).symm
  ne_nil := by
    rw [batchLines_eq_textLines]
    exact ne_nil_of_mem_pieces _ _
  not_mem_dropLast := by
    intro line hline hmem
    rw [batchLines_eq_textLines] at hline
    simpa using isMark_of_mem_dropLast hline hmem
  getLast?_eq := by
    intro line hline
    rw [batchLines_eq_textLines] at hline
    obtain ⟨a, hlast, ha⟩ := isMark_of_mem_dropLast_pieces hline
    rwa [of_decide_eq_true ha] at hlast
  length_eq := length_batchLines input
  filter_eq := by rw [flatten_batchLines, Text.filter_decode]
  encoded := by
    rintro t rfl
    rw [flatten_batchLines, Text.decode_encode]

/-- **Reading lines loses nothing**, whatever the input is: the calls are answered with its lines,
one after the other, and every call after them with none. -/
theorem Reader.answers_faithful (input : Octets) :
    ∃ lines, Faithful input lines ∧ ∀ n, Reader.start.answer input n = lines[n]? := by
  refine ⟨batchLines input, faithful_batchLines input, ?_⟩
  intro n
  exact Reader.answer_eq Reader.start input n

/-- A character that is cut off by a line feed, and one that is cut off by the end. -/
example : let input := [0x61, 0xE2, 0x82, 0x0A, 0xF0, 0x9F, 0x92]
    Reader.start.answer input 0 = some ['a', replacement, '\n'] ∧
      Reader.start.answer input 1 = some [replacement] ∧ Reader.start.answer input 2 = none := by
  decide

end ParallelShell
