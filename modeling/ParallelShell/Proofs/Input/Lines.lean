import ParallelShell.Input.Batch
import ParallelShell.Proofs.Text.Decode

set_option autoImplicit false

/-! # The lines of a batch

A reader fetches octets in portions, holds those that it has not used, and decodes each line by
itself. None of this shows in the lines: the line that comes next is the first of the pieces of
what the reader holds and what can still be fetched, and the others are left, wherever a portion
has ended (`Reader.next?_of_ne_nil`); and the lines are those of the octets that have been decoded
as a whole (`batchLines_eq_textLines`). The line feed is below 0x80, so no octets around it can
change what it stands for.
-/

namespace ParallelShell

/-! ## Pieces in a row -/

section

variable {α : Type} {isMark : α → Bool} {x : α} {xs : List α}

theorem attach_append {ps : List (List α)} (h : ps ≠ []) (qs : List (List α)) :
    attach isMark x (ps ++ qs) = attach isMark x ps ++ qs := by
  cases ps with
  | nil => exact absurd rfl h
  | cons p ps =>
      unfold attach
      split <;> rfl

theorem attach_ne_nil (x : α) (ps : List (List α)) : attach isMark x ps ≠ [] := by
  unfold attach
  split
  · simp
  · cases ps <;> simp

theorem pieces_eq_nil_iff : pieces isMark xs = [] ↔ xs = [] := by
  cases xs with
  | nil => simp
  | cons x xs => simp [attach_ne_nil]

/-- **A mark ends a piece**, and what comes after it is cut by itself. -/
theorem pieces_append_cons (hx : isMark x = true) (xs ys : List α) :
    pieces isMark (xs ++ x :: ys) = pieces isMark (xs ++ [x]) ++ pieces isMark ys := by
  induction xs with
  | nil => simp [attach, hx]
  | cons a xs ih =>
      have hne : pieces isMark (xs ++ [x]) ≠ [] := fun h => by
        simpa using pieces_eq_nil_iff.mp h
      rw [List.cons_append, pieces_cons, ih, attach_append hne, List.cons_append, pieces_cons]

/-- Without a mark, there is a single piece. -/
theorem pieces_of_forall (hxs : ∀ a ∈ xs, isMark a = false) (hne : xs ≠ []) :
    pieces isMark xs = [xs] := by
  induction xs with
  | nil => exact absurd rfl hne
  | cons a xs ih =>
      obtain ⟨ha, hxs⟩ := List.forall_mem_cons.mp hxs
      rw [pieces_cons]
      cases xs with
      | nil => simp [attach, ha]
      | cons b xs =>
          rw [ih hxs (List.cons_ne_nil _ _)]
          simp [attach, ha]

/-- With a mark at its end as well. -/
theorem pieces_append_singleton (hxs : ∀ a ∈ xs, isMark a = false) (hx : isMark x = true) :
    pieces isMark (xs ++ [x]) = [xs ++ [x]] := by
  induction xs with
  | nil => simp [attach, hx]
  | cons a xs ih =>
      obtain ⟨ha, hxs⟩ := List.forall_mem_cons.mp hxs
      rw [List.cons_append, pieces_cons, ih hxs]
      simp [attach, ha]

theorem length_pieces_le (isMark : α → Bool) (xs : List α) :
    (pieces isMark xs).length ≤ xs.length := by
  induction xs with
  | nil => simp
  | cons x xs ih =>
      have hattach : (attach isMark x (pieces isMark xs)).length ≤
          (pieces isMark xs).length + 1 := by
        unfold attach
        split
        · simp
        · cases pieces isMark xs <;> simp
      rw [pieces_cons, List.length_cons]
      omega

end

/-! ## Lines, decoded by themselves or as a whole -/

/-- The lines of some octets. -/
def octetLines (input : Octets) : List Octets := pieces (· = lineFeed) input

def textLines (t : Text) : List Text := pieces (· = '\n') t

theorem octetLines_eq_nil_iff {input : Octets} : octetLines input = [] ↔ input = [] :=
  pieces_eq_nil_iff

/-- **The first line**: all that there is, or what there is up to a line feed. -/
theorem firstLine_cases (input : Octets) :
    (lineFeed ∉ input ∧ Reader.firstLine input = input) ∨
      ∃ body rest, lineFeed ∉ body ∧ input = body ++ lineFeed :: rest ∧
        Reader.firstLine input = body ++ [lineFeed] := by
  have htake : ∀ {body : Octets}, lineFeed ∉ body → ∀ rest,
      (body ++ rest).takeWhile (· ≠ lineFeed) = body ++ rest.takeWhile (· ≠ lineFeed) :=
    fun hbody rest => List.takeWhile_append_of_pos
      (by simpa using fun b hb => ne_of_mem_of_not_mem hb hbody)
  by_cases h : lineFeed ∈ input
  · obtain ⟨body, rest, rfl, hbody⟩ := List.eq_append_cons_of_mem h
    refine .inr ⟨body, rest, hbody, rfl, ?_⟩
    rw [Reader.firstLine, htake hbody]
    simp
  · have hall := htake h []
    rw [List.append_nil, List.takeWhile_nil, List.append_nil] at hall
    refine .inl ⟨h, ?_⟩
    rw [Reader.firstLine, hall]
    simp

theorem octetLines_of_not_mem {body : Octets} (h : lineFeed ∉ body) (hne : body ≠ []) :
    octetLines body = [body] :=
  pieces_of_forall (by simpa using fun b hb => ne_of_mem_of_not_mem hb h) hne

theorem octetLines_append_cons {body : Octets} (h : lineFeed ∉ body) (rest : Octets) :
    octetLines (body ++ lineFeed :: rest) = (body ++ [lineFeed]) :: octetLines rest := by
  rw [octetLines, pieces_append_cons (by simp),
    pieces_append_singleton (by simpa using fun b hb => ne_of_mem_of_not_mem hb h) (by simp)]
  rfl

theorem textLines_of_not_mem {body : Text} (h : '\n' ∉ body) (hne : body ≠ []) :
    textLines body = [body] :=
  pieces_of_forall (by simpa using fun b hb => ne_of_mem_of_not_mem hb h) hne

theorem textLines_append_cons {body : Text} (h : '\n' ∉ body) (rest : Text) :
    textLines (body ++ '\n' :: rest) = (body ++ ['\n']) :: textLines rest := by
  rw [textLines, pieces_append_cons (by simp),
    pieces_append_singleton (by simpa using fun b hb => ne_of_mem_of_not_mem hb h) (by simp)]
  rfl

/-- The first line comes first, and then those of what is left. -/
theorem octetLines_eq_cons {input : Octets} (h : input ≠ []) : ∃ rest,
    input = Reader.firstLine input ++ rest ∧
      octetLines input = Reader.firstLine input :: octetLines rest := by
  rcases firstLine_cases input with ⟨hmem, hfirst⟩ | ⟨body, rest, hbody, hinput, hfirst⟩
  · rw [hfirst]
    exact ⟨[], (List.append_nil _).symm, octetLines_of_not_mem hmem h⟩
  · rw [hfirst, hinput]
    exact ⟨rest, by simp, octetLines_append_cons hbody rest⟩

/-- The octet stands for the character. -/
theorem ofOctet_lineFeed : ofOctet lineFeed = '\n' := by decide

/-- **Lines are those of the whole**, although each is decoded by itself. -/
theorem batchLines_eq_textLines (input : Octets) :
    batchLines input = textLines (Text.decode input) := by
  have hlt : lineFeed < 0x80 := by decide
  have hmem : ∀ bs, '\n' ∈ Text.decode bs ↔ lineFeed ∈ bs := fun bs =>
    ofOctet_lineFeed ▸ Text.ofOctet_mem_decode_iff hlt bs
  change (octetLines input).map Text.decode = _
  -- line after line, and the last one may have no line feed
  induction hn : input.length using Nat.strongRecOn generalizing input with
  | ind n ih =>
      by_cases h : lineFeed ∈ input
      · obtain ⟨body, rest, rfl, hbody⟩ := List.eq_append_cons_of_mem h
        have hrest := ih rest.length (by rw [← hn]; simp; omega) rest rfl
        rw [octetLines_append_cons hbody, Text.decode_append_cons _ hlt, ofOctet_lineFeed,
          textLines_append_cons (mt (hmem body).mp hbody), List.map_cons, hrest,
          Text.decode_append_cons _ hlt, ofOctet_lineFeed, Text.decode_nil]
      · by_cases hne : input = []
        · rw [hne]
          rfl
        · rw [octetLines_of_not_mem h hne,
            textLines_of_not_mem (mt (hmem input).mp h) (mt (Text.decode_eq_nil_iff input).mp hne)]
          rfl

/-- The lines up to a line feed are those of what there is up to it. -/
theorem textLines_decode_append (front back : Octets) :
    textLines (Text.decode (front ++ lineFeed :: back)) =
      textLines (Text.decode (front ++ [lineFeed])) ++ textLines (Text.decode back) := by
  have hlt : lineFeed < 0x80 := by decide
  rw [Text.decode_append_cons front hlt, Text.decode_append_cons front hlt, ofOctet_lineFeed,
    textLines, pieces_append_cons (by simp), Text.decode_nil]
  rfl

/-! ## Reading -/

namespace Reader

variable {r : Reader} {pending : Octets}

/-- What is fetched for a line is enough for it. -/
theorem length_le_fetched {line ahead : Octets} (h : line.length ≤ ahead.length + pending.length)
    (ended : Bool) : line.length ≤
      (ahead ++ pending.take (fetched line.length ahead.length pending.length ended)).length := by
  rw [List.length_append, List.length_take]
  unfold fetched
  split
  · have hportion : 0 < portion := by decide
    have hround := Nat.lt_div_mul_add (a := line.length - ahead.length + (portion - 1)) hportion
    omega
  · omega

theorem next?_of_nil (h : r.ahead ++ pending = []) : r.next? pending = none := by
  rw [next?, h]
  rfl

/-- **The next line** is the first of those that are left, and the others are still left. -/
theorem next?_of_ne_nil (h : r.ahead ++ pending ≠ []) : ∃ line count r',
    r.next? pending = some (Text.decode line, count, r') ∧ line ≠ [] ∧
      r.ahead ++ pending = line ++ (r'.ahead ++ pending.drop count) ∧
      octetLines (r.ahead ++ pending) = line :: octetLines (r'.ahead ++ pending.drop count) := by
  obtain ⟨rest, hsplit, hlines⟩ := octetLines_eq_cons h
  have hne : firstLine (r.ahead ++ pending) ≠ [] :=
    ne_nil_of_mem_pieces (· = lineFeed) (r.ahead ++ pending) _
      (by rw [← octetLines, hlines]; exact List.mem_cons_self)
  have hnext : r.next? pending = some _ := if_neg (by simpa using hne)
  generalize firstLine (r.ahead ++ pending) = line at hsplit hlines hne hnext
  have hlength : line.length ≤ r.ahead.length + pending.length := by
    rw [← List.length_append, hsplit, List.length_append]
    omega
  have henough := length_le_fetched hlength (decide (line.getLast? = some lineFeed))
  generalize fetched _ _ _ _ = count at hnext henough
  -- what has been fetched and not used, and what has not been fetched, make up the rest
  have hrest : rest = (r.ahead ++ pending.take count).drop line.length ++ pending.drop count := by
    rw [← List.drop_append_of_le_length henough, List.append_assoc, List.take_append_drop, hsplit,
      List.drop_left]
  rw [hrest] at hsplit hlines
  exact ⟨line, count, _, hnext, hne, hsplit, hlines⟩

/-- The same, decoded. -/
theorem next?_of_batchLines_eq_nil (h : batchLines (r.ahead ++ pending) = []) :
    r.next? pending = none :=
  next?_of_nil (octetLines_eq_nil_iff.mp (List.map_eq_nil_iff.mp h))

theorem next?_of_batchLines_eq_cons {line : Text} {lines : List Text}
    (h : batchLines (r.ahead ++ pending) = line :: lines) : ∃ count r',
      r.next? pending = some (line, count, r') ∧
        batchLines (r'.ahead ++ pending.drop count) = lines := by
  have hne : r.ahead ++ pending ≠ [] := fun hnil => by
    rw [hnil] at h
    cases h
  obtain ⟨octets, count, r', hnext, -, -, hlines⟩ := next?_of_ne_nil hne
  have hdecoded := congrArg (List.map Text.decode) hlines
  obtain ⟨rfl, hrest⟩ := List.cons.inj (h.symm.trans hdecoded)
  exact ⟨count, r', hnext, hrest.symm⟩

end Reader

end ParallelShell
