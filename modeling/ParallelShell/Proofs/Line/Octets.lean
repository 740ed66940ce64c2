import ParallelShell.Proofs.Line.Grammar
import ParallelShell.Proofs.Text.Decode

set_option autoImplicit false

/-! # Lines of octets

A line arrives as octets, and it is decoded before it is read. The octets need not be UTF-8, and
what is malformed becomes replacement characters. One might fear that this moves the boundaries in
the line: that a character which breaks off swallows the mark behind it, say.

It does not. `Raw.commands` reads a line as octets, without decoding anything: it is cut at every
0x26, a 0x3E is a token wherever it stands, six octets are blanks, and all others make up words,
whether they are UTF-8 or not. `commands_decode` says that the commands of a decoded line are those
of its octets, each word decoded by itself, and that a line is rejected for the same piece.
-/

namespace ParallelShell

namespace Line

structure RawCommand where
  name : Octets
  operands : List Octets
  target : Option Octets
  deriving DecidableEq, Repr

/-- The command whose words and target are decoded, each by itself. -/
def RawCommand.decode (c : RawCommand) : Command :=
  { name := Text.decode c.name
    operands := c.operands.map Text.decode
    target := c.target.map Text.decode }

namespace Raw

def segmentMark : UInt8 := 0x26

def redirectMark : UInt8 := 0x3E

def blanks : List UInt8 := [0x20, 0x09, 0x0D, 0x0A, 0x0B, 0x0C]

def isLetter (b : UInt8) : Bool := b ∉ blanks ∧ b ≠ redirectMark

/-- The tokens of a piece: operators, and words as long as they go. -/
def tokens : Octets → List Octets
  | [] => []
  | b :: bs =>
    if b ∈ blanks then tokens bs
    else if b = redirectMark then [redirectMark] :: tokens bs
    else (b :: bs.takeWhile isLetter) :: tokens (bs.dropWhile isLetter)
termination_by bs => bs.length
decreasing_by
  · simp
  · simp
  · exact Nat.lt_succ_of_le (List.dropWhile_suffix isLetter).length_le

/-- The command that tokens make up. Behind the first operator stands the target, and nothing
else. -/
def command? (ws : List Octets) : Option RawCommand :=
  match ws.takeWhile (· ≠ [redirectMark]), ws.dropWhile (· ≠ [redirectMark]) with
  | name :: operands, [] => some { name, operands, target := none }
  | name :: operands, [_, target] => some { name, operands, target := some target }
  | _, _ => none

def ofPiece (piece : Octets) : Except Octets RawCommand :=
  match command? (tokens piece) with
  | some c => .ok c
  | none => .error piece

/-- **The commands of a line of octets**, or its leftmost malformed piece. Pieces without tokens are
passed over. -/
def commands (line : Octets) : Except Octets (List RawCommand) :=
  ((line.splitOn segmentMark).filter fun piece => tokens piece ≠ []).mapM ofPiece

def quote (piece : Octets) : Malformed :=
  { segment := Text.trim (spaced (Text.decode piece)) }

def decoded : Except Octets (List RawCommand) → Except Malformed (List Command)
  | .ok cs => .ok (cs.map RawCommand.decode)
  | .error piece => .error (quote piece)

/-! ## Octets and characters of the same kind -/

theorem lt_of_mem_blanks {b : UInt8} (h : b ∈ blanks) : b < 0x80 := by
  have hall : blanks.all (· < 0x80) = true := by decide
  simpa using List.all_eq_true.mp hall b h

theorem lt_of_not_isLetter {b : UInt8} (h : isLetter b = false) : b < 0x80 := by
  by_cases hb : b ∈ blanks
  · exact lt_of_mem_blanks hb
  · have hop : b = redirectMark := by simpa [isLetter, hb] using h
    rw [hop]
    decide

theorem isBlank_ofOctet {b : UInt8} (hb : b < 0x80) :
    isBlank (ofOctet b) = decide (b ∈ blanks) := by
  have same : ∀ a : UInt8, a < 0x80 → (ofOctet b == ofOctet a) = decide (b = a) := by
    intro a ha
    rw [Bool.eq_iff_iff, beq_iff_eq, decide_eq_true_iff, ofOctet_inj hb ha]
  show (ofOctet b == ofOctet 0x20 || ofOctet b == ofOctet 0x09 || ofOctet b == ofOctet 0x0D ||
    ofOctet b == ofOctet 0x0A || ofOctet b == ofOctet 0x0B || ofOctet b == ofOctet 0x0C) = _
  simp [same, blanks, Bool.or_assoc]

theorem ofOctet_eq_redirectMark_iff {b : UInt8} (hb : b < 0x80) :
    ofOctet b = Line.redirectMark ↔ b = redirectMark :=
  ofOctet_inj hb (b := redirectMark) (by decide)

theorem isLetter_ofOctet_iff {b : UInt8} (hb : b < 0x80) :
    Grammar.IsLetter (ofOctet b) ↔ isLetter b = true := by
  rw [Grammar.IsLetter, isBlank_ofOctet hb, Ne, ofOctet_eq_redirectMark_iff hb]
  simp [isLetter]

/-- A character outside ASCII makes up words. -/
theorem isLetter_of_not_isAscii {c : Char} (h : isAscii c = false) : Grammar.IsLetter c := by
  constructor
  · rw [Bool.eq_false_iff]
    intro hb
    simp only [isBlank, Bool.or_eq_true, beq_iff_eq] at hb
    rcases hb with ((((rfl | rfl) | rfl) | rfl) | rfl) | rfl <;> exact absurd h (by decide)
  · rintro rfl
    exact absurd h (by decide)

/-- What is decoded from octets of words makes up words. -/
theorem isLetter_of_mem_decode {w : Octets} (hw : ∀ b ∈ w, isLetter b = true) :
    ∀ c ∈ Text.decode w, Grammar.IsLetter c := by
  intro c hc
  by_cases ha : isAscii c = true
  · obtain ⟨b, hb, hlt, rfl⟩ := Text.exists_octet_of_mem_decode ha hc
    exact (isLetter_ofOctet_iff hlt).mpr (hw b hb)
  · exact isLetter_of_not_isAscii (by simpa using ha)

theorem decode_eq_redirectWord_iff (w : Octets) :
    Text.decode w = redirectWord ↔ w = [redirectMark] :=
  Text.decode_eq_singleton_iff (b := redirectMark) (by decide) w

/-! ## Pieces and tokens -/

/-- A line is cut at the same places, decoded or not. -/
theorem cut_decode (line : Octets) :
    Grammar.Cut (Text.decode line) ((line.splitOn segmentMark).map Text.decode) := by
  have hmark : segmentMark < 0x80 := by decide
  have absent : ∀ {p : Octets}, segmentMark ∉ p → Line.segmentMark ∉ Text.decode p := fun hp hm =>
    hp ((Text.ofOctet_mem_decode_iff hmark _).mp hm)
  by_cases h : segmentMark ∈ line
  · obtain ⟨p, rest, rfl, hp⟩ := List.eq_append_cons_of_mem h
    rw [List.splitOn_append_cons_self_of_not_mem hp, Text.decode_append_cons p hmark]
    exact .more (absent hp) (cut_decode rest)
  · rw [List.splitOn_eq_singleton h]
    exact .last (absent h)
termination_by line.length
decreasing_by
  rename_i heq
  subst heq
  simp only [List.length_append, List.length_cons]
  omega

/-- **A decoded piece has the tokens of its octets, decoded.** -/
theorem tokens_decode (piece : Octets) :
    Grammar.Tokens (Text.decode piece) ((tokens piece).map Text.decode) := by
  fun_induction tokens piece with
  | case1 => exact .nil
  | case2 b bs hb ih =>
      have hlt := lt_of_mem_blanks hb
      rw [Text.decode_cons hlt]
      exact .blank (by simp [isBlank_ofOctet hlt, hb]) ih
  | case3 bs _ ih =>
      rw [Text.decode_cons (b := redirectMark) (by decide)]
      exact .operator ih
  | case4 b bs hb hop ih =>
      have hletter : isLetter b = true := by simp [isLetter, hb, hop]
      -- the word ends before an octet that stands for itself
      have hhead : ∀ x ∈ (bs.dropWhile isLetter).head?, isLetter x = false :=
        eq_false_of_mem_head?_dropWhile
      have hsplit : Text.decode (b :: bs) =
          Text.decode (b :: bs.takeWhile isLetter) ++ Text.decode (bs.dropWhile isLetter) := by
        rw [← Text.decode_append fun x hx => lt_of_not_isLetter (hhead x hx), List.cons_append,
          List.takeWhile_append_dropWhile]
      rw [hsplit]
      refine .word (by simp [Text.decode_eq_nil_iff]) ?_ ?_ ih
      · apply isLetter_of_mem_decode
        exact List.forall_mem_cons.mpr ⟨hletter, fun x hx => List.mem_takeWhile_imp hx⟩
      · cases hrest : bs.dropWhile isLetter with
        | nil => simp [Text.decode_nil]
        | cons x rest =>
            have hx : isLetter x = false := hhead x (by rw [hrest]; rfl)
            have hlt := lt_of_not_isLetter hx
            rw [Text.decode_cons hlt]
            intro c hc
            obtain rfl : ofOctet x = c := by simpa using hc
            simp [isLetter_ofOctet_iff hlt, hx]

/-! ## Redirections -/

/-- The redirection is taken out of decoded tokens as out of octets. -/
theorem ofWords?_map_decode {ws : List Octets} (hne : ws ≠ []) :
    (Redirected.ofWords? (ws.map Text.decode)).bind Redirected.command? =
      (command? ws).map RawCommand.decode := by
  have hop : (fun w => decide (w ≠ redirectWord)) ∘ Text.decode =
      fun w => decide (w ≠ [redirectMark]) := by
    funext w
    simp [decode_eq_redirectWord_iff]
  have hws : ws.takeWhile (· ≠ [redirectMark]) ++ ws.dropWhile (· ≠ [redirectMark]) = ws :=
    List.takeWhile_append_dropWhile
  simp only [Redirected.ofWords?, command?, List.takeWhile_map, List.dropWhile_map, hop]
  generalize ws.takeWhile (· ≠ [redirectMark]) = before at hws ⊢
  generalize ws.dropWhile (· ≠ [redirectMark]) = behind at hws ⊢
  subst hws
  -- what is behind the first operator decides, and whether there is something before it
  cases before with
  | nil =>
      rcases behind with _ | ⟨_, _ | ⟨target, _ | ⟨_, _⟩⟩⟩
      · exact absurd rfl hne
      · rfl
      · rfl
      · rfl
  | cons name operands =>
      rcases behind with _ | ⟨_, _ | ⟨target, _ | ⟨_, _⟩⟩⟩
      · simp [Redirected.command?, RawCommand.decode]
      · rfl
      · rfl
      · rfl

/-- The command of a decoded piece. -/
theorem command?_spaced_decode {piece : Octets} (hne : tokens piece ≠ []) :
    Line.command? (spaced (Text.decode piece)) =
      match ofPiece piece with
      | .ok c => .ok (some c.decode)
      | .error q => .error (quote q) := by
  have hwords := Grammar.words_spaced_of_tokens (tokens_decode piece)
  have hcommand := ofWords?_map_decode hne
  have hne' : (tokens piece).map Text.decode ≠ [] := by simpa using hne
  rw [Line.command?, hwords, ofPiece]
  cases hr : Redirected.ofWords? ((tokens piece).map Text.decode) with
  | none =>
      rw [hr] at hcommand
      have hnone : command? (tokens piece) = none := by simpa using hcommand.symm
      rw [hnone]
      split
      · exact absurd ‹_› hne'
      · simp only [hr, quote]
  | some r =>
      obtain ⟨c, hc⟩ := Grammar.exists_shape hne' hr
      rw [hr, Option.bind_some, hc] at hcommand
      obtain ⟨raw, hraw, rfl⟩ := Option.map_eq_some_iff.mp hcommand.symm
      rw [hraw]
      split
      · exact absurd ‹_› hne'
      · simp only [hr, hc]

/-- Decoded pieces in a row. -/
theorem collect_decode (pieces : List Octets) :
    collect (pieces.map fun piece => spaced (Text.decode piece)) =
      decoded ((pieces.filter fun piece => tokens piece ≠ []).mapM ofPiece) := by
  induction pieces with
  | nil => rfl
  | cons piece pieces ih =>
      rw [List.map_cons, collect, ih]
      by_cases hne : tokens piece = []
      · have hblank : Line.command? (spaced (Text.decode piece)) = .ok none := by
          have hwords := Grammar.words_spaced_of_tokens (tokens_decode piece)
          rw [Line.command?, hwords, hne]
          rfl
        rw [hblank, List.filter_cons_of_neg (by simp [hne])]
        cases (pieces.filter fun piece => tokens piece ≠ []).mapM ofPiece <;> rfl
      · rw [command?_spaced_decode hne, List.filter_cons_of_pos (by simp [hne]), List.mapM_cons]
        cases ofPiece piece with
        | error q => rfl
        | ok c => cases (pieces.filter fun piece => tokens piece ≠ []).mapM ofPiece <;> rfl

end Raw

/-- **Decoding moves no boundary.** Whatever the octets of a line, the commands of the decoded line
are those that its octets are read as, each word and each target decoded by itself; and where the
octets are rejected, the decoded line is rejected for the same piece. -/
theorem commands_decode (line : Octets) :
    commands (Text.decode line) = Raw.decoded (Raw.commands line) := by
  rw [commands, Grammar.segments_spaced_of_cut (Raw.cut_decode line), List.map_map]
  exact Raw.collect_decode _

/-- A character that breaks off before a mark, and one that breaks off before a blank. -/
example : commands (Text.decode [0x61, 0xE2, 0x82, 0x26, 0x62, 0xF0, 0x20, 0x63]) =
    .ok [{ name := ['a', replacement], operands := [], target := none },
      { name := ['b', replacement], operands := [['c']], target := none }] := by decide

end Line

end ParallelShell
