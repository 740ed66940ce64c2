import ParallelShell.Text.Basic

set_option autoImplicit false

/-! # Decoding octets

Input arrives as octets and need not be UTF-8. `Text.decode` reads every sequence of octets:
well-formed characters as themselves, and each **maximal invalid part**, that is each longest
run of octets that could have started a character but did not become one, as one replacement
character U+FFFD.

The decoder is a machine that takes one octet at a time (`Decoder.step`). Between characters it
is `ready`; inside one it knows how many octets are owed, in which range the next one has to lie,
and the bits read so far. An octet outside that range gives up the character that was begun, as
one replacement character, and is then read as the start of a new one. So an octet below 0x80
always stands for itself, whatever comes before it: no malformed sequence can swallow a
separator, an operator or a line end.
-/

namespace ParallelShell

def replacement : Char := Char.ofNat 0xFFFD

/-- Where the decoder stands between two octets. -/
inductive Decoder where
  /-- Between characters. -/
  | ready
  /-- Inside a character: `owed` octets are missing, the next of them from `low` to `high`, and
  the octets so far give `value`. -/
  | inside (owed : Nat) (low high : UInt8) (value : Nat)
  deriving DecidableEq, Repr

namespace Decoder

/-- The first octet of a character: what it completes, and where the decoder stands after it.
The second octet of a character is restricted after 0xE0 and 0xF0, which would give a number
that a shorter form gives as well, after 0xED, which would give a surrogate, and after 0xF4,
which would give a number above 0x10FFFF. -/
def start (b : UInt8) : Text × Decoder :=
  if b < 0x80 then ([Char.ofNat b.toNat], ready)
  else if b < 0xC2 then ([replacement], ready)
  else if b < 0xE0 then ([], inside 1 0x80 0xBF (b.toNat - 0xC0))
  else if b = 0xE0 then ([], inside 2 0xA0 0xBF 0)
  else if b = 0xED then ([], inside 2 0x80 0x9F 0xD)
  else if b < 0xF0 then ([], inside 2 0x80 0xBF (b.toNat - 0xE0))
  else if b = 0xF0 then ([], inside 3 0x90 0xBF 0)
  else if b < 0xF4 then ([], inside 3 0x80 0xBF (b.toNat - 0xF0))
  else if b = 0xF4 then ([], inside 3 0x80 0x8F 4)
  else ([replacement], ready)

/-- One octet: the characters it completes, and where the decoder stands after it. -/
def step : Decoder → UInt8 → Text × Decoder
  | ready, b => start b
  | inside owed low high value, b =>
      if low ≤ b ∧ b ≤ high then
        let value := value * 64 + (b.toNat - 0x80)
        if owed ≤ 1 then ([Char.ofNat value], ready)
        else ([], inside (owed - 1) 0x80 0xBF value)
      else (replacement :: (start b).1, (start b).2)

/-- What the end of the input completes: a character that was begun is given up. -/
def finish : Decoder → Text
  | ready => []
  | inside .. => [replacement]

/-- The characters read so far, the last one first, and where the decoder stands. -/
structure Progress where
  reversed : Text
  decoder : Decoder

def Progress.feed (p : Progress) (b : UInt8) : Progress :=
  let (out, decoder) := p.decoder.step b
  { reversed := out.reverse ++ p.reversed, decoder }

def Progress.close (p : Progress) : Text := (p.decoder.finish.reverse ++ p.reversed).reverse

/-- What a decoder makes of the octets still to come. -/
def run : Decoder → Octets → Text
  | d, [] => d.finish
  | d, b :: bs => (d.step b).1 ++ run (d.step b).2 bs

theorem close_foldl_feed (bs : Octets) (p : Progress) :
    (bs.foldl Progress.feed p).close = p.reversed.reverse ++ p.decoder.run bs := by
  induction bs generalizing p with
  | nil => simp [Progress.close, run]
  | cons b bs ih => simp [ih, Progress.feed, run]

end Decoder

/-- The text that octets stand for, every maximal invalid part read as U+FFFD. -/
def Text.decode (bs : Octets) : Text :=
  (bs.foldl Decoder.Progress.feed { reversed := [], decoder := .ready }).close

/-- Decoding is the run of the decoder from between characters. -/
theorem Text.decode_eq_run (bs : Octets) : Text.decode bs = Decoder.ready.run bs := by
  simp [Text.decode, Decoder.close_foldl_feed]

/-- The text that octets are the UTF-8 form of, if they are of one. -/
def Text.ofOctets? (bs : Octets) : Option Text :=
  if Text.encode (Text.decode bs) = bs then some (Text.decode bs) else none

end ParallelShell
