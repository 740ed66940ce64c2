import ParallelShell.Text.Basic

set_option autoImplicit false

/-! # Blanks and white space

Two classes of characters separate things, and they are not the same class.

* A **blank** separates the words of a command. There are six of them: space, horizontal tab,
  carriage return, line feed, vertical tab and form feed. No other character is a blank, so a
  no-break space is a letter of a word like any other.
* **White space** is the Unicode property `White_Space`, twenty-five code points. It decides what
  is cut off the two ends of a quoted segment, where the word being completed starts, and which
  lines are worth keeping in the history.

Every blank is white space (`isWhiteSpace_of_isBlank`); the converse fails.
-/

namespace ParallelShell

/-- One of the six characters that separate words. -/
def isBlank (c : Char) : Bool :=
  c == ' ' || c == '\t' || c == '\r' || c == '\n' || c == '\x0b' || c == '\x0c'

/-- The Unicode property `White_Space`. -/
def isWhiteSpace (c : Char) : Bool :=
  let n := c.toNat
  (0x9 ≤ n && n ≤ 0xD) || n == 0x20 || n == 0x85 || n == 0xA0 || n == 0x1680 ||
    (0x2000 ≤ n && n ≤ 0x200A) || n == 0x2028 || n == 0x2029 || n == 0x202F ||
    n == 0x205F || n == 0x3000

/-- Every blank is white space. -/
theorem isWhiteSpace_of_isBlank {c : Char} (h : isBlank c = true) : isWhiteSpace c = true := by
  simp only [isBlank, Bool.or_eq_true, beq_iff_eq] at h
  rcases h with ((((rfl | rfl) | rfl) | rfl) | rfl) | rfl <;> decide

namespace Text

/-- The text without the white space it starts with. -/
def trimStart (t : Text) : Text := t.dropWhile isWhiteSpace

def trimEnd (t : Text) : Text := (t.reverse.dropWhile isWhiteSpace).reverse

def trim (t : Text) : Text := trimEnd (trimStart t)

def isAllWhiteSpace (t : Text) : Bool := t.all isWhiteSpace

end Text

end ParallelShell
