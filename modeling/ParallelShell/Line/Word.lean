import ParallelShell.Text.Blank

set_option autoImplicit false

/-! # Words

The **words** of a segment are its longest runs of characters that are not blanks. Only the six
blanks separate words; every other character, control characters and Unicode white space
included, is part of one.

The words are read off from the right end. `Scan` holds what has been read: the word that is
being read, empty right before a blank, and the words after it. A blank closes the word being
read (`Scan.words`), any other character goes to its front.
-/

namespace ParallelShell

namespace Line

/-- What has been read of a segment, from its right end. -/
structure Scan where
  /-- The word being read, empty if the last character was a blank. -/
  current : Text
  /-- The words after it. -/
  later : List Text

def Scan.words (s : Scan) : List Text :=
  if s.current.isEmpty then s.later else s.current :: s.later

/-- One more character, to the left of what has been read. -/
def Scan.read (c : Char) (s : Scan) : Scan :=
  if isBlank c then { current := [], later := s.words }
  else { s with current := c :: s.current }

def scan (segment : Text) : Scan := segment.foldr Scan.read { current := [], later := [] }

def words (segment : Text) : List Text := (scan segment).words

@[simp]
theorem words_nil : words [] = [] := rfl

@[simp]
theorem scan_nil : scan [] = { current := [], later := [] } := rfl

@[simp]
theorem scan_cons (c : Char) (segment : Text) :
    scan (c :: segment) = Scan.read c (scan segment) := rfl

/-- A blank in front of a segment adds no word. -/
theorem words_cons_of_isBlank {c : Char} (h : isBlank c = true) (segment : Text) :
    words (c :: segment) = words segment := by
  simp [words, Scan.read, h, Scan.words]

end Line

end ParallelShell
