import ParallelShell.Text.Split

set_option autoImplicit false

/-! # Segments

A command line is cut into **segments** at every `&`, and each segment is one command of the
line. Before it is cut, the line is **spaced out**: a blank is put on both sides of every `>`, so
that the operator is a word of its own wherever it stands, and `probe>out` says the same as
`probe > out`.

Neither step looks at more than one character at a time, which is why both commute with putting
lines side by side: `spaced_append`, and `segments_append_cons`, which says that a `&` between
two lines puts their segments in a row.
-/

namespace ParallelShell

namespace Line

def redirectMark : Char := '>'

def segmentMark : Char := '&'

def spaced (line : Text) : Text :=
  line.flatMap fun c => if c = redirectMark then [' ', c, ' '] else [c]

/-- The parts of a line between its marks; there is always at least one, and empty parts are
kept. -/
def segments (line : Text) : List Text := Text.split segmentMark line

@[simp]
theorem spaced_nil : spaced [] = [] := rfl

/-- Spacing out goes character by character. -/
theorem spaced_append (a b : Text) : spaced (a ++ b) = spaced a ++ spaced b := by
  simp [spaced]

/-- A mark between two lines puts their segments in a row. -/
theorem segments_append_cons (a b : Text) :
    segments (a ++ segmentMark :: b) = segments a ++ segments b :=
  Text.split_append_cons segmentMark a b

end Line

end ParallelShell
