import ParallelShell.Text.Blank

set_option autoImplicit false

/-! # The history of a line editor

Lines that were typed can be called back. The **history** keeps those that it is given, the oldest
first, except for a line equal to the one kept before it. It has room for a limited number of lines;
when it is full, the oldest makes place.
-/

namespace ParallelShell

structure History where
  lines : List Text
  deriving DecidableEq, Repr

namespace History

def empty : History := { lines := [] }

def limit : Nat := 100

def add (h : History) (line : Text) : History :=
  if h.lines.getLast? = some line then h
  else if h.lines.length < limit then { lines := h.lines ++ [line] }
  else { lines := h.lines.tail ++ [line] }

end History

end ParallelShell
