set_option autoImplicit false

/-! # Sets of characters given by ranges

A property of characters that only a standard can tell is a table: the ranges of code points that
have it, in order, each by its first and its last.
-/

namespace ParallelShell

/-- Ranges of code points, each given by its first and its last. -/
abbrev CodeRanges := List (Nat × Nat)

namespace CodeRanges

def holds (table : CodeRanges) (c : Char) : Bool :=
  table.any fun r => r.1 ≤ c.toNat && c.toNat ≤ r.2

end CodeRanges

end ParallelShell
