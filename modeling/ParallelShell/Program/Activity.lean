import ParallelShell.Text.Basic

set_option autoImplicit false

/-! # What a program does

Of a running program the shell sees nothing but its end; what others see of it is what it writes.
An **activity** is that: when the program gets to it, counted in milliseconds from its start,
whether it first takes all that is left on its standard input, and then a sequence of writes, each
to one of its two streams. What it has taken goes to its standard output before anything else.
-/

namespace ParallelShell

inductive Stream where
  | out
  | err
  deriving DecidableEq, Repr

structure Write where
  stream : Stream
  data : Octets
  deriving DecidableEq, Repr

/-- What a program does that can be seen. -/
structure Activity where
  /-- How long it waits first. -/
  delay : Nat
  /-- Whether it copies its standard input to its standard output. -/
  copiesInput : Bool
  writes : List Write
  deriving DecidableEq, Repr

namespace Activity

def idle : Activity := { delay := 0, copiesInput := false, writes := [] }

def ofWrites (writes : List Write) : Activity := { idle with writes }

end Activity

end ParallelShell
