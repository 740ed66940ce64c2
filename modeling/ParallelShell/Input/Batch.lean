import ParallelShell.Text.Decode
import ParallelShell.Text.Pieces

set_option autoImplicit false

/-! # Reading a batch

Without a terminal, lines come from a file or from a standard input, and a line is everything up
to the next line feed, that included. Each line is decoded by itself.

The octets are fetched in portions of `portion` octets, and only when those fetched before have
been used up. How far ahead the shell has fetched can be seen from outside: a program that reads
the same standard input finds what has not been fetched yet, and a file that a line has written to
is read on from where fetching has stopped. So `Reader` holds the octets that have been fetched
and not used, and `Reader.next?` says, given those still to be fetched, which line comes next and
how many it fetches for that.
-/

namespace ParallelShell

def lineFeed : UInt8 := 0x0A

/-- The lines of a whole input, each decoded by itself. -/
def batchLines (input : Octets) : List Text := (pieces (· = lineFeed) input).map Text.decode

/-- The octets that have been fetched and not used. -/
structure Reader where
  ahead : Octets
  deriving DecidableEq, Repr

namespace Reader

def start : Reader := { ahead := [] }

def portion : Nat := 8192

def firstLine (input : Octets) : Octets :=
  let body := input.takeWhile (· ≠ lineFeed)
  body ++ (input.drop body.length).take 1

/-- How many octets are fetched for a line, when some are there already and some number is left to
be fetched: none if the line is there, else as many portions as it takes. -/
def fetched (line ahead pending : Nat) (ended : Bool) : Nat :=
  if ended then min pending ((line - ahead + (portion - 1)) / portion * portion) else pending

/-- The next line of a batch, if there is one, when `pending` can still be fetched: the line, how
many octets are fetched for it, and the reader afterwards. -/
def next? (r : Reader) (pending : Octets) : Option (Text × Nat × Reader) :=
  let line := firstLine (r.ahead ++ pending)
  if line.isEmpty then none
  else
    let ended := line.getLast? = some lineFeed
    let count := fetched line.length r.ahead.length pending.length ended
    let held := r.ahead ++ pending.take count
    some (Text.decode line, count, { ahead := held.drop line.length })

end Reader

end ParallelShell
