import ParallelShell.Line.Segment

set_option autoImplicit false

/-! # Redirections

The words of a command may say where its output goes: `probe a > out` sends it to `out`. The
first `>` is the one that counts. Before it there must be at least one word, the command; after
it exactly one, the **target**, which may be a second `>`. Words in any other arrangement have no
meaning, and `Redirected.ofWords?` says so by giving nothing.
-/

namespace ParallelShell

namespace Line

def redirectWord : Text := [redirectMark]

/-- Words whose redirection, if there is one, has been taken out. -/
structure Redirected where
  words : List Text
  target : Option Text
  deriving DecidableEq, Repr

/-- Takes the redirection out of a list of words; nothing if it is malformed. -/
def Redirected.ofWords? (ws : List Text) : Option Redirected :=
  let before := ws.takeWhile (· ≠ redirectWord)
  match ws.dropWhile (· ≠ redirectWord) with
  | [] => some { words := ws, target := none }
  | [_, target] => if before.isEmpty then none else some { words := before, target := some target }
  | _ => none

end Line

end ParallelShell
