import ParallelShell.Line.Redirection
import ParallelShell.Line.Word

set_option autoImplicit false

/-! # The commands of a line

`commands` reads a whole line: it spaces the line out, cuts it into segments, splits each segment
into words and takes the redirection out of them. A segment without words is no command and is
passed over. A segment whose redirection is malformed spoils the line: none of its commands is
given, only the leftmost such segment, without the white space at its ends.

A `Command` has a name by construction, so nothing that handles one has to ask whether it is
empty.
-/

namespace ParallelShell

structure Command where
  /-- What to run. -/
  name : Text
  /-- What to run it with. -/
  operands : List Text
  /-- The file that receives its output, if the output is redirected. -/
  target : Option Text
  deriving DecidableEq, Repr

/-- A segment whose redirection has no meaning: the segment, spaced out and trimmed. -/
structure Malformed where
  segment : Text
  deriving DecidableEq, Repr

namespace Line

/-- The command that words and a target make up: none without words. -/
def Redirected.command? (r : Redirected) : Option Command :=
  match r.words with
  | [] => none
  | name :: operands => some { name, operands, target := r.target }

def command? (segment : Text) : Except Malformed (Option Command) :=
  match words segment with
  | [] => .ok none
  | ws =>
    match Redirected.ofWords? ws with
    | none => .error { segment := Text.trim segment }
    | some r => .ok r.command?

def collect : List Text → Except Malformed (List Command)
  | [] => .ok []
  | s :: rest =>
    match command? s with
    | .error m => .error m
    | .ok c? =>
      match collect rest with
      | .error m => .error m
      | .ok cs => .ok (c?.toList ++ cs)

def commands (line : Text) : Except Malformed (List Command) := collect (segments (spaced line))

end Line

end ParallelShell
