import ParallelShell.BuiltIn
import ParallelShell.Errno
import ParallelShell.Line.Command

set_option autoImplicit false

/-! # Faults

A **fault** is what can go wrong with a line or with one of its commands. It carries the cause in
full, and `Fault.message` puts the cause into words; but the user is told no more than that there
was one: whatever the fault, the **notice** is the same line.

One fault is **fatal**: when no process can be created at all, the shell cannot go on
(`isFatal`). Every other fault concerns one command, or one line, and nothing else.
-/

namespace ParallelShell

inductive Fault where
  /-- A redirection without meaning; it rejects the line. -/
  | malformed (segment : Malformed)
  /-- A name that is neither a program's nor a built-in's. -/
  | unknownCommand (name : Text)
  /-- A built-in called with the wrong number of operands. -/
  | misused (builtIn : BuiltIn) (given : Nat)
  /-- The current directory could not be changed. -/
  | changeDirectory (path : Text) (cause : Cause)
  /-- The target of a redirection could not be opened. -/
  | openTarget (path : Text) (cause : Cause)
  /-- A process was created, but the program could not be started. -/
  | execute (path : Text) (cause : Cause)
  /-- No process could be created. -/
  | createProcess (path : Text) (cause : Cause)
  deriving DecidableEq, Repr

namespace Fault

/-- The fault of a program that did not start: an exhausted system created no process at all. -/
def ofStart (path : Text) (cause : Cause) : Fault :=
  if cause.isExhaustion then createProcess path cause else execute path cause

def isFatal : Fault → Bool
  | createProcess .. => true
  | _ => false

def message : Fault → String
  | malformed m => "malformed redirection in `" ++ String.ofList m.segment ++ "`"
  | unknownCommand name => String.ofList name ++ ": command not found"
  | misused b given =>
      String.ofList b.name ++ ": expected " ++ b.expected ++ ", got " ++ toString given ++
        " argument(s)"
  | changeDirectory path cause => "cd: " ++ String.ofList path ++ ": " ++ cause.describe
  | openTarget path cause =>
      "cannot open `" ++ String.ofList path ++ "` for redirection: " ++ cause.describe
  | execute path cause =>
      "cannot execute `" ++ String.ofList path ++ "`: " ++ cause.describe
  | createProcess path cause =>
      "cannot create process for `" ++ String.ofList path ++ "`: " ++ cause.describe

/-- The line that tells the user about a fault, whichever it is. -/
def notice : Octets := octets "An error has occurred\n"

/-- A program that did not start is fatal exactly when the system was exhausted. -/
@[simp]
theorem isFatal_ofStart (path : Text) (cause : Cause) :
    (ofStart path cause).isFatal = cause.isExhaustion := by
  unfold ofStart
  split <;> simp_all [isFatal]

end Fault

end ParallelShell
