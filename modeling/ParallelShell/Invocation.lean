import ParallelShell.SearchPath

set_option autoImplicit false

/-! # How the shell is invoked

The shell takes at most one argument, the file to read its lines from; without one it reads its
standard input. There are no options: whatever an argument looks like, it is the name of a file.
An empty argument is refused before anything else.
-/

namespace ParallelShell

def prompt : Text := text "wish> "

inductive Refusal where
  /-- An argument is empty. -/
  | emptyArgument
  /-- There are several arguments. -/
  | severalArguments (given : Nat)
  deriving DecidableEq, Repr

namespace Refusal

def message : Refusal → Option String
  | emptyArgument => none
  | severalArguments given =>
      some ("usage: wish [batch-file], got " ++ toString given ++ " arguments")

end Refusal

namespace Invocation

/-- The file that the arguments name, if they name one. -/
def batchFile? (arguments : List Text) : Except Refusal (Option Text) :=
  if arguments.any List.isEmpty then .error .emptyArgument
  else
    match arguments with
    | [] => .ok none
    | [file] => .ok (some file)
    | _ => .error (.severalArguments arguments.length)

/-- The same, from all that the shell was called with: its own name, if there is one, comes
first. -/
def ofCall? (call : List Text) : Except Refusal (Option Text) := batchFile? call.tail

end Invocation

end ParallelShell
