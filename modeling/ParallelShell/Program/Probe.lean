import ParallelShell.Program.Activity
import ParallelShell.Shell.Basic

set_option autoImplicit false

/-! # The probe

The **probe** is a program for looking at a shell from the inside: it tells how it was called. It
writes one line, its arguments with bars between them, the name it was called by first, and then
its current directory. Its first argument proper may ask for something else:

* `-e`: the same line, to the error stream;
* `-d` with a number: the same line, after so many milliseconds;
* `-n`, `-x`, `-k`: nothing at all; with the last two it ends by an exit code or by a signal;
* `-b`: a line to each stream, and another to the first;
* `-i`: a copy of its standard input.
-/

namespace ParallelShell

namespace Probe

def report (arguments : List Octets) (directory : Location) : Octets :=
  let call := match arguments with
    | [] => []
    | name :: operands => name ++ operands.flatMap fun a => octets "|" ++ a
  call ++ octets " @" ++ Text.encode directory.path ++ octets "\n"

def number (digits : Octets) : Nat :=
  if digits.all fun b => 0x30 ≤ b && b ≤ 0x39 then
    digits.foldl (fun n b => 10 * n + (b.toNat - 0x30)) 0
  else 0

/-- What the probe does when it is called with some arguments in a directory. -/
def activity (arguments : List Octets) (directory : Location) : Activity :=
  let line := report arguments directory
  let onOut := Activity.ofWrites [{ stream := .out, data := line }]
  match arguments with
  | _ :: option :: rest =>
    if option = octets "-e" then Activity.ofWrites [{ stream := .err, data := line }]
    else if option = octets "-d" then { onOut with delay := number (rest.headD []) }
    else if ["-n", "-x", "-k"].any fun o => option = octets o then Activity.idle
    else if option = octets "-b" then
      Activity.ofWrites
        [{ stream := .out, data := octets "out\n" }, { stream := .err, data := octets "err\n" },
          { stream := .out, data := octets "end\n" }]
    else if option = octets "-i" then { Activity.idle with copiesInput := true }
    else onOut
  | _ => onOut

/-- What a program does that was started: every program in machine form is a probe. -/
def ofLaunch (l : Launch) : Activity := activity l.image.arguments l.directory

end Probe

end ParallelShell
