import ParallelShell.Fault
import ParallelShell.Program.Load
import ParallelShell.SearchPath

set_option autoImplicit false

/-! # The state of a shell

A shell runs on a `System`: the file tree, the current directory, the programs that are running,
and its `Supply`, that is, what it grants to those who start programs. The state of the shell itself
is the search path and nothing else; what a line leaves behind for the next one is therefore all in
`Shell`.

A start can be refused in two places before the program is looked at. A program whose output is
redirected gets two copies of the target, and there may be no room for another open file; that is
the first thing to go wrong, and nothing has to be copied without a target. And no process may be
to be had: not at all, or because enough programs are running already. What the system grants is not
the shell's to decide, and it may be more or less at any time (`Turn.system`).

What a line does is told by **events** (`Event`): a fault was reported, and where; a program was
started; a program was waited for. A `Launch` says everything about a start: the path that was
executed, the arguments as they were typed, the current directory, where the output goes, and the
image that came out of it.
-/

namespace ParallelShell

/-- Where the output of a command goes, and the notice if it fails. -/
inductive Destination where
  /-- To the shell's own streams. -/
  | inherited
  /-- Into a file, both streams. -/
  | file (loc : Location)
  /-- To a device, both streams. -/
  | device (device : Device)
  deriving DecidableEq, Repr

structure Launch where
  /-- The path that was executed. -/
  path : Text
  /-- The name as it was typed, followed by the operands. -/
  arguments : List Text
  /-- The current directory of the program. -/
  directory : Location
  /-- Where its output goes. -/
  destination : Destination
  /-- What the machine executes. -/
  image : Image
  deriving DecidableEq, Repr

/-- What a system grants to those who start programs. -/
structure Supply where
  /-- Why a target cannot be copied for a program, if it cannot. -/
  copying : Option Errno := none
  /-- How many programs can run at once, and with what the next one is refused; if there is no
  limit, every process can be created. -/
  limit : Option (Nat × Errno) := none
  deriving DecidableEq, Repr

namespace Supply

def available : Supply := {}

def exhausted : Supply := { limit := some (0, .noMemory) }

/-- Why no process can be created while some number of programs is running, if none can. -/
def refusal? (s : Supply) (running : Nat) : Option Errno :=
  match s.limit with
  | none => none
  | some (most, e) => if most ≤ running then some e else none

/-- A supply that does not depend on how many programs are running. -/
def IsFixed (s : Supply) : Prop := ∀ most e, s.limit = some (most, e) → most = 0

theorem isFixed_available : available.IsFixed := by
  intro most e h
  cases h

theorem refusal?_exhausted (running : Nat) : exhausted.refusal? running = some .noMemory := by
  simp [refusal?, exhausted]

theorem IsFixed.refusal?_eq {s : Supply} (h : s.IsFixed) (m n : Nat) :
    s.refusal? m = s.refusal? n := by
  unfold refusal?
  split
  · rfl
  · rename_i most e hlimit
    obtain rfl := h most e hlimit
    simp

end Supply

structure System where
  tree : FileTree
  /-- The current directory. -/
  directory : Location
  /-- The programs that have been started and have not ended, the latest first. -/
  running : List Launch
  supply : Supply
  /-- The directories in which the environment looks for bare names. -/
  programPath : List Text
  /-- What is read of the files that are in the form the machine executes. -/
  machineCode : Location → Octets := fun _ => []

namespace System

def octets (s : System) (loc : Location) : Content → Octets
  | .octets data => data
  | .program => s.machineCode loc

def isExecuted (s : System) (loc : Location) : Bool := s.running.any fun l => l.image.loc = loc

def isWritten (s : System) (loc : Location) : Bool :=
  s.running.any fun l => l.destination = .file loc

def ended (s : System) (launch : Launch) : System :=
  { s with running := s.running.erase launch }

end System

structure Shell where
  system : System
  searchPath : SearchPath

def Shell.ended (s : Shell) (launch : Launch) : Shell :=
  { s with system := s.system.ended launch }

inductive Event where
  /-- A fault was reported: the notice was written to the destination. -/
  | reported (fault : Fault) (into : Destination)
  /-- A program was started. -/
  | started (launch : Launch)
  /-- The program that was started as the given one of its line, counted from zero, has ended and
  has been waited for. -/
  | waited (number : Nat)
  deriving DecidableEq, Repr

namespace Event

def fault? : Event → Option Fault
  | reported fault _ => some fault
  | _ => none

def launch? : Event → Option Launch
  | started launch => some launch
  | _ => none

end Event

end ParallelShell
