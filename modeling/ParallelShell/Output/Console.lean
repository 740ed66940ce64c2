import ParallelShell.Program.Activity
import ParallelShell.Shell.Line

set_option autoImplicit false

/-! # Where output ends up

A shell and its programs share a **console**: a standard input, of which everyone takes what is
left, and two streams that everyone adds to. A program whose output is redirected writes into a
file instead, both streams at one common offset, which starts at the beginning of the file: so the
file holds its writes in the order in which it made them.

Programs run side by side, and nothing is said about the order in which writes of different
programs arrive. `Scene.perform` plays one such order: programs that wait longer before they
write come later, and otherwise the one that was started first comes first.
-/

namespace ParallelShell

/-- The streams that a shell shares with the programs it starts. -/
structure Console where
  /-- What is left of the standard input, or why it cannot be read. -/
  input : Except Errno Octets
  out : Octets
  err : Octets

namespace Console

def ofInput (input : Octets) : Console := { input := .ok input, out := [], err := [] }

def unreadable (e : Errno) : Console := { input := .error e, out := [], err := [] }

/-- What a program gets that copies the standard input. -/
def left (c : Console) : Octets := c.input.toOption.getD []

/-- The console after a program has copied the standard input. -/
def drained (c : Console) : Console := { c with input := c.input.map fun _ => [] }

def add (c : Console) (w : Write) : Console :=
  match w.stream with
  | .out => { c with out := c.out ++ w.data }
  | .err => { c with err := c.err ++ w.data }

end Console

structure Scene where
  tree : FileTree
  console : Console

namespace Scene

def write (s : Scene) (into : Destination) (offset : Nat) (w : Write) : Scene :=
  match into with
  | .inherited => { s with console := s.console.add w }
  | .file loc => { s with tree := s.tree.writeAt loc offset w.data }
  | .device _ => s

def writeAll (s : Scene) (into : Destination) (offset : Nat) : List Write → Scene
  | [] => s
  | w :: ws => (s.write into offset w).writeAll into (offset + w.data.length) ws

def act (s : Scene) (into : Destination) (a : Activity) : Scene :=
  if a.copiesInput then
    let copy : Write := { stream := .out, data := s.console.left }
    { s with console := s.console.drained }.writeAll into 0 (copy :: a.writes)
  else s.writeAll into 0 a.writes

/-- The launches in the order in which their programs get to write. -/
def schedule (behaviour : Launch → Activity) (launches : List Launch) : List Launch :=
  launches.mergeSort fun l m => (behaviour l).delay ≤ (behaviour m).delay

def perform (s : Scene) (behaviour : Launch → Activity) (launches : List Launch) : Scene :=
  (schedule behaviour launches).foldl (fun s l => s.act l.destination (behaviour l)) s

/-- The notices about faults that went to the shell's own stream. -/
def announce (s : Scene) (events : List Event) : Scene :=
  events.foldl
    (fun s e =>
      match e with
      | .reported _ .inherited =>
        { s with console := s.console.add { stream := .err, data := Fault.notice } }
      | _ => s)
    s

end Scene

end ParallelShell
