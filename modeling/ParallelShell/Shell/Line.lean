import ParallelShell.Shell.Command

set_option autoImplicit false

/-! # Running a line

The commands of a line are run one after the other, each in the state that those before it have
left; the programs among them run side by side meanwhile. The shell keeps a list of those it has
started, its **children**. Once every command has been run, they are waited for, in the order of
their start, and the line **continues**: another may be read.

A line ends early in two ways, and then none of its children is waited for: it **exits**, by the
built-in of that name, or it **fails**, by a fatal fault. A line whose redirections are malformed
runs nothing at all; its one fault is reported, and it continues.

Here no program ends before it is waited for, and the supply is what it was when the line began. A
line in which both can change between any two steps is a `Play`.
-/

namespace ParallelShell

inductive Status where
  /-- Another line may be read. -/
  | continues
  /-- The shell is to end. -/
  | exits
  /-- The shell cannot go on. -/
  | fails (fault : Fault)
  deriving DecidableEq, Repr

/-- What has come of a line, or of some commands in a row: the shell afterwards, what happened,
and how it ended. -/
structure LineRun where
  shell : Shell
  events : List Event
  /-- The programs that were started and have not been waited for, in the order of their start. -/
  children : List Launch := []
  status : Status

namespace LineRun

def faults (r : LineRun) : List Fault := r.events.filterMap Event.fault?

def launches (r : LineRun) : List Launch := r.events.filterMap Event.launch?

def unwaited (r : LineRun) : Nat := r.children.length

def withEnded (r : LineRun) : LineRun :=
  { r with shell := r.children.foldl Shell.ended r.shell }

/-- Waits for some children, one after the other, after some number of others. -/
def awaitFrom (waited : Nat) : List Launch → LineRun → LineRun
  | [], r => r
  | _ :: children, r =>
    awaitFrom (waited + 1) children { r with children, events := r.events ++ [.waited waited] }

/-- Waits for the children, which have all ended. -/
def await (r : LineRun) : LineRun := awaitFrom 0 r.children r

end LineRun

namespace Shell

/-- Runs commands in a row, up to the first that ends the line. -/
def runCommands (s : Shell) : List Command → LineRun
  | [] => { shell := s, events := [], status := .continues }
  | c :: cs =>
    match s.runCommand c with
    | (s, .completed .exit) => { shell := s, events := [], status := .exits }
    | (s, .fatal fault) => { shell := s, events := [], status := .fails fault }
    | (s, .completed .done) => s.runCommands cs
    | (s, .completed (.started launch)) =>
      let rest := s.runCommands cs
      { rest with events := .started launch :: rest.events, children := launch :: rest.children }
    | (s, .failed fault into) =>
      let rest := s.runCommands cs
      { rest with events := .reported fault into :: rest.events }

/-- Runs the commands of a line, and waits for their programs unless the line ends early. -/
def runAll (s : Shell) (cs : List Command) : LineRun :=
  let r := s.runCommands cs
  match r.status with
  | .continues => r.withEnded.await
  | _ => r

def runLine (s : Shell) (line : Text) : LineRun :=
  match Line.commands line with
  | .error m =>
    { shell := s, events := [.reported (.malformed m) .inherited], status := .continues }
  | .ok cs => s.runAll cs

end Shell

end ParallelShell
