import ParallelShell.Input.Batch
import ParallelShell.Input.Editor
import ParallelShell.Invocation
import ParallelShell.Output.Console

set_option autoImplicit false

/-! # A session

A session is a shell together with the console it shares with its programs. Here the lines come
in, one after the other, from a `Source`: a standard input or a file, read as a batch, or a
terminal with an editor. After each line the programs it has started do what they do, and the
next line is read only then, so whatever a line leaves behind, in the tree or of the input, is
there for the next.

`Session.start` is the shell as a whole: it takes the arguments, opens the source they name, runs
every line, and ends with success or failure. It fails if the arguments are refused, if the
source cannot be opened or read, or if a line fails; a failure is announced by one more notice.
What the programs make of themselves does not matter.

What a program does is a parameter throughout, the `behaviour`, and so is the line editor of the
terminal (`Session.startWith`).

Every line uses up octets, or a turn at the terminal, so a session ends, and `Session.bound` says
after how many lines at most. One source escapes this: a batch file that its own lines write to can
grow while it is read. Of such a file, no more than `growthAllowance` lines are read beyond those
it had at the start.
-/

namespace ParallelShell

structure Session where
  shell : Shell
  console : Console

inductive Source (E : LineEditor) where
  /-- The standard input, read as a batch. -/
  | input (reader : Reader)
  /-- What a path led to when it was opened, read as a batch, so far up to an offset. -/
  | opened (found : Found) (offset : Nat) (reader : Reader)
  /-- A terminal, with the keys that will be pressed for each line before it is hung up. -/
  | terminal (terminal : Terminal E) (typed : List (List Char))

/-- A line, and what is left to read the next one from. -/
structure Reading (E : LineEditor) where
  line : Text
  source : Source E
  session : Session

namespace Session

variable {E : LineEditor}

/-- The session of a shell that has just been started on a system. -/
def fresh (system : System) (console : Console) : Session :=
  { shell := { system, searchPath := .standard }, console }

def runLine (behaviour : Launch → Activity) (s : Session) (line : Text) : Session × LineRun :=
  let run := s.shell.runLine line
  let scene : Scene := { tree := run.shell.system.tree, console := s.console }
  let scene := (scene.announce run.events).perform behaviour run.launches
  let system := { run.shell.system with tree := scene.tree }
  ({ shell := { run.shell with system }, console := scene.console }, run)

/-- The octets of an open file that come after an offset. A directory cannot be read. -/
def pending (s : Session) (found : Found) (offset : Nat) : Except Errno Octets :=
  match found with
  | .directory _ => .error .isDirectory
  | .file loc _ _ =>
    match s.shell.system.tree.node? loc with
    | some (.file _ content) => .ok ((s.shell.system.octets loc content).drop offset)
    | _ => .ok []
  | _ => .ok []

def read (s : Session) : Source E → Except Errno (Option (Reading E))
  | .input reader =>
    match s.console.input with
    | .error e => .error e
    | .ok input =>
      match reader.next? input with
      | none => .ok none
      | some (line, count, reader) =>
        let console := { s.console with input := .ok (input.drop count) }
        .ok (some { line, source := .input reader, session := { s with console } })
  | .opened found offset reader =>
    match s.pending found offset with
    | .error e => .error e
    | .ok data =>
      match reader.next? data with
      | none => .ok none
      | some (line, count, reader) =>
        .ok (some { line, source := .opened found (offset + count) reader, session := s })
  | .terminal _ [] => .ok none
  | .terminal terminal (keys :: typed) =>
    let system := s.shell.system
    match terminal.readLine s.shell.searchPath system.tree system.directory keys with
    | (none, _) => .ok none
    | (some line, terminal) =>
      .ok (some { line, source := .terminal terminal typed, session := s })

/-- How many lines are read of a batch file beyond those it had when it was opened, if its own
lines write to it. -/
def growthAllowance : Nat := 1000000

/-- How many times a source can be read, the reading at its end included. -/
def bound (s : Session) : Source E → Nat
  | .input reader => reader.ahead.length + s.console.left.length + 1
  | .opened found offset reader =>
    match s.pending found offset with
    | .error _ => 1
    | .ok data => reader.ahead.length + data.length + 1 + growthAllowance
  | .terminal _ typed => typed.length + 1

/-- Reads and runs lines, at most a given number, until the source or a line ends the session.
The answer tells whether the session ends well. -/
def runLines (behaviour : Launch → Activity) : Nat → Source E → Session → Bool × Session
  | 0, _, s => (true, s)
  | lines + 1, source, s =>
    match s.read source with
    | .error _ => (false, s)
    | .ok none => (true, s)
    | .ok (some reading) =>
      let (s, run) := reading.session.runLine behaviour reading.line
      match run.status with
      | .continues => runLines behaviour lines reading.source s
      | .exits => (true, s)
      | .fails _ => (false, s)

def source (E : LineEditor) (s : Session) (terminal : Option (List (List Char))) :
    Option Text → Except Cause (Source E)
  | some path =>
    match s.shell.system.tree.find s.shell.system.directory path with
    | .error cause => .error cause
    | .ok (.file loc mode content) =>
      if mode.mayRead then .ok (.opened (.file loc mode content) 0 .start)
      else .error (.errno .permissionDenied)
    | .ok found => .ok (.opened found 0 .start)
  | none =>
    match terminal with
    | none => .ok (.input .start)
    | some typed =>
      let system := s.shell.system
      .ok (.terminal (.build s.shell.searchPath system.tree system.directory) typed)

def announceFailure (s : Session) : Session :=
  { s with console := s.console.add { stream := .err, data := Fault.notice } }

/-- How a session ends that was called with some arguments: its exit code, and what it leaves
behind. With a terminal, the keys that will be pressed for each line are given. -/
def startWith (E : LineEditor) (behaviour : Launch → Activity) (s : Session)
    (terminal : Option (List (List Char))) (arguments : List Text) : Nat × Session :=
  let outcome :=
    match Invocation.batchFile? arguments with
    | .error _ => (false, s)
    | .ok file? =>
      match s.source E terminal file? with
      | .error _ => (false, s)
      | .ok source => runLines behaviour (s.bound source) source s
  match outcome with
  | (true, s) => (0, s)
  | (false, s) => (1, s.announceFailure)

/-- The same with the editor that puts lines together key by key. -/
def start (behaviour : Launch → Activity) (s : Session) (terminal : Option (List (List Char)))
    (arguments : List Text) : Nat × Session :=
  s.startWith .keyByKey behaviour terminal arguments

end Session

end ParallelShell
