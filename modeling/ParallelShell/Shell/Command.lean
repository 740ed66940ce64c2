import ParallelShell.Shell.Basic

set_option autoImplicit false

/-! # Running a command

A command is run in three steps.

1. Its **target** is opened, if its output is redirected (`Shell.openTarget`): a file that does
   not exist is created, one that exists is emptied. If that fails, the command ends here, and
   the notice goes to the shell's own error stream.
2. Its name is given a **meaning** (`Shell.meaning`), in the state that the first step has left: a
   program on the search path comes before a built-in of the same name.
3. It is **carried out** (`Shell.carryOut`): a program is started, and not waited for; a built-in
   has run when the step ends. If the output of a program is redirected, the target is copied for
   it first (`System.copyTarget`), and a target that cannot be copied is the same fault as one that
   cannot be opened; but by now it is open, and the notice goes there.

A command that fails leaves the search path and the current directory alone, and its notice goes
where its output would have gone. Two outcomes end the line: the built-in `exit`, and a fault
that is fatal, about which nothing is written here.
-/

namespace ParallelShell

inductive Meaning where
  /-- The program at a path. -/
  | program (path : Text)
  /-- A built-in. -/
  | builtIn (b : BuiltIn)
  /-- Nothing. -/
  | unknown
  deriving DecidableEq, Repr

inductive Action where
  /-- A program now runs. -/
  | started (launch : Launch)
  /-- A built-in has run. -/
  | done
  /-- The shell is to end. -/
  | exit
  deriving DecidableEq, Repr

inductive Outcome where
  /-- It was carried out. -/
  | completed (action : Action)
  /-- It failed, and the notice went to the destination. -/
  | failed (fault : Fault) (into : Destination)
  /-- It failed, and the shell cannot go on. -/
  | fatal (fault : Fault)
  deriving DecidableEq, Repr

namespace System

/-- Opens a file for the output of a command: creates it, or empties it. -/
def openFile (s : System) (path : Text) : Except Cause (System × Destination) :=
  match s.tree.locate true s.directory path with
  | .error cause => .error cause
  | .ok (.directory _) => .error (.errno .isDirectory)
  | .ok (.device _ device) => .ok (s, .device device)
  | .ok (.absent directory name) =>
    let loc := name :: directory
    .ok ({ s with tree := s.tree.put loc (.file .new (.octets [])) }, .file loc)
  | .ok (.file loc mode _) =>
    if !mode.mayWrite then .error (.errno .permissionDenied)
    else if s.isExecuted loc then .error (.errno .textBusy)
    else .ok ({ s with tree := s.tree.put loc (.file mode.afterWrite (.octets [])) }, .file loc)

/-- Copies a target for the two streams of a program. The shell's own streams are inherited as they
are. -/
def copyTarget (s : System) : Destination → Except Cause Unit
  | .inherited => .ok ()
  | _ =>
    match s.supply.copying with
    | some e => .error (.errno e)
    | none => .ok ()

/-- Starts a program. A NUL in an argument is found first, then whether a process can be created,
and only then is the file of the program looked at. -/
def start (s : System) (path : Text) (arguments : List Text) (into : Destination) :
    Except Cause Launch :=
  if arguments.any Path.hasNul then .error .nulInArgument
  else
    match s.supply.refusal? s.running.length with
    | some e => .error (.errno e)
    | none =>
      let isWritten := fun loc => into = .file loc || s.isWritten loc
      match Image.load s.tree s.directory isWritten s.programPath path
          (arguments.map Text.encode) with
      | .error cause => .error cause
      | .ok image => .ok { path, arguments, directory := s.directory, destination := into, image }

end System

namespace Shell

def openTarget (s : Shell) : Option Text → Except Fault (Shell × Destination)
  | none => .ok (s, .inherited)
  | some path =>
    match s.system.openFile path with
    | .error cause => .error (.openTarget path cause)
    | .ok (system, into) => .ok ({ s with system }, into)

def program? (s : Shell) (name : Text) : Option Text :=
  s.searchPath.find? s.system.tree s.system.directory name

/-- What a name stands for: a program before a built-in. -/
def meaning (s : Shell) (name : Text) : Meaning :=
  match s.program? name with
  | some path => .program path
  | none =>
    match BuiltIn.ofName? name with
    | some b => .builtIn b
    | none => .unknown

def changeDirectory (s : Shell) (path : Text) : Except Fault Shell :=
  match s.system.tree.findDirectory s.system.directory path with
  | .error cause => .error (.changeDirectory path cause)
  | .ok loc => .ok { s with system := { s.system with directory := loc } }

def runBuiltIn (s : Shell) (b : BuiltIn) (operands : List Text) : Except Fault (Shell × Action) :=
  match b, operands with
  | .exit, [] => .ok (s, .exit)
  | .exit, _ => .error (.misused .exit operands.length)
  | .cd, [path] =>
    match s.changeDirectory path with
    | .error fault => .error fault
    | .ok s => .ok (s, .done)
  | .cd, _ => .error (.misused .cd operands.length)
  | .path, _ => .ok ({ s with searchPath := { directories := operands } }, .done)

def withRunning (s : Shell) (launch : Launch) : Shell :=
  { s with system := { s.system with running := launch :: s.system.running } }

def startProgram (s : Shell) (path : Text) (command : Command) (into : Destination) :
    Except Fault (Shell × Action) :=
  match s.system.copyTarget into with
  | .error cause => .error (.openTarget (command.target.getD []) cause)
  | .ok () =>
    match s.system.start path (command.name :: command.operands) into with
    | .error cause => .error (.ofStart path cause)
    | .ok launch => .ok (s.withRunning launch, .started launch)

def carryOut (s : Shell) (command : Command) (into : Destination) :
    Except Fault (Shell × Action) :=
  match s.meaning command.name with
  | .program path => s.startProgram path command into
  | .builtIn b => s.runBuiltIn b command.operands
  | .unknown => .error (.unknownCommand command.name)

/-- Writes the notice to a destination. What goes to the shell's own stream, or to a device, does
not show in the file tree. -/
def notify (s : Shell) : Destination → Shell
  | .file loc =>
    { s with system := { s.system with tree := s.system.tree.writeAt loc 0 Fault.notice } }
  | _ => s

def runCommand (s : Shell) (command : Command) : Shell × Outcome :=
  match s.openTarget command.target with
  | .error fault => (s, .failed fault .inherited)
  | .ok (s, into) =>
    match s.carryOut command into with
    | .ok (s, action) => (s, .completed action)
    | .error fault =>
      if fault.isFatal then (s, .fatal fault) else (s.notify into, .failed fault into)

end Shell

end ParallelShell
