import ParallelShell.FileTree.Walk
import ParallelShell.Program.Script
import ParallelShell.Text.Decode

set_option autoImplicit false

/-! # Loading a program

To start a program is to find, behind a path and arguments, what the machine will really execute:
an `Image`, the file that holds a program together with the arguments that the program sees.

A file in machine form is its own image. A script leads on to its interpreter, which is called
with its own path, the argument that the script gives it, the path of the script, and then the
arguments of the script except the first. An interpreter may again be a script, but only
`maxScripts` times in a row; a chain that goes on is refused like a walk with too many links.

A file is executed only if its owner may, and not while it is open for writing. Which files are,
the caller has to say.

What a program sees of its arguments are octets. Those that were typed are in UTF-8; the ones that
a script adds may be anything.

A path without a slash, which only an empty search directory can give, does not name the file in
the current directory: as everywhere in the system, it is a bare name, to be looked up in the
program path of the environment (`loadBare`).
-/

namespace ParallelShell

/-- What the machine executes: a file in machine form, and the arguments it sees. -/
structure Image where
  loc : Location
  arguments : List Octets
  deriving DecidableEq, Repr

namespace Image

def maxScripts : Nat := 5

def maxArgument : Nat := 131071

/-- How many octets all arguments take at most, each with its end and a pointer to it. -/
def maxArguments : Nat := 2097152

def room : List Octets → Nat
  | [] => 0
  | a :: arguments => a.length + 9 + room arguments

/-- Whether arguments can be handed to a program. -/
def fits (arguments : List Octets) : Bool :=
  arguments.all (fun a => a.length ≤ maxArgument) && room arguments ≤ maxArguments

def openFile (t : FileTree) (directory : Location) (isWritten : Location → Bool) (path : Text) :
    Except Cause (Location × Content) :=
  match t.find directory path with
  | .ok (.file loc mode content) =>
    if !mode.mayExecute then .error (.errno .permissionDenied)
    else if isWritten loc then .error (.errno .textBusy)
    else .ok (loc, content)
  | .ok _ => .error (.errno .permissionDenied)
  | .error cause => .error cause

/-- The file of an interpreter. One without a name is the current directory, which cannot be
executed. All names in a tree are texts, so a name that is no text leads nowhere. -/
def openInterpreter (t : FileTree) (directory : Location) (isWritten : Location → Bool)
    (name : Octets) : Except Cause (Location × Content) :=
  if name.isEmpty then .error (.errno .permissionDenied)
  else
    match Text.ofOctets? name with
    | some path => openFile t directory isWritten path
    | none => .error (.errno .noEntry)

/-- The image behind a file that has been opened under a path. What happens at a script is left
to `next`, which gets the path of the interpreter and its arguments. -/
def ofFile (next : Octets → List Octets → Except Cause Image) (file : Location × Content)
    (path : Octets) (arguments : List Octets) : Except Cause Image :=
  match file.2 with
  | .program => .ok { loc := file.1, arguments }
  | .octets data =>
    match Interpreter.ofOctets? data with
    | none => .error (.errno .notExecutable)
    | some i => next i.path (i.path :: i.argument.toList ++ path :: arguments.tail)

/-- The image behind an interpreter, with a given number of scripts that may still follow. -/
def interpret (t : FileTree) (directory : Location) (isWritten : Location → Bool) :
    Nat → Octets → List Octets → Except Cause Image
  | 0, path, _ =>
    match openInterpreter t directory isWritten path with
    | .error cause => .error cause
    | .ok _ => .error (.errno .tooManyLinks)
  | scripts + 1, path, arguments =>
    match openInterpreter t directory isWritten path with
    | .error cause => .error cause
    | .ok file =>
      ofFile (interpret t directory isWritten scripts) file path arguments

def loadFile (t : FileTree) (directory : Location) (isWritten : Location → Bool) (path : Text)
    (arguments : List Octets) : Except Cause Image :=
  match openFile t directory isWritten path with
  | .error cause => .error cause
  | .ok file =>
    ofFile (interpret t directory isWritten maxScripts) file (Text.encode path) arguments

/-- Whether the search for a bare name goes on after a refusal. -/
def passesOn (e : Errno) : Bool := e = .noEntry || e = .notDirectory || e = .permissionDenied

/-- The image behind a bare name: the first directory decides where anything but an absence stands
in the way; if there is none, `refusal` tells why. -/
def loadBare (t : FileTree) (directory : Location) (isWritten : Location → Bool) (name : Text)
    (arguments : List Octets) (refusal : Errno) : List Text → Except Cause Image
  | [] => .error (.errno refusal)
  | d :: ds =>
    match loadFile t directory isWritten (Path.join d name) arguments with
    | .error (.errno e) =>
      if passesOn e then
        loadBare t directory isWritten name arguments
          (if refusal = .permissionDenied then refusal else e) ds
      else .error (.errno e)
    | result => result

/-- The image behind a path and arguments, as the system is asked for it. -/
def load (t : FileTree) (directory : Location) (isWritten : Location → Bool)
    (programPath : List Text) (path : Text) (arguments : List Octets) : Except Cause Image :=
  if !fits arguments then .error (.errno .argumentsTooLong)
  else if path.contains Path.slash then loadFile t directory isWritten path arguments
  else loadBare t directory isWritten path arguments .noEntry programPath

end Image

end ParallelShell
