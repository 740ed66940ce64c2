import ParallelShell.Program.Probe
import ParallelShell.Session

set_option autoImplicit false

/-! # The command line

`main` runs one session on a file tree that is held in memory and starts out small: a home
directory, the directories of the standard search path, the two devices, and the probe as the one
program there is. Nothing on the disk is ever changed. What comes from outside is the batch file
that the argument names, of which a copy is put into the home directory, or else the standard
input.
-/

namespace ParallelShell

namespace CommandLine

def home : Location := [text "home"]

def batchName : Text := text "batch"

def furniture : List (Location × Node) :=
  [(home, .directory), ([text "usr"], .directory), ([text "bin", text "usr"], .directory),
    ([text "dev"], .directory), ([text "null", text "dev"], .device .null),
    ([text "full", text "dev"], .device .full), ([text "bin"], .directory),
    ([text "probe", text "bin"], .file 0o755 .program)]

def tree (batch : Option Octets) : FileTree :=
  let t := furniture.foldl (fun t e => t.put e.1 e.2) FileTree.empty
  match batch with
  | none => t
  | some data => t.put (batchName :: home) (.file 0o644 (.octets data))

def system (batch : Option Octets) : System :=
  { tree := tree batch
    directory := home
    running := []
    supply := .available
    programPath := SearchPath.standard.directories }

def octets (data : ByteArray) : Octets := data.data.toList

/-- All that is left on a stream. -/
partial def readRest (stream : IO.FS.Stream) (before : ByteArray) : IO ByteArray := do
  let portion ← stream.read 65536
  if portion.isEmpty then return before
  readRest stream (before ++ portion)

/-- The octets of a file, if it can be read. -/
def readFile? (path : String) : IO (Option Octets) := do
  try
    return some (octets (← IO.FS.readBinFile path))
  catch _ =>
    return none

/-- The console with the standard input. A terminal is left alone if the lines come from a file; and
what cannot be read is taken to be a directory. -/
def readInput (fromFile : Bool) : IO Console := do
  let stream ← IO.getStdin
  if fromFile && (← stream.isTty) then return .ofInput []
  try
    return .ofInput (octets (← readRest stream ByteArray.empty))
  catch _ =>
    return .unreadable .isDirectory

def run (batch : Option Octets) (console : Console) (arguments : List Text) : IO UInt32 := do
  let s := Session.fresh (system batch) console
  let (code, s) := s.start Probe.ofLaunch none arguments
  (← IO.getStdout).write ⟨s.console.out.toArray⟩
  (← IO.getStderr).write ⟨s.console.err.toArray⟩
  return UInt32.ofNat code

end CommandLine

end ParallelShell

def main (arguments : List String) : IO UInt32 := do
  match arguments with
  | [] => ParallelShell.CommandLine.run none (← ParallelShell.CommandLine.readInput false) []
  | [path] =>
    let batch ← ParallelShell.CommandLine.readFile? path
    let argument := if path.isEmpty then [] else ParallelShell.CommandLine.batchName
    ParallelShell.CommandLine.run batch (← ParallelShell.CommandLine.readInput true) [argument]
  | _ => ParallelShell.CommandLine.run none (.ofInput []) (arguments.map String.toList)
