import ParallelShell.Completion
import ParallelShell.Input.History
import ParallelShell.Input.Listing
import ParallelShell.Text.Cluster

set_option autoImplicit false

/-! # Editing a line

A shell on a terminal leaves it to a `LineEditor` to put lines together. For each line it hands the
editor a completer, which it brings up to date first, and it tells the editor which lines are to be
remembered; that is all there is between the two (`Terminal.readLine`).

One such editor is here, `LineEditor.keyByKey`. It puts a line together key by key, with the cursor
always at its end. `Edit` is what it knows between two keys, and `Edit.press` what a key does to it:
a printable character is added, backspace takes away what a reader would call the last letter, Enter
gives the line, Ctrl-C drops it and gives an empty one, and Ctrl-D on an empty line ends the input.

* **History.** Ctrl-P and Ctrl-N move to the line before and after in the history. The line that
  was being typed is kept past the newest entry, and comes back when one moves there; what has
  been changed in an entry is lost when one moves on.
* **Completion.** Tab asks for candidates for the line so far. The replacement of a single one is
  added to the line; of several, the longest beginning that all replacements share. After several
  have been offered, a Tab right behind lists them and changes nothing. While a listing waits, it
  takes the keys.
-/

namespace ParallelShell

inductive Phase where
  /-- For the line. -/
  | typing
  /-- For the line as well; but a Tab lists the names that have just been offered. -/
  | offering (names : List Text)
  /-- For a listing. -/
  | listing (l : Listing)
  deriving DecidableEq, Repr

namespace Phase

/-- What the next key is taken for when a listing has got as far as it gets without one. -/
def ofListing? : Option Listing → Phase
  | none => typing
  | some l => listing l

end Phase

/-- What the editor knows between two keys. -/
structure Edit where
  /-- The line so far. -/
  line : Text
  /-- The line that was being typed when an entry of the history was called. -/
  kept : Text
  /-- Which entry of the history is shown; past the last one, none is. -/
  index : Nat
  /-- What the next key is taken for. -/
  phase : Phase
  deriving DecidableEq, Repr

inductive Ending where
  /-- With a line to be run. -/
  | line (line : Text)
  /-- With a line that was dropped. -/
  | dropped
  /-- With the end of the input. -/
  | closed
  deriving DecidableEq, Repr

namespace Edit

def start (h : History) : Edit :=
  { line := [], kept := [], index := h.lines.length, phase := .typing }

def previous (h : History) (e : Edit) : Edit :=
  if e.index = 0 then e
  else
    let kept := if e.index = h.lines.length then e.line else e.kept
    { e with kept, index := e.index - 1, line := (h.lines[e.index - 1]?).getD e.line }

def next (h : History) (e : Edit) : Edit :=
  if e.index = h.lines.length then e
  else { e with index := e.index + 1, line := (h.lines[e.index + 1]?).getD e.kept }

def shared : Text → Text → Text
  | a :: s, b :: t => if a = b then a :: shared s t else []
  | _, _ => []

def sharedByAll : List Text → Text
  | [] => []
  | t :: ts => ts.foldl shared t

def complete (c : Completer) (e : Edit) : Edit :=
  let candidates := c.candidates e.line
  { e with
    line := e.line ++ sharedByAll (candidates.map Candidate.replacement)
    phase :=
      if 1 < candidates.length then .offering (candidates.map Candidate.display) else .typing }

/-- What a key does that is taken for the line: the line goes on, or ends. -/
def type (c : Completer) (h : History) (e : Edit) (key : Char) : Edit ⊕ Ending :=
  let fresh := { e with phase := .typing }
  if key = '\r' ∨ key = '\n' then .inr (.line e.line)
  else if key = '\x03' then .inr .dropped
  else if key = '\x04' then if e.line.isEmpty then .inr .closed else .inl fresh
  else if key = '\t' then .inl (fresh.complete c)
  else if key = '\x7f' then .inl { fresh with line := Text.dropCluster e.line }
  else if key = '\x10' then .inl (fresh.previous h)
  else if key = '\x0e' then .inl (fresh.next h)
  else .inl { fresh with line := e.line ++ [key] }

def press (c : Completer) (h : History) (e : Edit) (key : Char) : Edit ⊕ Ending :=
  match e.phase with
  | .typing => e.type c h key
  | .offering names =>
    if key = '\t' then .inl { e with phase := .ofListing? (Listing.start names) }
    else e.type c h key
  | .listing l => .inl { e with phase := .ofListing? (l.press key) }

/-- Presses keys until the line ends. Keys that do not end it close the input. -/
def run (c : Completer) (h : History) : Edit → List Char → Ending
  | _, [] => .closed
  | e, key :: keys =>
    match e.press c h key with
    | .inl e => run c h e keys
    | .inr ending => ending

end Edit

/-- **A line editor**, as the shell sees it. -/
structure LineEditor where
  /-- What it keeps from one line to the next. -/
  State : Type
  fresh : State
  /-- How a line ends for which some keys are pressed, while some names can be completed. -/
  edit : State → Completer → List Char → Ending × State
  /-- Remembers a line. -/
  remember : State → Text → State

/-- The editor that puts lines together key by key, and keeps a history. -/
def LineEditor.keyByKey : LineEditor where
  State := History
  fresh := .empty
  edit h c keys := ((Edit.start h).run c h keys, h)
  remember := History.add

structure Terminal (E : LineEditor) where
  completer : Completer
  state : E.State

namespace Terminal

variable {E : LineEditor}

def build (s : SearchPath) (t : FileTree) (directory : Location) : Terminal E :=
  { completer := Completer.build s t directory, state := E.fresh }

/-- The terminal after a line was typed. White space alone is not remembered. -/
def remember (x : Terminal E) (line : Text) : Terminal E :=
  if Text.isAllWhiteSpace line then x else { x with state := E.remember x.state line }

/-- Reads one line, for which some keys are pressed: the line, or nothing at the end of the input.
The completer is first brought up to date with the search path of the shell. -/
def readLine (x : Terminal E) (s : SearchPath) (t : FileTree) (directory : Location)
    (keys : List Char) : Option Text × Terminal E :=
  let completer := x.completer.refresh s t directory
  match E.edit x.state completer keys with
  | (.line line, state) => (some line, remember { completer, state } line)
  | (.dropped, state) => (some [], { completer, state })
  | (.closed, state) => (none, { completer, state })

end Terminal

abbrev Editor := Terminal .keyByKey

def Editor.build (s : SearchPath) (t : FileTree) (directory : Location) : Editor :=
  Terminal.build s t directory

end ParallelShell
