import ParallelShell.BuiltIn
import ParallelShell.SearchPath
import ParallelShell.Text.Blank

set_option autoImplicit false

/-! # Completing command names

While a line is typed, the name of a command can be completed. A **completer** knows the names of
the built-ins and those of the programs on a search path, as they were when it was built. Given a
line and a cursor, it looks at the **typed word**: what stands between the last `&` before the
cursor and the cursor, without the white space in front. If that word is empty, or has white
space in it, nothing is offered, since only the name of a command is completed. Otherwise every
known name is offered that is longer than the typed word and starts with it.

A completer is rebuilt only when the search path has become another one (`refresh`).
-/

namespace ParallelShell

structure Candidate where
  /-- The name. -/
  display : Text
  /-- What is to be put behind the typed word: the rest of the name, and a space. -/
  replacement : Text
  deriving DecidableEq, Repr

structure Completion where
  /-- Where replacements go, in octets from the start of the line: at the cursor. -/
  start : Nat
  candidates : List Candidate
  deriving DecidableEq, Repr

/-- The names that can be completed, and the search path they come from. -/
structure Completer where
  names : List Text
  searchPath : SearchPath

namespace Completer

def build (s : SearchPath) (t : FileTree) (directory : Location) : Completer :=
  { names := BuiltIn.all.map BuiltIn.name ++ s.names t directory, searchPath := s }

/-- The completer for a search path: a new one if the search path is another one, else the same
as before. -/
def refresh (c : Completer) (s : SearchPath) (t : FileTree) (directory : Location) : Completer :=
  if c.searchPath.same s then c else build s t directory

/-- The word being typed at the end of a text. -/
def typedWord (before : Text) : Text :=
  Text.trimStart (before.reverse.takeWhile (· ≠ '&')).reverse

/-- The candidate for a name that continues the typed word. -/
def candidate? (word name : Text) : Option Candidate :=
  match Text.after? word name with
  | some (c :: rest) => some { display := name, replacement := c :: rest ++ [' '] }
  | _ => none

/-- The names that are offered for a typed word, in increasing order, each once. -/
def offers (names : List Text) (word : Text) : List Candidate :=
  (Text.sorted names.eraseDups).filterMap (candidate? word)

def candidates (c : Completer) (before : Text) : List Candidate :=
  let word := typedWord before
  if word.isEmpty || word.any isWhiteSpace then [] else offers c.names word

def complete (c : Completer) (line : Text) (cursor : Nat) : Completion :=
  { start := cursor, candidates := c.candidates (Text.upTo cursor line) }

end Completer

end ParallelShell
