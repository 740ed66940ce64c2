import ParallelShell.Text.Width

set_option autoImplicit false

/-! # Listing candidates

When several names could complete a line, they are listed below it, in columns of equal width.
While that happens the keys belong to the listing and not to the line. `Listing` says what it
waits for: more names than `maxUnasked` are listed only after a question, and a list that is
longer than the screen is shown a **page** at a time, or a row at a time, as the keys tell.
-/

namespace ParallelShell

inductive Listing where
  /-- For an answer to the question whether a list of so many rows is to be shown. -/
  | asking (rows : Nat)
  /-- For a key that shows more of a list of which so many rows are left. -/
  | paging (rows : Nat)
  deriving DecidableEq, Repr

namespace Listing

def columns : Nat := 80

def page : Nat := 23

def maxUnasked : Nat := 100

/-- How many rows a list of names has: every name takes as many columns as the widest, and two
more, and there are as many names in a row as fit on the screen. -/
def rows (names : List Text) : Nat :=
  let widest := names.foldl (fun n name => max n (Text.width name)) 0
  let perRow := columns / min columns (widest + 2)
  (names.length + perRow - 1) / perRow

/-- What is waited for once a page or a row has been shown, when so many rows are left; nothing
if the list is at its end. -/
def rest (rows : Nat) : Option Listing := if rows = 0 then none else some (paging rows)

def list (rows : Nat) : Option Listing := rest (rows - page)

def start (names : List Text) : Option Listing :=
  if maxUnasked < names.length then some (asking (rows names)) else list (rows names)

/-- What a key does. A key that means nothing here is ignored. -/
def press (key : Char) : Listing → Option Listing
  | asking rows =>
    if key = 'y' ∨ key = 'Y' then list rows
    else if key = 'n' ∨ key = 'N' ∨ key = '\x7f' then none
    else some (asking rows)
  | paging rows =>
    if key = 'y' ∨ key = 'Y' ∨ key = ' ' then rest (rows - page)
    else if key = '\r' ∨ key = '\n' then rest (rows - 1)
    else if key = 'n' ∨ key = 'N' ∨ key = 'q' ∨ key = 'Q' ∨ key = '\x7f' then none
    else some (paging rows)

end Listing

end ParallelShell
