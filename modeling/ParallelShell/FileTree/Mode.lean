set_option autoImplicit false

/-! # The mode of a file

A **mode** is a number that is read in octal digits. The last three digits say what the owner of a
file, its group and everyone else may do with it: four to read, two to write and one to execute
it. The digit in front has the marks of a program that is to run with the rights of its owner or
of its group, and not of the one who starts it.

The shell and its programs own every file, and have no rights besides those of an owner. So what
is allowed hangs on the digit of the owner alone (`mayRead`, `mayWrite`, `mayExecute`), whatever the
group and everyone else may do.
-/

namespace ParallelShell

abbrev Mode := Nat

namespace Mode

def hasAny (mode : Mode) (bits : Nat) : Bool := mode &&& bits ≠ 0

def mayRead (mode : Mode) : Bool := hasAny mode 0o400

def mayWrite (mode : Mode) : Bool := hasAny mode 0o200

def mayExecute (mode : Mode) : Bool := hasAny mode 0o100

/-- The mode of a file that is created, with the bits taken away that the user's mask forbids. -/
def new : Mode := 0o700

/-- The mode of a file after a write. The mark for the rights of the owner goes, and so does the
one for the rights of the group if the group may execute: what is in the file now was not there
when it was marked. -/
def afterWrite (mode : Mode) : Mode :=
  if hasAny mode 0o010 then mode &&& 0o1777 else mode &&& 0o3777

/-- A new file may be read, written and executed by its owner. -/
theorem allowed_new : mayRead new = true ∧ mayWrite new = true ∧ mayExecute new = true := by
  decide

/-- A new file keeps its mode when it is written. -/
theorem afterWrite_new : afterWrite new = new := by decide

end Mode

end ParallelShell
