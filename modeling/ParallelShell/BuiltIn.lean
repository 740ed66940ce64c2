import ParallelShell.Text.Basic

set_option autoImplicit false

/-! # Built-in commands

Three commands are part of the shell itself, because they change the shell and not the world: one
ends it, one changes its current directory and one its search path. This file has their names and
how they want to be called; what they do is in `ParallelShell.Shell.Command`.
-/

namespace ParallelShell

inductive BuiltIn where
  /-- Ends the shell. -/
  | exit
  /-- Changes the current directory. -/
  | cd
  /-- Replaces the search path. -/
  | path
  deriving DecidableEq, Repr

namespace BuiltIn

def all : List BuiltIn := [exit, cd, path]

def name : BuiltIn → Text
  | exit => ['e', 'x', 'i', 't']
  | cd => ['c', 'd']
  | path => ['p', 'a', 't', 'h']

def ofName? (name : Text) : Option BuiltIn := all.find? fun b => b.name = name

def expected : BuiltIn → String
  | exit => "no arguments"
  | cd => "one argument"
  | path => "any arguments"

/-- A built-in has the name it is found under, and no other. -/
theorem ofName?_eq_some_iff (t : Text) (b : BuiltIn) : ofName? t = some b ↔ b.name = t := by
  constructor
  · intro h
    have := List.find?_some h
    simpa using this
  · rintro rfl
    cases b <;> rfl

end BuiltIn

end ParallelShell
