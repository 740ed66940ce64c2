import ParallelShell.Text.Basic

set_option autoImplicit false

/-! # Scripts

A file of octets is a program only if it is a **script**: it starts with `#!`, and the rest of
its first line names the program that is to read it, its **interpreter**, with at most one
argument. The argument is everything behind the blanks that follow the name, so it may itself
contain blanks.

Only the head of a file counts, `headSize` octets, with zeros after the end of a shorter file.
A first line that ends within the head has the blanks at its end taken off. One that does not end
there is used as far as it goes, without its last octet, provided that the name is complete, that
is, followed by a blank or a zero. A zero ends the name and the argument alike.

Name and argument stay octets: the line need not be UTF-8, and where it is cut may be in the middle
of a character.
-/

namespace ParallelShell

/-- The interpreter of a script, and the argument it is given before the script's path. -/
structure Interpreter where
  path : Octets
  argument : Option Octets
  deriving DecidableEq, Repr

namespace Interpreter

def headSize : Nat := 256

def isGap (b : UInt8) : Bool := b = 0x20 || b = 0x09

def trimEnd (bs : Octets) : Octets := (bs.reverse.dropWhile isGap).reverse

def upToZero (bs : Octets) : Octets := bs.takeWhile (· ≠ 0)

/-- The name and the argument that the rest of a first line says. -/
def ofLine? (line : Octets) : Option Interpreter :=
  let name := line.dropWhile isGap
  if name.isEmpty then none
  else
    let path := name.takeWhile fun b => !isGap b && b ≠ 0
    match name.dropWhile fun b => !isGap b && b ≠ 0 with
    | [] => some { path, argument := none }
    | b :: rest =>
      if b = 0 then some { path, argument := none }
      else some { path, argument := some (upToZero (rest.dropWhile isGap)) }

/-- The rest of the first line behind the `#!`, as far as it is used; nothing if it breaks off in
the name of the interpreter. -/
def firstLine? (body : Octets) : Option Octets :=
  let seen := body.take (headSize - 2)
  if seen.contains 0x0A then some (trimEnd (seen.takeWhile (· ≠ 0x0A)))
  else
    let padded := seen ++ List.replicate (headSize - 2 - seen.length) 0
    let name := padded.dropWhile isGap
    if name.any fun b => isGap b || b = 0 then some (trimEnd (padded.take (headSize - 3)))
    else none

/-- The interpreter that a file of octets names, if it is a script. -/
def ofOctets? : Octets → Option Interpreter
  | 0x23 :: 0x21 :: body =>
    match firstLine? body with
    | some line => ofLine? line
    | none => none
  | _ => none

end Interpreter

end ParallelShell
