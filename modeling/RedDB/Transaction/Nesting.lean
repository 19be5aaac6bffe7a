import Mathlib

namespace RedDB.Transaction

/-- What savepoints mean. The writes of a transaction are numbered; an open savepoint is its name
    and the number of writes made before it, innermost first. -/
structure Nesting where
  frames : List (String × Nat)
  live : List Nat
  deriving DecidableEq, Repr

namespace Nesting

def empty : Nesting := { frames := [], live := [] }

section

variable (n : Nesting)

def write (number : Nat) : Nesting := { n with live := n.live ++ [number] }

variable (name : String)

def savepoint (mark : Nat) : Nesting := { n with frames := (name, mark) :: n.frames }

def fromRecent : List (String × Nat) := n.frames.dropWhile (·.1 != name)

def release : Nesting :=
  match n.fromRecent name with
  | [] => n
  | _ :: outer => { n with frames := outer }

def rollbackTo : Nesting :=
  match n.fromRecent name with
  | [] => n
  | (_, mark) :: outer => { frames := outer, live := n.live.filter (· < mark) }

end

end Nesting

end RedDB.Transaction
