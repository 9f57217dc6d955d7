import Switchboard.Address
import Switchboard.Clock

/-!
# Surroundings

What a call takes from outside its own state: the clock, the random words drawn for it, and the
addresses of hosts.
-/

namespace Switchboard

/-- How something that is run for a caller ends. -/
inductive Outcome where
  | reply (text : String)
  | panic
  deriving DecidableEq, Repr

/-- Number of characters that random words are made of. -/
def alphabetSize : Nat := 62

/-- A word of a length: the places of its characters in the alphabet. -/
abbrev Word (length : Nat) := Vector (Fin alphabetSize) length

/-- What a call takes from outside. -/
structure Surroundings where
  clock : Clock
  /-- The random words of a length, in the order in which they were drawn. -/
  words : (length : Nat) → List (Word length)
  lookup : String → Option Ip

end Switchboard
