/-!
# Turnstiles

A turnstile admits one at a time, in the order of arrival. Whoever arrives draws a ticket, and has the
turn when the turnstile has come to that ticket; whoever leaves lets the next one in.
-/

namespace Annals

structure Turnstile where
  /-- The ticket whose turn it is. -/
  serving : Nat := 0
  /-- The ticket that the next to arrive will draw. -/
  next : Nat := 0
  deriving DecidableEq, Repr

namespace Turnstile

def draw (turnstile : Turnstile) : Nat × Turnstile :=
  (turnstile.next, { turnstile with next := turnstile.next + 1 })

def admits (turnstile : Turnstile) (ticket : Nat) : Bool :=
  turnstile.serving = ticket

def leave (turnstile : Turnstile) : Turnstile :=
  { turnstile with serving := turnstile.serving + 1 }

end Turnstile

end Annals
