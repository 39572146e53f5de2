/-!
# Acknowledgements

An acknowledger is a handle on one flag, and a copy of it is a handle on the same flag. Whoever
acknowledges first finds the flag down and raises it; nothing lowers it again.
-/

namespace Annals

structure Acknowledger where
  flag : Nat
  deriving DecidableEq, Repr

/-- The flags handed out so far, and whether each is raised. -/
structure AckBoard where
  flags : List Bool
  deriving DecidableEq

namespace AckBoard

def empty : AckBoard :=
  ⟨[]⟩

def create (board : AckBoard) : Acknowledger × AckBoard :=
  (⟨board.flags.length⟩, ⟨board.flags ++ [false]⟩)

def isAcked (board : AckBoard) (acknowledger : Acknowledger) : Bool :=
  board.flags[acknowledger.flag]?.getD false

/-- Raises the flag, and says whether it was this call that did. -/
def ack (board : AckBoard) (acknowledger : Acknowledger) : Bool × AckBoard :=
  (!board.isAcked acknowledger, ⟨board.flags.set acknowledger.flag true⟩)

theorem isAcked_create (board : AckBoard) :
    board.create.2.isAcked board.create.1 = false := by
  simp [create, isAcked]

theorem isAcked_ack (board : AckBoard) (one other : Acknowledger)
    (h : one.flag < board.flags.length) :
    (board.ack one).2.isAcked other = (board.isAcked other || decide (one = other)) := by
  obtain ⟨one⟩ := one
  obtain ⟨other⟩ := other
  by_cases heq : one = other
  · subst heq
    simp_all [ack, isAcked]
  · simp [ack, isAcked, heq, List.getElem?_set_ne heq]

end AckBoard

end Annals
