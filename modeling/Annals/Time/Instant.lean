import Annals.Time.Calendar

/-!
# Instants

A point in universal time: seconds since the first of January 1970 and nanoseconds within the
second. For a leap second the nanoseconds run on into a second billion. A clock or a calendar lets that
happen in the last second of a minute alone; whoever sets the nanoseconds by hand can have it in any
second. Every instant lies in the years the timestamps can name.
-/

namespace Annals

def earliestSecond : Int :=
  (Date.mk (-262143) 1 1).dayNumber * 86400

def latestSecond : Int :=
  (Date.mk 262142 12 31).dayNumber * 86400 + 86399

def isInstant (seconds : Int) (nanos : Nat) : Bool :=
  earliestSecond ≤ seconds && seconds ≤ latestSecond && nanos < 2000000000

structure Instant where
  seconds : Int
  nanos : Nat
  valid : isInstant seconds nanos
  deriving DecidableEq

/-- Whether nanoseconds that run on belong to the last second of a minute. -/
def Instant.Regular (instant : Instant) : Prop :=
  instant.nanos < 1000000000 ∨ instant.seconds % 60 = 59

instance (instant : Instant) : Decidable instant.Regular :=
  inferInstanceAs (Decidable (_ ∨ _))

/-- The regular instant with these seconds and nanoseconds, if there is one. -/
def Instant.of? (seconds : Int) (nanos : Nat) : Option Instant :=
  if h : isInstant seconds nanos then
    let instant : Instant := ⟨seconds, nanos, h⟩
    if instant.Regular then some instant else none
  else none

def Instant.epoch : Instant :=
  ⟨0, 0, by decide⟩

end Annals
