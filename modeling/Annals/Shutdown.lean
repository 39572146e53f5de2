import Annals.Worker

/-!
# The way of the signal

The signal that stops workers goes through a channel, and whoever waits for it holds a handle on the
channel. There may be any number of handles, made before the signal fires or after it, and each waits by
itself: it looks at what was said last, and then for something new to be said or for the channel to close.
-/

namespace Annals

/-- What was said last, how often something was said, and whether nobody is left to say anything. -/
structure Channel where
  value : Bool := false
  version : Nat := 0
  closed : Bool := false
  deriving DecidableEq

namespace Channel

/-- Says that the signal is triggered. Nobody can say so once the channel is closed. -/
def trigger (channel : Channel) : Channel :=
  if channel.closed then channel
  else { channel with value := true, version := channel.version + 1 }

def close (channel : Channel) : Channel :=
  { channel with closed := true }

/-- The signal that the channel carries. -/
def signal (channel : Channel) : Signal where
  triggered := channel.value
  dropped := channel.closed

end Channel

/-- A handle on the signal: what it has seen last, and whether it is in the middle of a wait. -/
structure Shutdown where
  seen : Nat := 0
  waiting : Bool := false
  deriving DecidableEq

namespace Shutdown

def subscribe (channel : Channel) : Shutdown where
  seen := channel.version

def copy (handle : Shutdown) : Shutdown where
  seen := handle.seen

/-- Looks at what was said last. If that is not the signal, nothing new can have been said since, and the
wait goes on unless the channel is closed. -/
def look (channel : Channel) : Bool × Shutdown :=
  let finished := channel.value || channel.closed
  (finished, { seen := channel.version, waiting := !finished })

/-- Gives a wait the floor, a new one or the one in progress, and tells whether it is over. A wait in
progress does not look again before something new is said. -/
def poll (channel : Channel) (handle : Shutdown) : Bool × Shutdown :=
  if handle.waiting && handle.seen = channel.version then
    (channel.closed, { handle with waiting := !channel.closed })
  else look channel

def giveUp (handle : Shutdown) : Shutdown :=
  { handle with waiting := false }

end Shutdown

end Annals
