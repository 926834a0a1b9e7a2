import Mathlib.Logic.Function.Basic
import Athena.ForStd.Run

/-!
# Channel ids (`transport/Channel.cpp`, `transport/EventLoop.cpp`)

`next_id` is one counter for the channels of all loops; `fetch_add` wraps around.  Every
loop has a registry `channels_` of its live channels, by their ids.
-/

namespace Athena

/-- The counter, the ids of the channels that were ever made, and the registries. -/
structure ChannelIds where
  next_id : UInt32
  /-- `getId()` of each channel, in the order in which they were made -/
  ids : List UInt32
  channels_ : Nat → UInt32 → Option Nat

namespace ChannelIds

def init : ChannelIds := { next_id := 0, ids := [], channels_ := fun _ _ => none }

/-- `generateId`: the id that the next channel gets. -/
def generateId (s : ChannelIds) : UInt32 := s.next_id + 1

/-- `channels_.find(id)` and the channel in it. -/
def channelById (s : ChannelIds) (loop : Nat) (id : UInt32) : Option Nat := s.channels_ loop id

inductive Act where
  /-- the constructor of `Channel` -/
  | newChannel
  | registerChannel (loop channel : Nat)
  | releaseChannel (loop channel : Nat)
  deriving DecidableEq, Repr

/-- A step; `registerChannel` and `releaseChannel` are for channels that were made. -/
def step (s : ChannelIds) : Act → Option ChannelIds
  | .newChannel =>
    some { s with next_id := s.next_id + 1, ids := s.ids ++ [s.generateId] }
  | .registerChannel loop channel =>
    s.ids[channel]?.map fun id =>
      { s with
        channels_ := Function.update s.channels_ loop
          (Function.update (s.channels_ loop) id (some channel)) }
  | .releaseChannel loop channel =>
    s.ids[channel]?.map fun id =>
      { s with
        channels_ := Function.update s.channels_ loop
          (Function.update (s.channels_ loop) id none) }

end ChannelIds

end Athena
