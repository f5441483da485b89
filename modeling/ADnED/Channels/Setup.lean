import ADnED.Driver.Params
import Mathlib.Logic.Function.Basic

/-!
# `setupChannelMonitor`

The PVAccess side of a start (`ADnED.cpp:1656-1710`). Channel objects are told apart by
an `id` that is never used again, and a monitor is known by the channel object it was
created on. PVAccess itself is not part of the repository: whether the provider is
registered and whether a channel connects are arguments, and creating a channel or a
monitor always yields an object.
-/

namespace ADnED

/-- A PVAccess channel object. -/
structure Channel where
  id : Nat
  name : String
  deriving DecidableEq, Repr

/-- The PVAccess members of the driver: `p_Channel[c]`, the channel object that `p_Monitor[c]`
was created on, the number of channel objects created so far, and those destroyed. -/
structure Channels where
  channel : Nat → Option Channel
  monitor : Nat → Option Nat
  created : Nat
  destroyed : List Nat

/-- The exceptions of `setupChannelMonitor`. -/
inductive SetupError where
  | badChannel
  | noProvider
  | timeout
  deriving DecidableEq, Repr

/-- What the call finds in `p_Channel[channel]`. -/
inductive Found where
  | nothing
  | otherName
  | sameName
  deriving DecidableEq, Repr

namespace Channels

/-- The members after the constructor. -/
def init : Channels := ⟨fun _ => none, fun _ => none, 0, []⟩

/-- `p_Channel[c] = p_ChannelProvider->createChannel(pvName, ...)`. -/
def createChannel (s : Channels) (pvName : String) (c : Nat) : Channels :=
  { s with channel := Function.update s.channel c (some ⟨s.created, pvName⟩), created := s.created + 1 }

/-- The channel the call works with, up to the wait for its connection. -/
def openChannel (s : Channels) (pvName : String) (c : Nat) : Channels × Found :=
  match s.channel c with
  | none => (s.createChannel pvName c, .nothing)
  | some ch =>
    if ch.name ≠ pvName then
      ({ s with destroyed := ch.id :: s.destroyed }.createChannel pvName c, .otherName)
    else (s, .sameName)

/-- `newMonitor`. -/
def Found.newMonitor : Found → Bool
  | .otherName => true
  | _ => false

/-- `p_Monitor[c] = p_Channel[c]->createMonitor(...)`, if there is none or a new one is due. -/
def createMonitor (s : Channels) (c : Nat) (newMonitor : Bool) : Channels :=
  if s.monitor c = none ∨ newMonitor = true then
    { s with monitor := Function.update s.monitor c ((s.channel c).map Channel.id) }
  else s

/-- The rest of the call. -/
def finish (s : Channels) (c : Nat) (found : Found) (connectStatus : Bool) :
    Channels × Except SetupError Unit :=
  if connectStatus then (s.createMonitor c (Found.newMonitor found), .ok ())
  else (s, .error .timeout)

theorem finish_channel (s : Channels) (c : Nat) (found : Found) (connectStatus : Bool) :
    (s.finish c found connectStatus).1.channel = s.channel := by
  unfold finish createMonitor
  split
  · split <;> rfl
  · rfl

theorem finish_monitor (s : Channels) (c : Nat) (found : Found) (connectStatus : Bool) :
    (s.finish c found connectStatus).1.monitor c =
      if connectStatus = true ∧ (s.monitor c = none ∨ Found.newMonitor found = true) then
        (s.channel c).map Channel.id
      else s.monitor c := by
  cases connectStatus with
  | false => rfl
  | true =>
    simp only [finish, createMonitor, if_true, true_and]
    split
    · exact Function.update_self ..
    · rfl

/-- `ADnED::setupChannelMonitor`, when the channel is connected or not after the wait. -/
def setupChannelMonitor (registered connects : Bool) (s : Channels) (pvName : String) (c : Nat) :
    Channels × Except SetupError Unit :=
  if maxChannels ≤ c then (s, .error .badChannel)
  else if registered = false then (s, .error .noProvider)
  else
    let opened := s.openChannel pvName c
    opened.1.finish c opened.2 connects

end Channels

end ADnED
