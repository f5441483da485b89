import ADnED.Channels.Setup
import ADnED.Lib.Runs

/-!
# The connection event

All channels share one `nEDChannelRequester`, and with it one binary event
(`nEDChannel.cpp:51-65`): it is signalled whenever any channel becomes connected and
emptied by a wait that returns with it. A call of `setupChannelMonitor` is split at its
wait, so that the callbacks of all channels can come in between. What `isConnected()` answers
is up to PVAccess.

The branch of a first channel goes by the outcome of the wait alone.
`connected_on_success` shows that its success is right as long as the event it gets is its
own; `success_without_connection` is a run in which it is another channel's. About
`isConnected()`, which the other branches go by, the former assumes that it is only true of a
channel that has reported to be connected (`AnswersTruly`).
-/

namespace ADnED

/-- A call of `setupChannelMonitor` that has opened its channel. `waited` is what
`waitUntilConnected` has returned, `none` while the call waits. -/
structure Waiting where
  pvName : String
  channel : Nat
  found : Found
  waited : Option Bool

/-- The driver's channels and their connections. `connected` is the state a channel object has
reported last, `reported` whether it has ever reported to be connected. -/
structure Link where
  members : Channels
  connectEvent : Bool
  connected : Nat → Bool
  reported : Nat → Bool
  call : Option Waiting

namespace Link

/-- The steps: a callback of a channel object, and those of a call. -/
inductive Label where
  | channelStateChange (id : Nat) (connected : Bool)
  | setup (pvName : String) (channel : Nat)
  /-- `waitUntilConnected` returns with the event. -/
  | wake
  | timeout
  /-- The call returns. `isConnected` is the answer of its channel, if it asks. -/
  | finish (isConnected : Bool)

/-- The links after the constructor. -/
def init : Link := ⟨.init, false, fun _ => false, fun _ => false, none⟩

/-- `nEDChannelRequester::channelStateChange`. -/
def channelStateChange (s : Link) (id : Nat) (connected : Bool) : Link :=
  { s with
    connected := Function.update s.connected id connected
    reported := if connected then Function.update s.reported id true else s.reported
    connectEvent := s.connectEvent || connected }

/-- The call up to its wait. With the channel it asks for there already, it does not wait. -/
def setup (s : Link) (pvName : String) (c : Nat) : Link :=
  let opened := s.members.openChannel pvName c
  { s with
    members := opened.1
    call := some ⟨pvName, c, opened.2, if opened.2 = .sameName then some false else none⟩ }

/-- `connectStatus` when the call goes on: `isConnected` is the answer of `p_Channel[channel]->isConnected()`. -/
def connectStatus (w : Waiting) (waited isConnected : Bool) : Bool :=
  match w.found with
  | .nothing => waited
  | _ => isConnected

/-- The end of the call `w`. -/
def finish (s : Link) (w : Waiting) (waited isConnected : Bool) : Channels × Except SetupError Unit :=
  s.members.finish w.channel w.found (connectStatus w waited isConnected)

/-- PVAccess answers truly: a channel that says it is connected has reported to be. -/
def AnswersTruly (s : Link) (c : Nat) (isConnected : Bool) : Prop :=
  isConnected = true → ∀ ch, s.members.channel c = some ch → s.reported ch.id = true

/-- The step function. Calls are made one after the other; one for a channel out of range, or
without a provider, throws at once. -/
def step (registered : Bool) (s : Link) : Label → Option Link
  | .channelStateChange id connected =>
    if id < s.members.created then some (s.channelStateChange id connected) else none
  | .setup pvName c =>
    if s.call.isSome then none
    else if maxChannels ≤ c ∨ registered = false then some s
    else some (s.setup pvName c)
  | .wake =>
    match s.call with
    | some ⟨pvName, c, found, none⟩ =>
      if s.connectEvent then some { s with connectEvent := false, call := some ⟨pvName, c, found, some true⟩ }
      else none
    | _ => none
  | .timeout =>
    match s.call with
    | some ⟨pvName, c, found, none⟩ =>
      if s.connectEvent then none else some { s with call := some ⟨pvName, c, found, some false⟩ }
    | _ => none
  | .finish isConnected =>
    match s.call with
    | some w => w.waited.map fun waited => { s with members := (s.finish w waited isConnected).1, call := none }
    | none => none

/-- The event a first channel gets is its own: it is empty when the call begins, and while the
call waits no other channel reports to be connected before this one does. -/
def OwnSignal (s : Link) : Label → Prop
  | .setup _ c => s.members.channel c = none → s.connectEvent = false
  | .channelStateChange id true => ∀ w ch, s.call = some w → w.found = .nothing → w.waited = none →
      s.members.channel w.channel = some ch → id = ch.id ∨ s.reported ch.id = true
  | _ => True

/-- What a run keeps. -/
structure Honest (s : Link) : Prop where
  named : ∀ w, s.call = some w → ∃ ch, s.members.channel w.channel = some ch ∧ ch.name = w.pvName
  own : ∀ w ch, s.call = some w → w.found = .nothing → s.members.channel w.channel = some ch →
    (w.waited = none ∧ s.connectEvent = true) ∨ w.waited = some true → s.reported ch.id = true

variable {registered : Bool} {s s' : Link}

theorem channelStateChange_honest (h : s.Honest) {id : Nat} {connected : Bool}
    (own : s.OwnSignal (.channelStateChange id connected)) : (s.channelStateChange id connected).Honest := by
  have monotone : ∀ i, s.reported i = true → (s.channelStateChange id connected).reported i = true := by
    intro i before
    simp only [channelStateChange]
    split
    · by_cases here : i = id
      · simp [here]
      · simpa [here] using before
    · exact before
  refine ⟨h.named, fun w ch call found there signalled => ?_⟩
  rcases signalled with ⟨waits, full⟩ | woken
  · cases connected with
    | false =>
      have full : s.connectEvent = true := by simpa [channelStateChange] using full
      exact monotone ch.id (h.own w ch call found there (.inl ⟨waits, full⟩))
    | true =>
      rcases own w ch call found waits there with rfl | before
      · simp [channelStateChange]
      · exact monotone ch.id before
  · exact monotone ch.id (h.own w ch call found there (.inr woken))

/-- The channel a call has opened. -/
theorem openChannel_channel (m : Channels) (pvName : String) (c : Nat) :
    ∃ ch, (m.openChannel pvName c).1.channel c = some ch ∧ ch.name = pvName ∧
      ((m.openChannel pvName c).2 = .nothing → m.channel c = none) := by
  unfold Channels.openChannel
  split
  · rename_i fresh
    exact ⟨⟨m.created, pvName⟩, Function.update_self .., rfl, fun _ => fresh⟩
  · rename_i ch there
    split
    · exact ⟨⟨m.created, pvName⟩, Function.update_self .., rfl, fun found => by cases found⟩
    · rename_i same
      exact ⟨ch, there, by simpa using same, fun found => by cases found⟩

theorem setup_honest {pvName : String} {c : Nat} (own : s.OwnSignal (.setup pvName c)) :
    (s.setup pvName c).Honest := by
  obtain ⟨ch, there, name, fresh⟩ := openChannel_channel s.members pvName c
  refine ⟨fun w call => ?_, fun w ch' call found there' signalled => ?_⟩
  · cases call
    exact ⟨ch, there, name⟩
  · cases call
    have found : (s.members.openChannel pvName c).2 = .nothing := found
    have empty := own (fresh found)
    rcases signalled with ⟨-, full⟩ | woken
    · have full : s.connectEvent = true := full
      rw [empty] at full
      cases full
    · simp [found] at woken

/-- Every step by which a first channel gets no event but its own keeps that. -/
theorem step_honest {l : Label} (h : s.Honest) (own : s.OwnSignal l) (hs : s.step registered l = some s') :
    s'.Honest := by
  cases l with
  | channelStateChange id connected =>
    simp only [step] at hs
    split at hs <;> cases hs
    exact channelStateChange_honest h own
  | setup pvName c =>
    simp only [step] at hs
    split at hs
    · cases hs
    · split at hs <;> cases hs
      · exact h
      · exact setup_honest own
  | wake =>
    simp only [step] at hs
    split at hs
    · rename_i pvName c found call
      split at hs <;> cases hs
      rename_i full
      refine ⟨fun w called => ?_, fun w ch called found there _ => ?_⟩
      · cases called
        exact h.named ⟨pvName, c, found, none⟩ call
      · cases called
        exact h.own _ ch call found there (.inl ⟨rfl, full⟩)
    · cases hs
  | timeout =>
    simp only [step] at hs
    split at hs
    · rename_i pvName c found call
      split at hs <;> cases hs
      refine ⟨fun w called => ?_, fun w ch called found there signalled => ?_⟩
      · cases called
        exact h.named ⟨pvName, c, found, none⟩ call
      · cases called
        simp at signalled
    · cases hs
  | finish isConnected =>
    simp only [step] at hs
    split at hs
    · obtain ⟨waited, -, rfl⟩ := Option.map_eq_some_iff.1 hs
      refine ⟨?_, ?_⟩
      · intro w called
        cases called
      · intro w ch called
        cases called
    · cases hs

/-- **Success means connected.** If a first channel only ever gets its own event, and a channel answers truly
whether it is connected, then whenever a call returns `asynSuccess`, its channel has the PV name of the call and has
itself reported to be connected. -/
theorem connected_on_success {ls : List Label} {w : Waiting} {waited isConnected : Bool}
    (reached : Runs.run (step registered) init ls = some s) (meets : Runs.Meets (step registered) OwnSignal init ls)
    (call : s.call = some w) (returns : w.waited = some waited) (truly : s.AnswersTruly w.channel isConnected)
    (success : (s.finish w waited isConnected).2 = .ok ()) :
    ∃ ch, (s.finish w waited isConnected).1.channel w.channel = some ch ∧ ch.name = w.pvName ∧
      s.reported ch.id = true := by
  have honest : s.Honest := by
    refine Runs.run_invariant_of_meets Honest (fun _ _ _ => step_honest) reached meets ⟨?_, ?_⟩
    · intro w call
      cases call
    · intro w ch call
      cases call
  obtain ⟨ch, there, name⟩ := honest.named w call
  refine ⟨ch, ?_, name, ?_⟩
  · rw [finish, Channels.finish_channel]
    exact there
  · have status : connectStatus w waited isConnected = true := by
      by_contra down
      simp [finish, Channels.finish, down] at success
    unfold connectStatus at status
    split at status
    · rename_i found
      exact honest.own w ch call found there (.inr (returns.trans (congrArg some status)))
    · exact truly status ch there

/-- The condition, evaluated. -/
def ownCheck (s : Link) : Label → Bool
  | .setup _ c => (s.members.channel c).isSome || !s.connectEvent
  | .channelStateChange id true =>
    s.call.all fun w => (s.members.channel w.channel).all fun ch => id == ch.id || s.reported ch.id
  | _ => true

theorem ownSignal_of_check (s : Link) (l : Label) (h : s.ownCheck l = true) : s.OwnSignal l := by
  cases l with
  | setup pvName c =>
    intro fresh
    simpa [ownCheck, fresh] using h
  | channelStateChange id connected =>
    cases connected with
    | false => trivial
    | true =>
      intro w ch call _ _ there
      simpa [ownCheck, call, there] using h
  | wake => trivial
  | timeout => trivial
  | finish isConnected => trivial

/-- A first channel that connects while the call for it waits. -/
def firstConnection : List Label := [.setup "A" 0, .channelStateChange 0 true, .wake]

/-- A second call with the same name: it is the channel that is asked. -/
def secondCall : List Label := firstConnection ++ [.finish false, .setup "A" 0]

/-- Both calls return `asynSuccess`, and the channel has reported. -/
theorem connected_on_success_firstConnection :
    (∃ s w, Runs.run (step true) init firstConnection = some s ∧ s.call = some w ∧
      (s.finish w true false).2 = .ok () ∧ ∃ ch, (s.finish w true false).1.channel w.channel = some ch ∧
        ch.name = w.pvName ∧ s.reported ch.id = true) ∧
    ∃ s w, Runs.run (step true) init secondCall = some s ∧ s.call = some w ∧
      (s.finish w false true).2 = .ok () ∧ ∃ ch, (s.finish w false true).1.channel w.channel = some ch ∧
        ch.name = w.pvName ∧ s.reported ch.id = true := by
  constructor
  · obtain ⟨s, reached⟩ : ∃ s, Runs.run (step true) init firstConnection = some s := ⟨_, rfl⟩
    obtain ⟨w, call, returns, success⟩ :
        ∃ w, s.call = some w ∧ w.waited = some true ∧ (s.finish w true false).2 = .ok () := by
      cases reached
      exact ⟨_, rfl, rfl, rfl⟩
    have meets : Runs.Meets (step true) OwnSignal init firstConnection :=
      Runs.meets_of_checks ownSignal_of_check rfl
    exact ⟨s, w, reached, call, success, connected_on_success reached meets call returns nofun success⟩
  · obtain ⟨s, reached⟩ : ∃ s, Runs.run (step true) init secondCall = some s := ⟨_, rfl⟩
    obtain ⟨w, call, returns, success⟩ :
        ∃ w, s.call = some w ∧ w.waited = some false ∧ (s.finish w false true).2 = .ok () := by
      cases reached
      exact ⟨_, rfl, rfl, rfl⟩
    have meets : Runs.Meets (step true) OwnSignal init secondCall := Runs.meets_of_checks ownSignal_of_check rfl
    have truly : s.AnswersTruly w.channel true := by
      cases reached
      cases call
      intro _ ch there
      cases there
      rfl
    exact ⟨s, w, reached, call, success, connected_on_success reached meets call returns truly success⟩

/-- Channel 0 is set up, loses its connection and gets it back; then a call is made for
channel 1. -/
def reconnection : List Label :=
  firstConnection ++ [.finish true, .channelStateChange 0 false, .channelStateChange 0 true, .setup "B" 1, .wake]

/-- The call for channel 1 returns `asynSuccess` with the event of channel 0, without asking its own channel, which
is not connected and never was. -/
theorem success_without_connection :
    ∃ s w ch, Runs.run (step true) init reconnection = some s ∧ s.call = some w ∧ w.waited = some true ∧
      (s.finish w true false).2 = .ok () ∧ (s.finish w true false).1.channel w.channel = some ch ∧
      w.channel = 1 ∧ ch.name = "B" ∧ s.connected ch.id = false ∧ s.reported ch.id = false :=
  ⟨_, _, _, rfl, rfl, rfl, rfl, rfl, rfl, rfl, rfl, rfl⟩

end Link

end ADnED
