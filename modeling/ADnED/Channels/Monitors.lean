import ADnED.Channels.Setup
import Mathlib.Data.List.Induction

/-!
# Monitors and their channels

`setupChannelMonitor` replaces the channel before it knows whether the new one connects,
and the monitor only afterwards. A call that changes the PV name and times out leaves the
monitor of the old channel behind, and a later call with the same name takes it for its
own. `monitor_agrees_iff` says which successful calls end with a monitor on their channel,
in terms of the calls made before; `monitor_on_destroyed_channel` is the shortest sequence
that does not.
-/

namespace ADnED

/-- A call of `setupChannelMonitor`, and whether its channel connects in time. -/
structure Call where
  pvName : String
  channel : Nat
  connects : Bool
  deriving DecidableEq, Repr

/-- The calls for one channel, the last one first. -/
def pastCalls (c : Nat) (calls : List Call) : List Call := (calls.filter (·.channel == c)).reverse

/-- The PV name of the last call. -/
def lastName (past : List Call) : Option String := past.head?.map Call.pvName

/-- The call that brought in the present PV name timed out, and a call before it had connected. -/
def brokenRename : List Call → Bool
  | [] => false
  | k :: earlier =>
    if lastName earlier = some k.pvName then brokenRename earlier
    else !k.connects && earlier.any Call.connects

theorem brokenRename_connected {past : List Call} (h : brokenRename past = true) :
    past.any Call.connects = true := by
  induction past with
  | nil => cases h
  | cons k earlier ih =>
    simp only [brokenRename] at h
    rw [List.any_cons, Bool.or_eq_true]
    right
    split at h
    · exact ih h
    · exact (Bool.and_eq_true_iff.1 h).2

namespace Channels

/-- The members after one more call, whatever its outcome. -/
def call (registered : Bool) (s : Channels) (k : Call) : Channels :=
  (s.setupChannelMonitor registered k.connects k.pvName k.channel).1

/-- The members after the calls. -/
def after (registered : Bool) (calls : List Call) : Channels := calls.foldl (call registered) init

/-- `p_Channel` is a live channel of the PV name of the call, and `p_Monitor` is on it. -/
def Agrees (s : Channels) (k : Call) : Prop :=
  ∃ ch, s.channel k.channel = some ch ∧ ch.name = k.pvName ∧ ch.id ∉ s.destroyed ∧
    s.monitor k.channel = some ch.id

/-! ## What a call does -/

/-- The channel objects are told apart by their ids, and those in use are live. -/
structure Tidy (s : Channels) : Prop where
  channels : ∀ c ch, s.channel c = some ch → ch.id < s.created
  monitors : ∀ c m, s.monitor c = some m → m < s.created
  destroyed : ∀ i ∈ s.destroyed, i < s.created
  live : ∀ c ch, s.channel c = some ch → ch.id ∉ s.destroyed
  apart : ∀ c c' ch ch', s.channel c = some ch → s.channel c' = some ch' → ch.id = ch'.id → c = c'

theorem Tidy.init : Channels.init.Tidy := by
  constructor <;> simp [Channels.init]

/-- A new channel in the place of the one there was, which may have been destroyed. -/
theorem Tidy.replace {s : Channels} (h : s.Tidy) (pvName : String) {c : Nat} {ds : List Nat}
    (old : ∀ i ∈ ds, i ∈ s.destroyed ∨ ∃ ch, s.channel c = some ch ∧ ch.id = i) :
    ({ s with destroyed := ds }.createChannel pvName c).Tidy := by
  have bound : ∀ i ∈ ds, i < s.created := by
    intro i member
    rcases old i member with gone | ⟨ch, there, rfl⟩
    · exact h.destroyed i gone
    · exact h.channels c ch there
  have channel : ∀ c' ch', ({ s with destroyed := ds }.createChannel pvName c).channel c' = some ch' →
      c' = c ∧ ch'.id = s.created ∨ c' ≠ c ∧ s.channel c' = some ch' ∧ ch'.id < s.created := by
    intro c' ch' there
    by_cases here : c' = c
    · subst here
      simp only [createChannel, Function.update_self, Option.some.injEq] at there
      exact .inl ⟨rfl, there ▸ rfl⟩
    · simp only [createChannel, Function.update_of_ne here] at there
      exact .inr ⟨here, there, h.channels c' ch' there⟩
  refine ⟨?_, ?_, ?_, ?_, ?_⟩
  · intro c' ch' there
    show ch'.id < s.created + 1
    rcases channel c' ch' there with ⟨-, new⟩ | ⟨-, -, known⟩ <;> omega
  · intro c' m there
    exact Nat.lt_succ_of_lt (h.monitors c' m there)
  · intro i member
    exact Nat.lt_succ_of_lt (bound i member)
  · intro c' ch' there member
    have before := bound ch'.id member
    rcases channel c' ch' there with ⟨-, new⟩ | ⟨elsewhere, known, -⟩
    · omega
    · rcases old ch'.id member with gone | ⟨ch, replaced, same⟩
      · exact h.live c' ch' known gone
      · exact elsewhere (h.apart c' c ch' ch known replaced same.symm)
  · intro c₁ c₂ ch₁ ch₂ there₁ there₂ same
    rcases channel c₁ ch₁ there₁ with ⟨rfl, new₁⟩ | ⟨-, known₁, old₁⟩ <;>
      rcases channel c₂ ch₂ there₂ with ⟨rfl, new₂⟩ | ⟨-, known₂, old₂⟩
    · rfl
    · omega
    · omega
    · exact h.apart c₁ c₂ ch₁ ch₂ known₁ known₂ same

theorem Tidy.openChannel {s : Channels} (h : s.Tidy) (pvName : String) (c : Nat) :
    (s.openChannel pvName c).1.Tidy := by
  unfold Channels.openChannel
  split
  · exact h.replace pvName fun i member => .inl member
  · rename_i ch there
    split
    · refine h.replace pvName fun i member => ?_
      rcases List.mem_cons.1 member with rfl | gone
      · exact .inr ⟨ch, there, rfl⟩
      · exact .inl gone
    · exact h

theorem Tidy.finish {s : Channels} (h : s.Tidy) (c : Nat) (found : Found) (connectStatus : Bool) :
    (s.finish c found connectStatus).1.Tidy := by
  unfold Channels.finish Channels.createMonitor
  split
  · split
    · refine ⟨h.channels, fun c' m there => ?_, h.destroyed, h.live, h.apart⟩
      by_cases here : c' = c
      · subst here
        simp only [Function.update_self, Option.map_eq_some_iff] at there
        obtain ⟨ch, known, rfl⟩ := there
        exact h.channels c' ch known
      · simp only [Function.update_of_ne here] at there
        exact h.monitors c' m there
    · exact h
  · exact h

theorem Tidy.call {s : Channels} (h : s.Tidy) (registered : Bool) (k : Call) : (s.call registered k).Tidy := by
  unfold Channels.call setupChannelMonitor
  split
  · exact h
  · split
    · exact h
    · exact (h.openChannel k.pvName k.channel).finish k.channel _ k.connects

/-! ## What is left of the past -/

/-- What `p_Channel[c]` and `p_Monitor[c]` say about the calls made for `c`. -/
structure Follows (s : Channels) (c : Nat) (past : List Call) : Prop where
  name : (s.channel c).map Channel.name = lastName past
  monitored : (s.monitor c).isSome = past.any Call.connects
  broken : ∀ ch m, s.channel c = some ch → s.monitor c = some m → (m = ch.id ↔ brokenRename past = false)

/-- A call works on its own channel only. -/
theorem call_other (registered : Bool) (s : Channels) {k : Call} {c : Nat} (other : c ≠ k.channel) :
    (s.call registered k).channel c = s.channel c ∧ (s.call registered k).monitor c = s.monitor c := by
  have opened : (s.openChannel k.pvName k.channel).1.channel c = s.channel c ∧
      (s.openChannel k.pvName k.channel).1.monitor c = s.monitor c := by
    unfold openChannel createChannel
    split
    · exact ⟨Function.update_of_ne other _ _, rfl⟩
    · split
      · exact ⟨Function.update_of_ne other _ _, rfl⟩
      · exact ⟨rfl, rfl⟩
  unfold call setupChannelMonitor
  split
  · exact ⟨rfl, rfl⟩
  · split
    · exact ⟨rfl, rfl⟩
    · simp only [finish, createMonitor]
      split
      · split
        · exact ⟨opened.1, (Function.update_of_ne other _ _).trans opened.2⟩
        · exact opened
      · exact opened

variable {s : Channels} {k : Call} {past : List Call}

theorem Follows.congr {s' : Channels} {c : Nat} (h : s.Follows c past) (channel : s'.channel c = s.channel c)
    (monitor : s'.monitor c = s.monitor c) : s'.Follows c past := by
  refine ⟨?_, ?_, ?_⟩
  · rw [channel]
    exact h.name
  · rw [monitor]
    exact h.monitored
  · rw [channel, monitor]
    exact h.broken

/-- The call puts a new channel into the place, and a monitor on it if it connects. -/
theorem Follows.renamed {s' : Channels} (tidy : s.Tidy) (h : s.Follows k.channel past)
    (name : lastName past ≠ some k.pvName) (channel : s'.channel k.channel = some ⟨s.created, k.pvName⟩)
    (monitor : s'.monitor k.channel = if k.connects then some s.created else s.monitor k.channel) :
    s'.Follows k.channel (k :: past) := by
  refine ⟨?_, ?_, ?_⟩
  · rw [channel]
    rfl
  · rw [monitor, List.any_cons, ← h.monitored]
    cases k.connects <;> rfl
  · intro ch m there on
    rw [channel, Option.some.injEq] at there
    subst there
    rw [brokenRename, if_neg name, ← h.monitored]
    cases connects : k.connects with
    | true =>
      rw [monitor, connects, if_pos rfl, Option.some.injEq] at on
      simp [on]
    | false =>
      rw [monitor, connects, if_neg Bool.false_ne_true] at on
      have older := tidy.monitors k.channel m on
      simp only [on, Option.isSome_some, Bool.not_false, Bool.and_self, Bool.true_eq_false, iff_false]
      omega

/-- The call keeps the channel, and gives it a monitor if it connects and there is none. -/
theorem Follows.kept {s' : Channels} {ch : Channel} (h : s.Follows k.channel past)
    (there : s.channel k.channel = some ch) (name : ch.name = k.pvName)
    (channel : s'.channel k.channel = some ch)
    (monitor : s'.monitor k.channel =
      if k.connects = true ∧ s.monitor k.channel = none then some ch.id else s.monitor k.channel) :
    s'.Follows k.channel (k :: past) := by
  have last : lastName past = some k.pvName := by
    rw [← h.name, there]
    exact congrArg some name
  refine ⟨?_, ?_, ?_⟩
  · rw [channel]
    exact congrArg some name
  · rw [monitor, List.any_cons, ← h.monitored]
    cases k.connects <;> cases s.monitor k.channel <;> rfl
  · intro ch' m there' on
    rw [channel, Option.some.injEq] at there'
    subst there'
    rw [brokenRename, if_pos last]
    rw [monitor] at on
    split at on
    · rename_i new
      cases on
      -- without a monitor no call had connected, so no rename has left one behind
      have unbroken : brokenRename past ≠ true := by
        intro broken
        have connected := brokenRename_connected broken
        rw [← h.monitored, new.2] at connected
        cases connected
      simpa using unbroken
    · exact h.broken ch m there on

/-- Every call is one more in the past of its channel. -/
theorem call_follows (tidy : s.Tidy) (inRange : k.channel < maxChannels) (h : s.Follows k.channel past) :
    (s.call true k).Follows k.channel (k :: past) := by
  have called : s.call true k = ((s.openChannel k.pvName k.channel).1.finish k.channel
      (s.openChannel k.pvName k.channel).2 k.connects).1 := by
    rw [call, setupChannelMonitor, if_neg (by omega), if_neg (by simp)]
  cases there : s.channel k.channel with
  | none =>
    have name : lastName past = none := by
      rw [← h.name, there]
      rfl
    have fresh : s.monitor k.channel = none := by
      have none : past = [] := by simpa [lastName] using name
      have monitored := h.monitored
      rw [none] at monitored
      simpa using monitored
    have opened : s.openChannel k.pvName k.channel = (s.createChannel k.pvName k.channel, .nothing) := by
      simp only [openChannel, there]
    rw [called, opened]
    refine h.renamed tidy (by simp [name]) ?_ ?_
    · rw [finish_channel]
      exact Function.update_self ..
    · rw [finish_monitor]
      simp [createChannel, fresh]
  | some ch =>
    by_cases name : ch.name = k.pvName
    · have opened : s.openChannel k.pvName k.channel = (s, .sameName) := by
        simp only [openChannel, there]
        rw [if_neg (by simpa using name)]
      rw [called, opened]
      refine h.kept there name ?_ ?_
      · rw [finish_channel]
        exact there
      · rw [finish_monitor, there]
        simp [Found.newMonitor]
    · have opened : s.openChannel k.pvName k.channel =
          ({ s with destroyed := ch.id :: s.destroyed }.createChannel k.pvName k.channel, .otherName) := by
        simp only [openChannel, there]
        rw [if_pos name]
      have last : lastName past ≠ some k.pvName := by
        rw [← h.name, there]
        simpa using name
      rw [called, opened]
      refine h.renamed tidy last ?_ ?_
      · rw [finish_channel]
        exact Function.update_self ..
      · rw [finish_monitor]
        simp [createChannel, Found.newMonitor]

theorem after_append (registered : Bool) (calls : List Call) (k : Call) :
    after registered (calls ++ [k]) = (after registered calls).call registered k := by
  rw [after, List.foldl_append]
  rfl

theorem after_tidy (registered : Bool) (calls : List Call) : (after registered calls).Tidy := by
  induction calls using List.reverseRecOn with
  | nil => exact .init
  | append_singleton calls k ih =>
    rw [after_append]
    exact ih.call registered k

theorem pastCalls_append (c : Nat) (calls : List Call) (k : Call) :
    pastCalls c (calls ++ [k]) = if k.channel = c then k :: pastCalls c calls else pastCalls c calls := by
  unfold pastCalls
  split <;> simp_all

/-- After any calls, the channel and its monitor follow the calls made for them. -/
theorem after_follows (calls : List Call) {c : Nat} (inRange : c < maxChannels) :
    (after true calls).Follows c (pastCalls c calls) := by
  induction calls using List.reverseRecOn with
  | nil => exact ⟨rfl, rfl, fun ch m there => by cases there⟩
  | append_singleton calls k ih =>
    rw [after_append, pastCalls_append]
    split
    · rename_i here
      subst here
      exact call_follows (after_tidy true calls) inRange ih
    · rename_i elsewhere
      have same := call_other true (after true calls) (k := k) (Ne.symm elsewhere)
      exact ih.congr same.1 same.2

/-- A call that succeeds is one for a channel in range that connects. -/
theorem setupChannelMonitor_ok {registered connects : Bool} {pvName : String} {c : Nat}
    (success : (s.setupChannelMonitor registered connects pvName c).2 = .ok ()) :
    registered = true ∧ connects = true ∧ c < maxChannels := by
  unfold setupChannelMonitor at success
  split at success
  · cases success
  · split at success
    · cases success
    · cases connects with
      | false => cases success
      | true => exact ⟨by simp_all, rfl, by omega⟩

/-- **Monitors and channels agree.** After any calls, a call that returns `asynSuccess` ends
with a monitor on its own live channel if and only if it changes the PV name of its channel, or
the call that brought in the present name had connected, or no call before that one had. -/
theorem monitor_agrees_iff {registered : Bool} {calls : List Call} {k : Call}
    (success : ((after registered calls).setupChannelMonitor registered k.connects k.pvName k.channel).2 = .ok ()) :
    (after registered (calls ++ [k])).Agrees k ↔
      ¬(lastName (pastCalls k.channel calls) = some k.pvName ∧ brokenRename (pastCalls k.channel calls) = true) := by
  obtain ⟨rfl, connects, inRange⟩ := setupChannelMonitor_ok success
  have tidy := after_tidy true (calls ++ [k])
  have follows := after_follows (calls ++ [k]) inRange
  rw [pastCalls_append, if_pos rfl] at follows
  obtain ⟨ch, there, name⟩ : ∃ ch, (after true (calls ++ [k])).channel k.channel = some ch ∧ ch.name = k.pvName :=
    Option.map_eq_some_iff.1 follows.name
  obtain ⟨m, on⟩ : ∃ m, (after true (calls ++ [k])).monitor k.channel = some m := by
    apply Option.isSome_iff_exists.1
    rw [follows.monitored, List.any_cons, connects]
    rfl
  have agrees : (after true (calls ++ [k])).Agrees k ↔ m = ch.id := by
    constructor
    · rintro ⟨ch', there', -, -, on'⟩
      rw [there] at there'
      rw [on] at on'
      cases there'
      exact Option.some.inj on'
    · rintro rfl
      exact ⟨ch, there, name, tidy.live k.channel ch there, on⟩
  rw [agrees, follows.broken ch m there on, brokenRename, connects]
  split <;> simp_all

/-- A channel that is given another PV name, both times with a connection. -/
theorem monitor_agrees_renamed :
    (after true ([⟨"A", 0, true⟩] ++ [⟨"B", 0, true⟩])).Agrees ⟨"B", 0, true⟩ :=
  (monitor_agrees_iff rfl).2 (by decide)

/-- The name B is brought in by a call that times out; the next call for B succeeds with the
monitor of A, whose channel is destroyed. -/
theorem monitor_on_destroyed_channel :
    ((after true [⟨"A", 0, true⟩, ⟨"B", 0, false⟩]).setupChannelMonitor true true "B" 0).2 = .ok () ∧
      (after true [⟨"A", 0, true⟩, ⟨"B", 0, false⟩, ⟨"B", 0, true⟩]).channel 0 = some ⟨1, "B"⟩ ∧
      (after true [⟨"A", 0, true⟩, ⟨"B", 0, false⟩, ⟨"B", 0, true⟩]).monitor 0 = some 0 ∧
      (after true [⟨"A", 0, true⟩, ⟨"B", 0, false⟩, ⟨"B", 0, true⟩]).destroyed = [0] ∧
      ¬(after true [⟨"A", 0, true⟩, ⟨"B", 0, false⟩, ⟨"B", 0, true⟩]).Agrees ⟨"B", 0, true⟩ := by
  refine ⟨rfl, rfl, rfl, rfl, ?_⟩
  rintro ⟨ch, there, -, -, on⟩
  cases there
  cases on

end Channels

end ADnED
