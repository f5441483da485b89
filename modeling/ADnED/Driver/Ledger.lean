import ADnED.Driver.Stages

/-!
# The accounts of the channels

`eventHandler` keeps accounts of each channel (the last time stamp, the sequence IDs, the
missing packets) and of the pulses of channel 0. Every packet is entered in the
`Ledger` of its channel, whatever becomes of its events (`eventHandler_ledger`); its
charge is added only if its events are integrated and its time stamp is new
(`eventHandler_pulses`). A session is a sequence of packets on any channels and of
writes to the pause record; `run_ledger` says what it leaves in a ledger.
-/

namespace ADnED

/-- The accounts of one channel. -/
structure Ledger where
  seqCounter : UInt32
  seqID : UInt32
  lastSeqID : UInt32
  last : Int
  missing : Int32
  numMissing : Int32
  badTimeStamp : Int32

namespace Ledger

/-- A channel that has had no packet since the clear. -/
def cleared : Ledger := ⟨0, 0, -1, 0, 0, 0, 0⟩

/-- The sequence ID of a packet. -/
def noteSeqID (l : Ledger) (seqID : UInt32) : Ledger :=
  let l' := { l with seqID := seqID, lastSeqID := seqID }
  if l.lastSeqID.toInt32 ≠ -1 ∧ seqID ≠ l.lastSeqID + 1 then
    { l' with
      missing := (l.lastSeqID + 1).toInt32
      numMissing := (l.numMissing.toUInt32 + (seqID - l.lastSeqID + 1)).toInt32 }
  else l'

/-- A packet with or without a time stamp. -/
def note (l : Ledger) : Option TimeStamp → Ledger
  | none => { l with seqCounter := l.seqCounter + 1 }
  | some ts =>
    let l := { l with seqCounter := l.seqCounter + 1 }
    if ts.nanos < l.last then { l with badTimeStamp := 1 }
    else { l with last := ts.nanos }.noteSeqID ts.userTag.toUInt32

end Ledger

theorem TimeStamp.nanos_put (t ts : TimeStamp) : (t.put ts.secondsPastEpoch ts.nanoseconds).nanos = ts.nanos := rfl

namespace Driver

/-- The accounts of the channel `c`. -/
def ledger (d : Driver) (c : Nat) : Ledger where
  seqCounter := d.seqCounter c
  seqID := d.seqID c
  lastSeqID := d.lastSeqID c
  last := (d.timeStampLast c).nanos
  missing := d.int c .seqIDMissing
  numMissing := d.int c .seqIDNumMissing
  badTimeStamp := d.int c .badTimeStamp

theorem clearParams_ledger (d : Driver) {c : Nat} (channel : c < maxChannels) :
    d.clearParams.ledger c = .cleared := by
  simp [ledger, clearParams, channel, clearedByChannel, Ledger.cleared, TimeStamp.put, TimeStamp.nanos]

theorem noteSeqID_ledger (d : Driver) (c c' : Nat) (seqID : UInt32) :
    (d.noteSeqID c seqID).ledger c' = if c' = c then (d.ledger c).noteSeqID seqID else d.ledger c' := by
  by_cases here : c' = c
  · subst here
    rw [if_pos rfl]
    by_cases gap : (d.lastSeqID c').toInt32 ≠ -1 ∧ seqID ≠ d.lastSeqID c' + 1
    · simp [noteSeqID, Ledger.noteSeqID, ledger, gap.1, gap.2, setInt]
    · have next : (d.ledger c').noteSeqID seqID = { d.ledger c' with seqID := seqID, lastSeqID := seqID } :=
        if_neg gap
      rw [next]
      simp [noteSeqID, if_neg gap, ledger]
  · rw [if_neg here]
    by_cases gap : (d.lastSeqID c).toInt32 ≠ -1 ∧ seqID ≠ d.lastSeqID c + 1
    · simp [noteSeqID, ledger, gap.1, gap.2, setInt, here]
    · simp [noteSeqID, ledger, if_neg gap, here]

/-- The time stamp section enters a packet in the ledger of its channel. -/
theorem stamp_ledger (d : Driver) (p : Packet) (c : Nat) :
    (d.stamp p).ledger c = if c = p.channelID then (d.ledger c).note p.timeStamp else d.ledger c := by
  unfold stamp
  cases stamp : p.timeStamp with
  | none =>
    by_cases here : c = p.channelID
    · subst here
      simp [ledger, countSeq, Ledger.note]
    · simp [ledger, countSeq, here]
  | some ts =>
    by_cases backwards : ts.nanos < (d.timeStampLast p.channelID).nanos
    · by_cases here : c = p.channelID
      · subst here
        simp [noteTimeStamp, backwards, ledger, countSeq, Ledger.note, setInt]
      · simp [noteTimeStamp, backwards, ledger, countSeq, setInt, here]
    · have advanced : ((d.countSeq p.channelID).noteTimeStamp p.channelID ts).1 =
          ({ d.countSeq p.channelID with
            timeStamp := Function.update d.timeStamp p.channelID ts
            timeStampLast := Function.update d.timeStampLast p.channelID
              ((d.timeStampLast p.channelID).put ts.secondsPastEpoch ts.nanoseconds) } : Driver).noteSeqID
            p.channelID ts.userTag.toUInt32 := by
        simp [noteTimeStamp, countSeq, backwards]
      simp only [advanced, noteSeqID_ledger]
      by_cases here : c = p.channelID
      · subst here
        simp [ledger, Ledger.note, countSeq, backwards, TimeStamp.nanos_put]
      · simp [ledger, countSeq, here]

/-- The first stage enters a packet on a valid channel in the ledger of its channel, unless a
pixel ROI without width has ended the function before that. -/
theorem snapshotStep_ledger (d : Driver) (p : Packet) (c : Nat) :
    (d.snapshotStep p).1.ledger c =
      if c = p.channelID ∧ c < maxChannels ∧ d.Wide then (d.ledger c).note p.timeStamp else d.ledger c := by
  obtain ⟨secs, values, step, -⟩ := snapshotStep_eq d p
  rw [step]
  by_cases valid : p.channelID < maxChannels ∧ d.Wide
  · rw [if_pos valid, stamp_ledger]
    by_cases here : c = p.channelID
    · subst here
      rw [if_pos rfl, if_pos ⟨rfl, valid⟩]
      rfl
    · rw [if_neg here, if_neg fun entered => here entered.1]
      rfl
  · rw [if_neg valid, if_neg]
    · rfl
    · rintro ⟨rfl, entered⟩
      exact valid entered

/-- The second stage does not look at the ledgers. -/
theorem integrationStep_ledger {d : Driver} {v : Pending} {r : Driver × Outcome} (h : d.integrationStep v = some r)
    (c : Nat) : r.1.ledger c = d.ledger c := by
  obtain ⟨d', tallied, rfl⟩ := Option.map_eq_some_iff.1 h
  have counted := tally_eq tallied
  have published := publish_published d' v
  rw [ledger, published.int c _ (.inr rfl), published.int c _ (.inr rfl), published.int c _ (.inr rfl),
    published.eq, counted]
  rfl

/-- **The accounts of the channels.** -/
theorem eventHandler_ledger {d : Driver} {p : Packet} {r : Driver × Outcome} (h : d.eventHandler p = some r)
    (c : Nat) : r.1.ledger c = if c = p.channelID ∧ c < maxChannels ∧ d.Wide then (d.ledger c).note p.timeStamp
      else d.ledger c := by
  rw [← snapshotStep_ledger]
  rw [eventHandler_stages] at h
  rcases stage : d.snapshotStep p with ⟨d₁, outcome⟩
  rw [stage] at h
  cases outcome with
  | error o =>
    cases h
    rfl
  | ok v => exact integrationStep_ledger h c

end Driver

/-! ## Sessions -/

/-- What happens to the driver between two clears: packets, and writes to the pause record. -/
inductive Input where
  | pause (value : Int32)
  | packet (p : Packet)

/-- The packet of an input, if it is one of the channel `c`. -/
def Input.packetOn (c : Nat) : Input → Option Packet
  | .packet p => if p.channelID = c then some p else none
  | .pause _ => none

/-- The packets of the channel `c`. -/
def packetsOn (c : Nat) (inputs : List Input) : List Packet := inputs.filterMap (Input.packetOn c)

namespace Driver

/-- One step of a session. -/
def feed (d : Driver) : Input → Option Driver
  | .pause value => some (d.applyInt32 true 0 .pause value).1
  | .packet p => d.deliver p

theorem pause_eq (d : Driver) (value : Int32) : (d.applyInt32 true 0 .pause value).1 = d.storeInt 0 .pause value :=
  rfl

/-- The parameters other than the pause switch and the readbacks stay. -/
theorem feed_int {d d' : Driver} {i : Input} (h : d.feed i = some d') {addr : Nat} {p : IntParam}
    (measured : p.measured = false) (other : p ≠ .pause) : d'.int addr p = d.int addr p := by
  cases i with
  | pause value =>
    cases h
    rw [pause_eq, storeInt]
    split_ifs <;> simp [setInt, other]
  | packet p => exact (deliver_handled h).int addr _ measured

theorem wide_congr {d d' : Driver} (numDet : d'.int 0 .numDet = d.int 0 .numDet)
    (widths : ∀ det, det ≤ maxDets → d'.int det .pixelROISizeX = d.int det .pixelROISizeX) : d'.Wide ↔ d.Wide := by
  have active : d'.active = d.active := by simp only [active, numDetClamped, numDet]
  unfold Wide
  rw [active]
  refine forall₂_congr fun det mem => ?_
  rw [widths det (active_le mem)]

theorem feed_wide {d d' : Driver} {i : Input} (h : d.feed i = some d') : d'.Wide ↔ d.Wide :=
  wide_congr (feed_int h rfl (by decide)) fun _ _ => feed_int h rfl (by decide)

/-- Record writes do not touch the accounts. -/
theorem storeInt_ledger (d : Driver) (addr : Nat) {p : IntParam} (value : Int32) (other : clearedByChannel p = false)
    (c : Nat) : (d.storeInt addr p value).ledger c = d.ledger c := by
  have ne : ∀ q, clearedByChannel q = true → q ≠ p :=
    fun q cleared => ne_of_apply_ne clearedByChannel (by simp [other, cleared])
  have missing := ne .seqIDMissing rfl
  have numMissing := ne .seqIDNumMissing rfl
  have badTimeStamp := ne .badTimeStamp rfl
  unfold storeInt
  split_ifs <;> simp [ledger, setInt, missing, numMissing, badTimeStamp]

/-- What a session leaves in the ledger of a channel. -/
theorem run_ledger {d d' : Driver} {c : Nat} (channel : c < maxChannels) {inputs : List Input}
    (h : Runs.run feed d inputs = some d') :
    d'.ledger c = if d.Wide then ((packetsOn c inputs).map Packet.timeStamp).foldl Ledger.note (d.ledger c)
      else d.ledger c := by
  induction inputs generalizing d with
  | nil =>
    cases h
    simp [packetsOn]
  | cons i inputs ih =>
    obtain ⟨d₁, now, later⟩ := Runs.run_cons_some h
    rw [ih later]
    simp only [feed_wide now]
    cases i with
    | pause value =>
      cases now
      have none : packetsOn c (.pause value :: inputs) = packetsOn c inputs := rfl
      rw [none, pause_eq, storeInt_ledger d 0 value rfl]
    | packet p =>
      obtain ⟨r, handled, rfl⟩ := Option.map_eq_some_iff.1 now
      have entered := eventHandler_ledger handled c
      by_cases wide : d.Wide
      · rw [if_pos wide, if_pos wide, entered]
        by_cases here : p.channelID = c
        · have mem : packetsOn c (.packet p :: inputs) = p :: packetsOn c inputs := by
            simp [packetsOn, Input.packetOn, here]
          rw [mem, if_pos ⟨here.symm, channel, wide⟩]
          rfl
        · have other : packetsOn c (.packet p :: inputs) = packetsOn c inputs := by
            simp [packetsOn, Input.packetOn, here]
          rw [other, if_neg fun entered => here entered.1.symm]
      · rw [if_neg wide, if_neg wide, entered, if_neg fun entered => wide entered.2.2]

end Driver

end ADnED
