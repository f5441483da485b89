import ADnED.Driver.Ledger
import ADnED.Lib.Word32

/-!
# Missing packets

`SeqIDNumMissing` should be the number of sequence IDs a channel has skipped, and
`SeqIDMissing` the first ID of the last gap. The handler adds `seqID - last + 1` at a gap, where
`seqID - last - 1` IDs are missing, so it counts two too many at each one
(`foldl_note`). `missing_exact_iff` says for which sequences the readbacks
are right all the same.
-/

namespace ADnED

/-! ## Gaps in a sequence -/

/-- The number of IDs between the first and the last that do not occur. -/
def skipped : List Int → Int
  | [] => 0
  | s :: rest => (rest.getLastD s - s + 1) - (rest.length + 1 : Nat)

/-- The number of gaps. -/
def gaps : List Int → Nat
  | s :: t :: rest => (if t = s + 1 then 0 else 1) + gaps (t :: rest)
  | _ => 0

/-- The first ID of the last gap. -/
def lastGap : List Int → Option Int
  | s :: t :: rest => (lastGap (t :: rest)).or (if t = s + 1 then none else some (s + 1))
  | _ => none

theorem skipped_cons (s t : Int) (rest : List Int) : skipped (s :: t :: rest) = (t - s - 1) + skipped (t :: rest) := by
  simp only [skipped, List.getLastD_cons, List.length_cons]
  omega

/-- Sequence IDs as the sequence number of a packet can be. -/
structure Rising (ids : List Int) : Prop where
  bounds : ∀ s ∈ ids, 0 ≤ s ∧ s < 2 ^ 31 - 1
  increasing : ids.Pairwise (· < ·)

theorem Rising.tail {s : Int} {ids : List Int} (h : Rising (s :: ids)) : Rising ids :=
  ⟨fun t ht => h.bounds t (List.mem_cons_of_mem s ht), h.increasing.of_cons⟩

/-- What is skipped, and two more for each gap, stays below `2^32`. -/
theorem Rising.skipped_bounds {s : Int} {ids : List Int} (h : Rising (s :: ids)) :
    0 ≤ skipped (s :: ids) ∧ skipped (s :: ids) < 2 ^ 31 - 1 - s ∧
      2 * (skipped (s :: ids) + 2 * gaps (s :: ids)) ≤ 3 * (2 ^ 31 - 1 - s) ∧
      (gaps (s :: ids) = 0 → skipped (s :: ids) = 0) := by
  induction ids generalizing s with
  | nil =>
    have bound := h.bounds s (by simp)
    simp only [skipped, gaps, List.getLastD_nil, List.length_nil]
    omega
  | cons t ids ih =>
    have next := ih h.tail
    have order : s < t := List.rel_of_pairwise_cons h.increasing (by simp)
    rw [skipped_cons, gaps]
    split_ifs <;> omega

theorem Rising.skipped_range {ids : List Int} (h : Rising ids) :
    0 ≤ skipped ids ∧ skipped ids < 2 ^ 31 ∧ skipped ids + 2 * gaps ids < 2 ^ 32 ∧
      (gaps ids = 0 → skipped ids = 0) := by
  cases ids with
  | nil => simp [skipped, gaps]
  | cons s ids =>
    have first := h.bounds s (by simp)
    have range := h.skipped_bounds
    omega

/-- A gap of the end of a sequence is one of the sequence. -/
theorem lastGap_append {before after : List Int} {g : Int} (h : lastGap after = some g) :
    lastGap (before ++ after) = some g := by
  induction before with
  | nil => exact h
  | cons s before ih =>
    cases rest : before ++ after with
    | nil =>
      rw [rest] at ih
      cases ih
    | cons t rest' =>
      rw [List.cons_append, rest, lastGap, ← rest, ih]
      rfl

theorem lastGap_of_gaps {ids : List Int} (h : gaps ids ≠ 0) : ∃ g, lastGap ids = some g := by
  induction ids using gaps.induct with
  | case1 s t rest ih =>
    cases later : lastGap (t :: rest) with
    | some g => exact ⟨g, by rw [lastGap, later]; rfl⟩
    | none =>
      have none_later : gaps (t :: rest) = 0 := by
        by_contra more
        obtain ⟨g, found⟩ := ih more
        rw [later] at found
        cases found
      have here : t ≠ s + 1 := by
        intro follows
        rw [gaps, none_later, if_pos follows] at h
        exact h rfl
      exact ⟨s + 1, by rw [lastGap, later, if_neg here]; rfl⟩
  | case2 ids short => exact absurd (by rw [gaps]; exact short) h

/-! ## What the ledger says -/

/-- The sequence ID of a time stamp. -/
def TimeStamp.id (ts : TimeStamp) : Int := ts.userTag.toInt

/-- A stamp before the epoch is dropped. -/
theorem filter_epoch_early {ts : TimeStamp} (early : ts.nanos < 0) (stamps : List TimeStamp) :
    (ts :: stamps).filter (0 ≤ ·.nanos) = stamps.filter (0 ≤ ·.nanos) := by
  rw [List.filter_cons_of_neg]
  simpa using early

/-- If the first stamp is not before the epoch, none of those behind it is. -/
theorem filter_epoch_late {ts : TimeStamp} {stamps : List TimeStamp} (late : ¬ ts.nanos < 0)
    (order : (ts :: stamps).Pairwise (·.nanos ≤ ·.nanos)) :
    (ts :: stamps).filter (0 ≤ ·.nanos) = ts :: stamps := by
  rw [List.filter_eq_self]
  intro ts' mem
  simp only [decide_eq_true_eq]
  rcases List.mem_cons.1 mem with rfl | mem
  · omega
  · have above : ts.nanos ≤ ts'.nanos := List.rel_of_pairwise_cons order mem
    omega

namespace Ledger

/-- A sequence ID after `s`. -/
theorem noteSeqID_after {l : Ledger} {s t : Int} {tag : Int32} (last : (l.lastSeqID.toNat : Int) = s)
    (id : tag.toInt = t) (high : t < 2 ^ 31 - 1) (order : s < t) :
    ((l.noteSeqID tag.toUInt32).lastSeqID.toNat : Int) = t ∧
      (l.noteSeqID tag.toUInt32).last = l.last ∧
      (l.noteSeqID tag.toUInt32).missing.toInt = (if t = s + 1 then l.missing.toInt else s + 1) ∧
      (l.noteSeqID tag.toUInt32).numMissing.toUInt32 =
        l.numMissing.toUInt32 + UInt32.ofNat (if t = s + 1 then 0 else (t - s + 1).toNat) := by
  have tagged : tag.toUInt32.toNat = t.toNat := by
    rw [Word32.toNat_toUInt32_of_nonneg (by omega), id]
  have next : (l.lastSeqID + 1).toNat = (s + 1).toNat := by
    rw [UInt32.toNat_add, UInt32.toNat_one]
    omega
  have valid : l.lastSeqID.toInt32 ≠ -1 := by
    intro none
    have signed := Word32.toInt_toInt32_of_lt (x := l.lastSeqID) (by omega)
    rw [none] at signed
    have minus : (-1 : Int32).toInt = -1 := rfl
    omega
  have follows : tag.toUInt32 = l.lastSeqID + 1 ↔ t = s + 1 := by
    rw [← UInt32.toNat_inj, tagged, next]
    omega
  by_cases gap : t = s + 1
  · have none : ¬ (l.lastSeqID.toInt32 ≠ -1 ∧ tag.toUInt32 ≠ l.lastSeqID + 1) :=
      fun h => h.2 (follows.2 gap)
    simp only [noteSeqID, if_neg none, if_pos gap]
    refine ⟨by omega, trivial, trivial, by simp⟩
  · have some_gap : l.lastSeqID.toInt32 ≠ -1 ∧ tag.toUInt32 ≠ l.lastSeqID + 1 :=
      ⟨valid, fun h => gap (follows.1 h)⟩
    have added : tag.toUInt32 - l.lastSeqID + 1 = UInt32.ofNat (t - s + 1).toNat := by
      apply UInt32.toNat_inj.1
      rw [UInt32.toNat_add, UInt32.toNat_sub, UInt32.toNat_one, UInt32.toNat_ofNat']
      omega
    simp only [noteSeqID, if_pos some_gap, if_neg gap]
    refine ⟨by omega, trivial, ?_, ?_⟩
    · rw [Word32.toInt_toInt32_of_lt (by omega), next]
      omega
    · rw [UInt32.toUInt32_toInt32, added]

theorem note_forwards {l : Ledger} {ts : TimeStamp} (forwards : ¬ ts.nanos < l.last) :
    l.note (some ts) =
      { l with seqCounter := l.seqCounter + 1, last := ts.nanos }.noteSeqID ts.userTag.toUInt32 :=
  if_neg forwards

/-- The first packet after a clear finds no ID to compare its own with. -/
theorem note_first {l : Ledger} (none : l.lastSeqID = -1) {ts : TimeStamp} (forwards : ¬ ts.nanos < l.last) :
    l.note (some ts) =
      { l with
        seqCounter := l.seqCounter + 1, last := ts.nanos
        seqID := ts.userTag.toUInt32, lastSeqID := ts.userTag.toUInt32 } := by
  have sentinel : ¬ (l.lastSeqID.toInt32 ≠ -1 ∧ ts.userTag.toUInt32 ≠ l.lastSeqID + 1) := by
    simp [none]
  rw [note_forwards forwards]
  exact if_neg sentinel

/-- After a packet with the ID `s`, the packets with the IDs `ids`. -/
theorem foldl_note {l : Ledger} {s : Int} (last : (l.lastSeqID.toNat : Int) = s)
    {xs : List (Option TimeStamp)} (order : (xs.filterMap id).Pairwise (·.nanos ≤ ·.nanos))
    (later : ∀ ts ∈ xs.filterMap id, l.last ≤ ts.nanos) (rising : Rising (s :: (xs.filterMap id).map TimeStamp.id)) :
    (xs.foldl note l).missing.toInt =
        (lastGap (s :: (xs.filterMap id).map TimeStamp.id)).getD l.missing.toInt ∧
      (xs.foldl note l).numMissing.toUInt32 = l.numMissing.toUInt32 +
        UInt32.ofNat (skipped (s :: (xs.filterMap id).map TimeStamp.id) +
          2 * gaps (s :: (xs.filterMap id).map TimeStamp.id)).toNat := by
  induction xs generalizing l s with
  | nil => simp [lastGap, gaps, skipped]
  | cons x xs ih =>
    cases x with
    | none => exact ih (l := l.note none) last order later rising
    | some ts =>
      have known : (some ts :: xs).filterMap id = ts :: xs.filterMap id := rfl
      rw [known] at order later rising ⊢
      rw [List.map_cons] at rising ⊢
      have forwards : ¬ ts.nanos < l.last := Int.not_lt.2 (later ts (by simp))
      have noted := note_forwards forwards
      have bound := rising.bounds ts.id (by simp)
      have above : s < ts.id := List.rel_of_pairwise_cons rising.increasing (by simp)
      obtain ⟨last', stamp, missing, number⟩ := noteSeqID_after (t := ts.id)
        (l := { l with seqCounter := l.seqCounter + 1, last := ts.nanos }) last rfl bound.2 above
      rw [← noted] at last' stamp missing number
      have after : ∀ ts' ∈ xs.filterMap id, (l.note (some ts)).last ≤ ts'.nanos := by
        intro ts' mem
        rw [stamp]
        exact List.rel_of_pairwise_cons order mem
      obtain ⟨gap, total⟩ := ih last' order.of_cons after rising.tail
      have low := rising.tail.skipped_bounds.1
      rw [List.foldl_cons, gap, total, missing, number, lastGap, gaps, skipped_cons]
      constructor
      · cases lastGap (ts.id :: (xs.filterMap id).map TimeStamp.id) with
        | some g => rfl
        | none =>
          change (if ts.id = s + 1 then l.missing.toInt else s + 1) =
            (if ts.id = s + 1 then none else some (s + 1)).getD l.missing.toInt
          split_ifs <;> rfl
      · rw [UInt32.add_assoc, ← UInt32.ofNat_add]
        congr 2
        split_ifs <;> omega

/-- From a cleared ledger, packets of which those stamped before the epoch are rejected. -/
theorem foldl_note_cleared {l : Ledger} (none : l.lastSeqID = -1) (epoch : l.last = 0) (gap : l.missing = 0)
    (number : l.numMissing = 0) {xs : List (Option TimeStamp)} (order : (xs.filterMap id).Pairwise (·.nanos ≤ ·.nanos))
    (rising : Rising ((xs.filterMap id).map TimeStamp.id)) :
    (xs.foldl note l).missing.toInt =
        (lastGap (((xs.filterMap id).filter (0 ≤ ·.nanos)).map TimeStamp.id)).getD 0 ∧
      (xs.foldl note l).numMissing.toUInt32 =
        UInt32.ofNat (skipped (((xs.filterMap id).filter (0 ≤ ·.nanos)).map TimeStamp.id) +
          2 * gaps (((xs.filterMap id).filter (0 ≤ ·.nanos)).map TimeStamp.id)).toNat := by
  have zero : Int32.toUInt32 0 = 0 := rfl
  induction xs generalizing l with
  | nil => simp [lastGap, gaps, skipped, gap, number, zero]
  | cons x xs ih =>
    cases x with
    | none => exact ih (l := l.note .none) none epoch gap number order rising
    | some ts =>
      have known : (some ts :: xs).filterMap id = ts :: xs.filterMap id := rfl
      rw [known] at order rising ⊢
      rw [List.map_cons] at rising
      by_cases early : ts.nanos < 0
      · have rejected : l.note (some ts) = { l with seqCounter := l.seqCounter + 1, badTimeStamp := 1 } :=
          if_pos (by rw [epoch]; exact early)
        rw [List.foldl_cons, rejected, filter_epoch_early early]
        exact ih none epoch gap number order.of_cons rising.tail
      · have forwards : ¬ ts.nanos < l.last := by rwa [epoch]
        have first := note_first none forwards
        have bound := rising.bounds ts.id (by simp)
        have last : (((l.note (some ts)).lastSeqID).toNat : Int) = ts.id := by
          rw [first]
          change (ts.userTag.toUInt32.toNat : Int) = ts.userTag.toInt
          rw [Word32.toNat_toUInt32_of_nonneg bound.1]
          exact Int.toNat_of_nonneg bound.1
        have after : ∀ ts' ∈ xs.filterMap id, (l.note (some ts)).last ≤ ts'.nanos := by
          intro ts' mem
          rw [first]
          exact List.rel_of_pairwise_cons order mem
        have rest := foldl_note last order.of_cons after rising
        rw [filter_epoch_late early order, List.foldl_cons, List.map_cons]
        rw [first] at rest ⊢
        simpa [gap, number, zero] using rest

end Ledger

/-! ## The readbacks -/

/-- Stamps that do not decrease are first those before the epoch, then the others. -/
theorem filter_epoch_suffix {stamps : List TimeStamp} (order : stamps.Pairwise (·.nanos ≤ ·.nanos)) :
    ∃ early, stamps = early ++ stamps.filter (0 ≤ ·.nanos) := by
  induction stamps with
  | nil => exact ⟨[], rfl⟩
  | cons ts stamps ih =>
    by_cases early : ts.nanos < 0
    · obtain ⟨before, split⟩ := ih order.of_cons
      refine ⟨ts :: before, ?_⟩
      rw [filter_epoch_early early, List.cons_append, ← split]
    · exact ⟨[], by rw [filter_epoch_late early order, List.nil_append]⟩

/-- The time stamps of the packets of a channel. -/
def stampsOn (c : Nat) (inputs : List Input) : List TimeStamp := (packetsOn c inputs).filterMap Packet.timeStamp

/-- The sequence IDs of the packets of a channel. -/
def idsOn (c : Nat) (inputs : List Input) : List Int := (stampsOn c inputs).map TimeStamp.id

/-- The sequence IDs of those packets that the driver looks at: none if a pixel ROI has no
width, else those that are not stamped before the epoch, the time of the clear. -/
def Driver.notedOn (d : Driver) (c : Nat) (inputs : List Input) : List Int :=
  if d.Wide then ((stampsOn c inputs).filter (0 ≤ ·.nanos)).map TimeStamp.id else []

namespace Driver

/-- The readbacks of the missing packets are right for a channel with the sequence IDs `ids`. -/
def MissingExact (d : Driver) (c : Nat) (ids : List Int) : Prop :=
  (d.int c .seqIDNumMissing).toInt = skipped ids ∧
    (d.int c .seqIDNumMissing ≠ 0 → lastGap ids = some (d.int c .seqIDMissing).toInt)

/-- What the readbacks are. -/
theorem run_missing {d d' : Driver} {c : Nat} (channel : c < maxChannels) {inputs : List Input}
    (reached : Runs.run feed d.clearParams inputs = some d')
    (order : (stampsOn c inputs).Pairwise (·.nanos ≤ ·.nanos)) (rising : Rising (idsOn c inputs)) :
    (d'.int c .seqIDMissing).toInt = (lastGap (d.notedOn c inputs)).getD 0 ∧
      (d'.int c .seqIDNumMissing).toUInt32 =
        UInt32.ofNat (skipped (d.notedOn c inputs) + 2 * gaps (d.notedOn c inputs)).toNat := by
  have entered := run_ledger channel reached
  have wide : d.clearParams.Wide ↔ d.Wide :=
    wide_congr (by simp [clearParams, clearedByChannel]) (by simp [clearParams, clearedByChannel])
  simp only [wide, clearParams_ledger d channel] at entered
  have missing : (d'.ledger c).missing = d'.int c .seqIDMissing := rfl
  have number : (d'.ledger c).numMissing = d'.int c .seqIDNumMissing := rfl
  rw [← missing, ← number, entered, notedOn]
  by_cases all : d.Wide
  · have stamps : ((packetsOn c inputs).map Packet.timeStamp).filterMap id = stampsOn c inputs := by
      rw [List.filterMap_map]
      rfl
    rw [← stamps] at order
    rw [idsOn, ← stamps] at rising
    have fold := Ledger.foldl_note_cleared (l := .cleared) rfl rfl rfl rfl order rising
    rw [stamps] at fold
    rw [if_pos all, if_pos all]
    exact fold
  · rw [if_neg all, if_neg all]
    exact ⟨rfl, rfl⟩

/-- **Missing packets.** After a clear and a session in which the time stamps of the channel do
not decrease and its sequence IDs increase, the readbacks of the missing packets are right
if and only if the packets that the driver looks at have half as many gaps as IDs are
skipped before the first of them. So if none is stamped before the epoch, they are right
exactly when no ID is skipped at all. -/
theorem missing_exact_iff {d d' : Driver} {c : Nat} (channel : c < maxChannels) {inputs : List Input}
    (reached : Runs.run feed d.clearParams inputs = some d')
    (order : (stampsOn c inputs).Pairwise (·.nanos ≤ ·.nanos)) (rising : Rising (idsOn c inputs)) :
    d'.MissingExact c (idsOn c inputs) ↔
      2 * (gaps (d.notedOn c inputs) : Int) = skipped (idsOn c inputs) - skipped (d.notedOn c inputs) := by
  obtain ⟨missing, number⟩ := run_missing channel reached order rising
  obtain ⟨early, split⟩ : ∃ early, idsOn c inputs = early ++ d.notedOn c inputs := by
    unfold notedOn
    split_ifs
    · obtain ⟨before, split⟩ := filter_epoch_suffix order
      exact ⟨before.map TimeStamp.id, by rw [← List.map_append, ← split, idsOn]⟩
    · exact ⟨idsOn c inputs, by simp⟩
  have noted : Rising (d.notedOn c inputs) := by
    rw [split] at rising
    exact ⟨fun s mem => rising.bounds s (List.mem_append_right early mem),
      (List.pairwise_append.1 rising.increasing).2.1⟩
  have all := rising.skipped_range
  have some_of_them := noted.skipped_range
  have word := Word32.toNat_toUInt32 (d'.int c .seqIDNumMissing)
  have bounds := Word32.toInt_bounds (d'.int c .seqIDNumMissing)
  rw [number, UInt32.toNat_ofNat'] at word
  constructor
  · rintro ⟨exact_number, -⟩
    omega
  · intro balanced
    have exact_number : (d'.int c .seqIDNumMissing).toInt = skipped (idsOn c inputs) := by omega
    refine ⟨exact_number, fun nonzero => ?_⟩
    have gap : gaps (d.notedOn c inputs) ≠ 0 := by
      intro none
      apply nonzero
      apply Int32.toInt_inj.1
      rw [exact_number, Int32.toInt_zero]
      omega
    obtain ⟨g, last⟩ := lastGap_of_gaps gap
    rw [missing, last, split]
    exact lastGap_append last

end Driver

/-- A packet that carries a time stamp and nothing else. -/
def Packet.stamped (channelID : Nat) (secs : Int) (tag : Int32) : Packet :=
  ⟨channelID, 0, some ⟨secs, 0, tag⟩, none, none, none⟩

namespace Driver

/-- Two packets of channel 0 without a gap, with a pause and a packet of channel 1 in between. -/
def consecutive : List Input :=
  [.packet (.stamped 0 1 5), .pause 1, .packet (.stamped 1 1 9), .packet (.stamped 0 2 6)]

theorem missing_exact_consecutive :
    ∃ d', Runs.run feed (construct .blank).clearParams consecutive = some d' ∧
      d'.MissingExact 0 (idsOn 0 consecutive) := by
  have defined : (Runs.run feed (construct .blank).clearParams consecutive).isSome = true := by decide +kernel
  obtain ⟨d', reached⟩ := Option.isSome_iff_exists.1 defined
  refine ⟨d', reached, (missing_exact_iff (by decide) reached ?_ ⟨?_, ?_⟩).2 (by decide)⟩ <;> decide

/-- Between the IDs 1 and 3 one is missing, but three are counted. -/
theorem missing_overcounted :
    (Runs.run feed (construct .blank).clearParams
        [.packet (.stamped 0 1 1), .packet (.stamped 0 2 3)]).map
      (fun d' => (d'.int 0 .seqIDMissing, d'.int 0 .seqIDNumMissing)) = some (2, 3) ∧
    skipped (idsOn 0 [.packet (.stamped 0 1 1), .packet (.stamped 0 2 3)]) = 1 ∧
    ∀ d', Runs.run feed (construct .blank).clearParams
        [.packet (.stamped 0 1 1), .packet (.stamped 0 2 3)] = some d' →
      ¬ d'.MissingExact 0 (idsOn 0 [.packet (.stamped 0 1 1), .packet (.stamped 0 2 3)]) := by
  have counted : (Runs.run feed (construct .blank).clearParams
        [.packet (.stamped 0 1 1), .packet (.stamped 0 2 3)]).map
      (fun d' => (d'.int 0 .seqIDMissing, d'.int 0 .seqIDNumMissing)) = some (2, 3) := by decide +kernel
  refine ⟨counted, by decide, ?_⟩
  rintro d' reached ⟨number, -⟩
  rw [reached] at counted
  obtain ⟨-, three⟩ : d'.int 0 .seqIDMissing = 2 ∧ d'.int 0 .seqIDNumMissing = 3 := by simpa using counted
  rw [three] at number
  revert number
  decide

end Driver

end ADnED
