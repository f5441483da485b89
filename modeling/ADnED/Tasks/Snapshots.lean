import ADnED.Driver.Blocks
import ADnED.Tasks.FrameCopies
import ADnED.Tasks.Rates

/-!
# Handlers between their two stages

`eventHandler` reads the layout before it takes the mutex, and `Monitor::stop()` does not
wait for a call that is being made. `Flights` is the driver with the calls that are between
their two stages; everything else can happen there, a Stop and a new layout included.
`integration_in_block` shows that every increment is made inside the block that `p_Data`
points to by then, if a new layout that is allocated meanwhile leaves room for the old one
(`Roomy`); `integration_past_block` is a run in which it does not.

Mapping and transformation are off, so that the files and the transformation parameters,
whose writes are no steps here, are not read.
-/

namespace ADnED

/-- A packet that arrives. -/
def Label.isPacket : Label → Bool
  | .packet _ => true
  | _ => false

/-- The driver and its threads, and the calls of `eventHandler` that have yet to integrate: a
monitor makes one call at a time. -/
structure Flights where
  sys : Sys
  pending : Nat → Option Pending

namespace Flights

/-- The steps: those of the system other than packets, and the two stages of a call. -/
inductive Act where
  | sys (l : Label)
  | snapshot (p : Packet)
  | integrate (c : Nat)

def init (u : Uninit) : Flights := ⟨.init u, fun _ => none⟩

/-- The step function. Only the second stage waits for the mutex. -/
def step (s : Flights) : Act → Option Flights
  | .sys l => if l.isPacket then none else (s.sys.step l).map fun t => { s with sys := t }
  | .snapshot p =>
    if (s.pending p.channelID).isSome then none
    else
      let r := s.sys.drv.snapshotStep p
      some ⟨{ s.sys with drv := r.1 }, Function.update s.pending p.channelID r.2.toOption⟩
  | .integrate c =>
    (s.pending c).bind fun v =>
      if s.sys.lockFree then
        (s.sys.drv.integrationStep v).map fun r => ⟨{ s.sys with drv := r.1 }, Function.update s.pending c none⟩
      else none

abbrev run (s : Flights) (as : List Act) : Option Flights := Runs.run step s as

variable {s s' : Flights}

theorem step_sys {l : Label} (h : s.step (.sys l) = some s') :
    (∀ p, l ≠ .packet p) ∧ ∃ t, s.sys.step l = some t ∧ s' = { s with sys := t } := by
  simp only [step] at h
  split at h
  · cases h
  · rename_i other
    obtain ⟨t, taken, same⟩ := Option.map_eq_some_iff.1 h
    refine ⟨?_, t, taken, same.symm⟩
    rintro p rfl
    exact other rfl

theorem step_integrate {c : Nat} (h : s.step (.integrate c) = some s') :
    ∃ v r, s.pending c = some v ∧ s.sys.drv.integrationStep v = some r ∧
      s' = ⟨{ s.sys with drv := r.1 }, Function.update s.pending c none⟩ := by
  obtain ⟨v, waiting, h⟩ := Option.bind_eq_some_iff.1 h
  split at h
  · obtain ⟨r, taken, same⟩ := Option.map_eq_some_iff.1 h
    exact ⟨v, r, waiting, taken, same.symm⟩
  · cases h

/-- The condition on a step. A snapshot is taken of a layout that is published, covers the
pixel ranges and has less than `2^31` cells, with mapping and transformation off. While a call
is between its stages, `allocArray` leaves room for the layout it goes by. -/
def Undisturbed (s : Flights) : Act → Prop
  | .sys l => ∀ callocOk, s.sys.allocates l = some callocOk → (∃ c, s.pending c ≠ none) →
      Driver.Roomy callocOk s.sys.drv
  | .snapshot _ => s.sys.drv.Covering
  | .integrate _ => True

/-- The snapshots that are still to be used name regions of the block. -/
def InBlocks (s : Flights) : Prop :=
  ∀ c v, s.pending c = some v → ∀ det ∈ dets v.vars.numDet, s.sys.drv.InBlock det

/-- A step of the system. -/
theorem sys_inBlock {t t' : Sys} {l : Label} {det : Nat} (h : t.drv.InBlock det) (other : ∀ p, l ≠ .packet p)
    (roomy : ∀ callocOk, t.allocates l = some callocOk → Driver.Roomy callocOk t.drv)
    (hs : t.step l = some t') : t'.drv.InBlock det := by
  have values : t'.drv.det = t.drv.det := congrArg Carried.det (Sys.step_carried other hs)
  cases allocates : t.allocates l with
  | none =>
    have same := Sys.step_reconfigures allocates hs
    refine h.mono (congrFun values det) (Driver.blockCells_congr same.size).ge ?_
    rw [same.tofMax]
    exact UInt32.le_refl _
  | some callocOk =>
    have same := Sys.step_allocates allocates hs
    have kept : (t.drv.allocArray callocOk).1.det = t.drv.det := by
      rw [(Driver.allocArray_relaid callocOk t.drv).eq]
    refine (Driver.allocArray_inBlock (roomy callocOk allocates) h).mono ?_
      (Driver.blockCells_congr same.size).ge ?_
    · rw [values, kept]
    · rw [same.tofMax]
      exact UInt32.le_refl _

theorem step_inBlocks {a : Act} (h : s.InBlocks) (undisturbed : s.Undisturbed a) (hs : s.step a = some s') :
    s'.InBlocks := by
  cases a with
  | sys l =>
    obtain ⟨other, t, taken, rfl⟩ := step_sys hs
    intro c v waiting det mem
    have waiting : s.pending c = some v := waiting
    exact sys_inBlock (h c v waiting det mem) other
      (fun callocOk allocates => undisturbed callocOk allocates ⟨c, by simp [waiting]⟩) taken
  | snapshot p =>
    simp only [step] at hs
    split at hs <;> cases hs
    intro c v waiting det mem
    by_cases here : c = p.channelID
    · subst here
      simp only [Function.update_self] at waiting
      cases taken : (s.sys.drv.snapshotStep p).2 with
      | error o => simp [taken, Except.toOption] at waiting
      | ok w =>
        simp only [taken, Except.toOption, Option.some.injEq] at waiting
        subst waiting
        exact Driver.snapshotStep_taken undisturbed taken mem
    · simp only [Function.update_of_ne here] at waiting
      exact Driver.snapshotStep_inBlock undisturbed p (h c v waiting det mem)
  | integrate c =>
    obtain ⟨v, r, -, integrated, rfl⟩ := step_integrate hs
    intro c' v' waiting det mem
    by_cases here : c' = c
    · simp [here] at waiting
    · simp only [Function.update_of_ne here] at waiting
      exact Driver.integrationStep_inBlock (h c' v' waiting det mem) integrated

/-- **The snapshot is not stale.** If snapshots are taken of published layouts, and a layout
that is allocated before a snapshot has been used leaves room for it, then what the second
stage increments is in the block that is there when it runs, at every point of its loop
(`ts`), provided that the binned plots have non-negative cells. -/
theorem integration_in_block {u : Uninit} {as : List Act} {s : Flights} (reached : (init u).run as = some s)
    (undisturbed : Runs.Meets step Undisturbed (init u) as) {c : Nat} {v : Pending}
    (waiting : s.pending c = some v)
    (fits : ∀ det ∈ dets v.vars.numDet, ∀ e ∈ v.events, (s.sys.drv.noteEvents v).BinInside det e)
    {ts : List Turn} (loop : ts <+: turns (dets v.vars.numDet) v.events) {r : LoopVars × List Bump}
    (made : (s.sys.drv.noteEvents v).trace ts .zero = some r) :
    ∀ bump ∈ r.2, 0 ≤ bump.index ∧ bump.index < (s.sys.drv.pData.getD []).length := by
  have inBlocks : s.InBlocks := Runs.run_invariant_of_meets InBlocks (fun _ _ _ => step_inBlocks) reached undisturbed
    (fun c v waiting => by cases waiting)
  refine Driver.trace_in_block (d := s.sys.drv.noteEvents v) (fun t mem => ?_) (fun t mem => ?_) (by decide) made
  · obtain ⟨det, -⟩ := mem_turns.1 (loop.subset mem)
    exact (inBlocks c v waiting t.1 det).mono rfl (Nat.le_refl _) (UInt32.le_refl _)
  · obtain ⟨det, event⟩ := mem_turns.1 (loop.subset mem)
    exact fits t.1 det t.2 event

/-- The condition, evaluated: it does not look for calls in flight. -/
def undisturbedCheck (s : Flights) : Act → Bool
  | .sys l => (s.sys.allocates l).all fun callocOk => s.sys.drv.roomyCheck callocOk
  | .snapshot _ => s.sys.drv.coveringCheck
  | .integrate _ => true

theorem undisturbed_of_check (s : Flights) (a : Act) (h : s.undisturbedCheck a = true) : s.Undisturbed a := by
  cases a with
  | sys l =>
    intro callocOk allocates _
    exact Driver.roomy_of_check (by simpa [undisturbedCheck, allocates] using h)
  | snapshot p => exact Driver.covering_of_check h
  | integrate c => trivial

/-- An acquisition with one detector of ten pixels. -/
def tenPixels : List Label :=
  [.write 0 .numDet 1 true, .write 1 .pixelNumEnd 9 true, .write 1 .pixelROISizeX 1 true] ++
    List.replicate 3 Sys.eventStep ++ [Sys.startWrite] ++ List.replicate 3 Sys.eventStep

/-- A Stop that is handled, and then a layout for the pixels `0..last`. -/
def newLayout (last : Int32) : List Label :=
  [Sys.stopWrite] ++ List.replicate 4 Sys.eventStep ++
    [.write 1 .pixelNumEnd last true, .write 1 .pixelNumSize 0 true, .write 0 .allocSpace 1 true]

/-- The new layout is allocated between the two stages of a call for an event of pixel 9. -/
def overtaken (last : Int32) : List Act :=
  tenPixels.map .sys ++ [.snapshot (Sys.packetAt 1 1 9)] ++ (newLayout last).map .sys

/-- What the call on channel 0 increments, the detectors it looks at, and the plot of the first. -/
def integrates (s : Flights) : Option (List Int × List Nat × Int32) :=
  (s.pending 0).bind fun v =>
    ((s.sys.drv.noteEvents v).trace (turns (dets v.vars.numDet) v.events) .zero).map fun r =>
      (r.2.map Bump.index, dets v.vars.numDet, s.sys.drv.int 1 .twoDType)

/-- A layout with more pixels leaves room for the old one. -/
theorem integration_in_block_larger :
    ∃ s v r, (init .blank).run (overtaken 19) = some s ∧ s.pending 0 = some v ∧
      (s.sys.drv.noteEvents v).trace (turns (dets v.vars.numDet) v.events) .zero = some r ∧
      r.2.map Bump.index = [9, 10] ∧ ∀ bump ∈ r.2, 0 ≤ bump.index ∧ bump.index < (s.sys.drv.pData.getD []).length := by
  have integrates : ((init .blank).run (overtaken 19)).bind integrates = some ([9, 10], [1], 0) := by
    decide +kernel
  obtain ⟨s, reached, integrates⟩ := Option.bind_eq_some_iff.1 integrates
  obtain ⟨v, waiting, integrates⟩ := Option.bind_eq_some_iff.1 integrates
  obtain ⟨r, made, values⟩ := Option.map_eq_some_iff.1 integrates
  simp only [Prod.mk.injEq] at values
  obtain ⟨indices, one, plot⟩ := values
  have undisturbed : Runs.Meets step Undisturbed (init .blank) (overtaken 19) :=
    Runs.meets_of_checks undisturbed_of_check (by decide +kernel)
  refine ⟨s, v, r, reached, waiting, made, indices,
    integration_in_block reached undisturbed waiting ?_ List.prefix_rfl made⟩
  intro det mem e _ _ bin
  rw [one, List.mem_singleton] at mem
  subst mem
  exact absurd plot bin.2.1

/-- With fewer pixels the block is too short. Both layouts cover the pixel range of their time. -/
theorem integration_past_block :
    ∃ s₀ s v r, (init .blank).run (tenPixels.map .sys) = some s₀ ∧ s₀.sys.drv.Covering ∧
      (init .blank).run (overtaken 1) = some s ∧ s.sys.drv.Covering ∧ s.sys.lockFree = true ∧
      s.pending 0 = some v ∧ v.vars.paused = false ∧
      (s.sys.drv.noteEvents v).trace (turns (dets v.vars.numDet) v.events) .zero = some r ∧
      r.2.map Bump.index = [9, 10] ∧ s.sys.drv.pData.map List.length = some 3 := by
  have before : ((init .blank).run (tenPixels.map .sys)).map (fun s => s.sys.drv.coveringCheck) = some true := by
    decide +kernel
  have integrates : ((init .blank).run (overtaken 1)).bind (fun s => s.integrates.map fun values =>
      (values.1, s.sys.drv.coveringCheck, s.sys.lockFree, (s.pending 0).map (·.vars.paused),
        s.sys.drv.pData.map List.length)) = some ([9, 10], true, true, some false, some 3) := by
    decide +kernel
  obtain ⟨s₀, begun, first⟩ := Option.map_eq_some_iff.1 before
  obtain ⟨s, reached, integrates⟩ := Option.bind_eq_some_iff.1 integrates
  obtain ⟨values, integrates, state⟩ := Option.map_eq_some_iff.1 integrates
  obtain ⟨v, waiting, integrates⟩ := Option.bind_eq_some_iff.1 integrates
  obtain ⟨r, made, rfl⟩ := Option.map_eq_some_iff.1 integrates
  simp only [waiting, Option.map_some, Prod.mk.injEq, Option.some.injEq] at state
  obtain ⟨indices, second, free, paused, length⟩ := state
  exact ⟨s₀, s, v, r, begun, Driver.covering_of_check first, reached, Driver.covering_of_check second, free,
    waiting, paused, made, indices, length⟩

end Flights

end ADnED
