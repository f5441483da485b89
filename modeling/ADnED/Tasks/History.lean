import ADnED.Driver.Cells
import ADnED.Lib.Board
import ADnED.Tasks.DataFrame
import ADnED.Tasks.TOFReset

/-!
# The data over whole runs

The driver as a bank of counters. Every request is read as a list of operations on the
cells of the plots: a packet hits the cells of its events, routed by the settings that are
in force when it is handled; a Reset, a Start, the start section of `eventTask` and a new
allocation clear all cells, the reset of a spectrum those of one plot (`Sys.ops`). In every
reachable state that has a layout, and in particular during every acquisition, each cell of
`p_Data` is the counter of that bank modulo `2^32` (`cells_history`), whatever settings were
changed on the way; the totals count the events in the ranges of the detectors since the
last clear (`totals_history`).
-/

namespace ADnED

namespace SameLayout

variable {d d' : Driver} (h : SameLayout d d')
include h

theorem pixelsBelow (n : Nat) : d'.pixelsBelow n = d.pixelsBelow n := by
  induction n with
  | zero => rfl
  | succ n ih => rw [Driver.pixelsBelow, ih, Driver.pixelCells, h.detSize, Driver.pixelsBelow, Driver.pixelCells]

theorem tofCells : d'.tofCells = d.tofCells := by
  rw [Driver.tofCells, h.int 0 .tofMax rfl, Driver.tofCells]

theorem firstCell (det : Nat) (plot : Plot) : d'.firstCell det plot = d.firstCell det plot := by
  cases plot with
  | pixels => exact h.pixelsBelow (det - 1)
  | spectrum => rw [Driver.firstCell, h.numDets, h.pixelsBelow, h.tofCells, Driver.firstCell]

theorem numCells (det : Nat) (plot : Plot) : d'.numCells det plot = d.numCells det plot := by
  cases plot with
  | pixels => rw [Driver.numCells, Driver.pixelCells, h.detSize, Driver.numCells, Driver.pixelCells]
  | spectrum => exact h.tofCells

theorem placed (placed : d.Placed) : d'.Placed where
  toLaidOut := placed.toLaidOut.congr h
  numDets_le := by
    rw [h.numDets]
    exact placed.numDets_le
  sizes := by
    intro det lo hi
    rw [h.numDets] at hi
    rw [h.detSize]
    exact placed.sizes det lo hi
  tofMax_nonneg := by
    rw [h.int 0 .tofMax rfl]
    exact placed.tofMax_nonneg
  total := by
    rw [Driver.totalCells, h.numDets, h.pixelsBelow, h.tofCells]
    exact placed.total

theorem place (c : Cell) : d'.place c = d.place c := by
  rw [Driver.place, h.firstCell, Driver.place]

theorem laysOut (c : Cell) : d'.LaysOut c ↔ d.LaysOut c := by
  rw [Driver.LaysOut, h.numDets, h.numCells, Driver.LaysOut]

end SameLayout

namespace Driver

open Board (Op)

/-- The cells of the layout show these counts, modulo `2^32`. -/
def Shows (d : Driver) (count : Cell → Nat) : Prop :=
  ∃ b, d.pData = some b ∧ ∀ c, d.LaysOut c → b[d.place c]? = some (UInt32.ofNat (count c))

theorem Shows.congr {d d' : Driver} {count : Cell → Nat} (h : d.Shows count) (layout : SameLayout d d')
    (data : d'.pData = d.pData) : d'.Shows count := by
  obtain ⟨b, held, cells⟩ := h
  refine ⟨b, data.trans held, fun c laysOut => ?_⟩
  rw [layout.place]
  exact cells c ((layout.laysOut c).1 laysOut)

/-- A cell of the layout is in the buffer. -/
theorem LaysOut.place_lt {d : Driver} {c : Cell} (h : d.LaysOut c) : d.place c < d.totalCells := by
  have region := d.region_in_buffer h.1 h.2.1 c.plot
  have below := h.2.2
  rw [place]
  omega

/-- After a clear all cells start again. -/
theorem shows_clear {e d' : Driver} (placed : e.Placed) (layout : SameLayout e d')
    (zeroed : d'.pData = e.clearParams.pData) (history : List (Op Cell)) :
    d'.Shows (Board.count (history ++ [.clear fun _ => true])) := by
  refine ⟨_, zeroed.trans (clearParams_data placed), fun c laysOut => ?_⟩
  have inside := ((layout.laysOut c).1 laysOut).place_lt
  rw [layout.place, Board.count_clear, if_pos rfl]
  exact List.getElem?_replicate_of_lt inside

theorem getElem?_zeroCells (b : List UInt32) (first n i : Nat) :
    (zeroCells b first n)[i]? = b[i]?.map fun v => if first ≤ i ∧ i < first + n then 0 else v := by
  rw [zeroCells, List.getElem?_mapIdx]

/-- The reset of a spectrum of the layout zeroes its cells. It does nothing for a TOF range of
one cell. -/
theorem resetTOFRange_placed {d : Driver} (placed : d.Placed) {det : Nat} (lo : 1 ≤ det) (hi : det ≤ d.numDets) :
    d.resetTOFRange det =
      if 0 < d.tofMax then some (d.firstCell det .spectrum, d.numCells det .spectrum) else none := by
  have first := placed.ndArrayTOFStart lo hi
  have cells : d.tofMax.toNat + 1 = d.numCells det .spectrum := placed.tofMax_eq
  have range := placed.tofMax_lt
  have pixels : 0 < d.firstCell det .spectrum := by
    have nonempty := placed.layable.nonempty
    have count := placed.toNat_cellsBelow (Nat.le_refl d.numDets)
    have some_pixel : (d.cellsBelow d.numDets).toNat ≠ 0 := fun zero => nonempty (UInt32.toNat_inj.1 zero)
    rw [firstCell]
    omega
  have start : 0 < d.int det .ndArrayTOFStart := by
    have zero : (0 : Int32).toInt = 0 := rfl
    rw [Int32.lt_iff_toInt_lt]
    omega
  have held : d.pData.isSome = true := by
    obtain ⟨b, data, -⟩ := placed.buffer_length
    rw [data]
    rfl
  have size : (d.tofMax + 1).toNat = d.numCells det .spectrum := by
    rw [UInt32.toNat_add, UInt32.toNat_one]
    omega
  simp only [resetTOFRange, held, start, and_true, size, first, Int.toNat_natCast]

/-- The cells that a reset of the spectrum of `det` clears. -/
def spectrumOps (d : Driver) (det : Nat) : List (Op Cell) :=
  if 0 < d.tofMax then [.clear fun c => decide (c.det = det ∧ c.plot = .spectrum)] else []

theorem Shows.resetTOFArray {d : Driver} {history : List (Op Cell)} (h : d.Shows (Board.count history))
    (placed : d.Placed) {det : Nat} (lo : 1 ≤ det) (hi : det ≤ d.numDets) :
    (d.resetTOFArray det).Shows (Board.count (history ++ d.spectrumOps det)) := by
  have layout := resetTOFArray_same d det
  obtain ⟨b, held, cells⟩ := h
  have range := resetTOFRange_placed placed lo hi
  by_cases some_tof : 0 < d.tofMax
  · rw [if_pos some_tof] at range
    have data : (d.resetTOFArray det).pData =
        some (zeroCells b (d.firstCell det .spectrum) (d.numCells det .spectrum)) := by
      simp only [Driver.resetTOFArray, range, held, Option.map_some]
    refine ⟨_, data, fun c laysOut => ?_⟩
    have own := (layout.laysOut c).1 laysOut
    have hit : (d.firstCell det .spectrum ≤ d.place c ∧
        d.place c < d.firstCell det .spectrum + d.numCells det .spectrum) ↔ c.det = det ∧ c.plot = .spectrum := by
      constructor
      · rintro ⟨above, below⟩
        exact regions_disjoint own.1 own.2.1 lo hi own.inPlot ⟨by omega, by omega⟩
      · rintro ⟨rfl, spectrum⟩
        have inside := own.inPlot
        rw [spectrum] at inside
        obtain ⟨above, below⟩ := inside
        omega
    rw [layout.place, getElem?_zeroCells, cells c own, Option.map_some, spectrumOps, if_pos some_tof, Board.count_clear]
    simp only [hit, decide_eq_true_eq]
    split <;> rfl
  · rw [if_neg some_tof] at range
    have same : d.resetTOFArray det = d := by simp only [Driver.resetTOFArray, range]
    rw [same, spectrumOps, if_neg some_tof, List.append_nil]
    exact ⟨b, held, cells⟩

/-- What a write does to the cells. -/
def writeOps (d : Driver) (addr : Nat) (p : IntParam) (value : Int32) : List (Op Cell) :=
  if maxDets < addr then []
  else
    match p with
    | .reset => [.clear fun _ => true]
    | .start => if value ≠ 0 ∧ startable d.adStatus = true then [.clear fun _ => true] else []
    | .allocSpace => if d.adStatus ≠ .acquire ∧ d.dataAlloc = true then [.clear fun _ => true] else []
    | .tofArrayReset => d.spectrumOps addr
    | _ => []

/-- The layout is the one of the parameters as long as none is due, there are at most four
detectors, and the cells of a layout that is not due show what has happened to them. -/
structure Shown (history : List (Op Cell)) (d : Driver) : Prop where
  current : d.Current
  four : d.numDets ≤ maxDets
  placed : d.dataAlloc = false → d.Placed
  cells : d.dataAlloc = false → d.Shows (Board.count history)

namespace Shown

variable {history : List (Op Cell)} {d d' : Driver}

/-- Neither the layout nor the data change. -/
theorem congr (h : Shown history d) (layout : SameLayout d d') (data : d'.pData = d.pData)
    (status : d'.adStatus = .acquire → d.adStatus = .acquire) : Shown history d' where
  current := h.current.congr layout status
  four := by
    rw [layout.numDets]
    exact h.four
  placed down := layout.placed (h.placed (layout.dataAlloc.symm.trans down))
  cells down := (h.cells (layout.dataAlloc.symm.trans down)).congr layout data

/-- A layout that is due, outside an acquisition. -/
theorem of_due (four : d.numDets ≤ maxDets) (due : d.dataAlloc = true) (idle : d.adStatus ≠ .acquire) :
    Shown history d where
  current := .of_due due idle
  four := four
  placed down := by simp [due] at down
  cells down := by simp [due] at down

/-- All cells are cleared, in the same layout. -/
theorem clear (h : Shown history d) (layout : SameLayout d d') (zeroed : d'.pData = d.clearParams.pData)
    (status : d'.adStatus = .acquire → d.adStatus = .acquire) :
    Shown (history ++ [.clear fun _ => true]) d' where
  current := h.current.congr layout status
  four := by
    rw [layout.numDets]
    exact h.four
  placed down := layout.placed (h.placed (layout.dataAlloc.symm.trans down))
  cells down := shows_clear (h.placed (layout.dataAlloc.symm.trans down)) layout zeroed history

/-- A parameter that is not of the layout is stored. -/
theorem storeInt (h : Shown history d) {addr : Nat} {p : IntParam} (value : Int32) (outside : p.layoutAt addr = false) :
    Shown history (d.storeInt addr p value) := by
  refine h.congr (storeInt_same d fun layout => ?_) (storeInt_sameData ..).pData
    fun acquire => (storeInt_adStatus d addr p value).symm.trans acquire
  rw [outside] at layout
  cases layout

end Shown

/-- There are never more than four detectors. -/
theorem applyInt32_numDets_le {callocOk : Bool} {d : Driver} (four : d.numDets ≤ maxDets) {addr : Nat} {p : IntParam}
    {value : Int32} (writable : p.writable = true) : (d.applyInt32 callocOk addr p value).1.numDets ≤ maxDets := by
  by_cases number : p = .numDet
  · subst number
    rcases applyInt32_numDet callocOk d addr value with same | ⟨-, few, stored⟩
    · rw [same]
      exact four
    · rw [stored, storeInt_eq]
      simp only [numDets, Store.set_apply]
      split
      · omega
      · exact four
  · have count : (d.applyInt32 callocOk addr p value).1.int 0 .numDet = d.int 0 .numDet := by
      have alloc := allocArray_other callocOk d (.inl rfl) .numDet
      have wrote := applyInt32_wrote callocOk d addr value writable
      generalize (d.applyInt32 callocOk addr p value).1 = d' at wrote ⊢
      cases wrote with
      | same layout status => exact layout.int 0 .numDet rfl
      | due idle => exact storeInt_other _ (Ne.symm number)
      | numDet param idle few => exact absurd param number
      | allocated param inRange idle success =>
        rw [success] at alloc
        rw [storeInt_other _ (by decide)]
        exact alloc
      | failed param inRange idle error =>
        rw [error] at alloc
        exact alloc
    rw [numDets, count]
    exact four

/-- An allocation that succeeds leaves a layout that is placed. -/
theorem Shown.allocArray {history : List (Op Cell)} {d : Driver} (h : Shown history d)
    (countable : d.dataAlloc = true → d.Countable) {callocOk : Bool} (success : (d.allocArray callocOk).2 = .success) :
    (d.allocArray callocOk).1.dataAlloc = false ∧ (d.allocArray callocOk).1.Placed := by
  cases due : d.dataAlloc with
  | false =>
    rw [Driver.allocArray, if_pos due]
    exact ⟨due, h.placed due⟩
  | true =>
    rcases allocArray_cases callocOk due with ⟨layable, computed⟩ | ⟨failed, -⟩
    · have sizes := countable due
      rw [computed]
      exact ⟨rfl, layable.placed h.four sizes.sizes sizes.tofMax sizes.total⟩
    · rw [failed] at success
      cases success

/-- A write keeps `NumDet` behind a layout, allocates only what can be counted, and resets only
spectra of the layout. -/
structure KeepsCells (d : Driver) (addr : Nat) (p : IntParam) (value : Int32) : Prop where
  numDet : d.KeepsNumDet addr p value
  countable : p = .allocSpace → d.dataAlloc = true → d.Countable
  spectrum : p = .tofArrayReset → d.dataAlloc = false → 1 ≤ addr ∧ addr ≤ d.numDets

theorem allocSpace_pData (callocOk : Bool) {d : Driver} {addr : Nat} (value : Int32) (range : addr ≤ maxDets)
    (idle : d.adStatus ≠ .acquire) :
    (d.applyInt32 callocOk addr .allocSpace value).1.pData = (d.allocArray callocOk).1.pData := by
  simp only [applyInt32, if_neg (Nat.not_lt.2 range), if_pos idle]
  split
  · rename_i e success
    rw [success]
    exact (storeInt_sameData ..).pData
  · rename_i e error
    rw [error]
    rfl

/-- A new block is zeroed. -/
theorem allocArray_zero {callocOk : Bool} {d : Driver} (due : d.dataAlloc = true)
    (placed : (d.allocArray callocOk).1.Placed) (success : (d.allocArray callocOk).2 = .success) :
    (d.allocArray callocOk).1.pData = (d.allocArray callocOk).1.clearParams.pData := by
  rcases allocArray_cases callocOk due with ⟨layable, computed⟩ | ⟨failed, -⟩
  · have zeros : (d.allocArray callocOk).1.pData = some (List.replicate d.bufferCells.toNat 0) := by
      rw [computed]
      rfl
    obtain ⟨b, data, length⟩ := placed.buffer_length
    obtain rfl : b = List.replicate d.bufferCells.toNat 0 := Option.some.inj (data.symm.trans zeros)
    rw [clearParams_data placed, zeros, ← length, List.length_replicate]
  · rw [failed] at success
    cases success

section Commands

variable {history : List (Op Cell)} {callocOk : Bool} {d : Driver} (h : Shown history d) {addr : Nat} (value : Int32)
include h

/-- An accepted Start clears. -/
theorem Shown.sendStart : Shown (history ++ [.clear fun _ => true]) (d.sendStart.storeInt addr .start value) := by
  have paused := SameLayout.setInt (p := .pause) d.clearParams 0 0 rfl
  have same := (clearParams_same d).trans paused
  have layout : SameLayout d d.sendStart := ⟨same.int, rfl, rfl, rfl, rfl, same.size⟩
  exact (h.clear layout rfl id).storeInt value rfl

/-- `AllocSpace` clears if a layout is due. -/
theorem Shown.allocSpace (countable : d.dataAlloc = true → d.Countable) (range : addr ≤ maxDets)
    (idle : d.adStatus ≠ .acquire) :
    Shown (history ++ if d.dataAlloc = true then [.clear fun _ => true] else [])
      (d.applyInt32 callocOk addr .allocSpace value).1 := by
  have layout := allocSpace_layout callocOk (d := d) value range idle
  have current : (d.applyInt32 callocOk addr .allocSpace value).1.Current := applyInt32_current h.current rfl nofun
  have four : (d.applyInt32 callocOk addr .allocSpace value).1.numDets ≤ maxDets := applyInt32_numDets_le h.four rfl
  cases outcome : (d.allocArray callocOk).2 with
  | error =>
    have due := layout.dataAlloc.trans (allocArray_due callocOk outcome)
    refine .of_due four due fun acquire => ?_
    rw [current.allocated acquire] at due
    cases due
  | success =>
    obtain ⟨-, placed⟩ := h.allocArray countable outcome
    have data := allocSpace_pData callocOk (d := d) value range idle
    refine ⟨current, four, fun _ => layout.placed placed, fun _ => ?_⟩
    cases due : d.dataAlloc with
    | false =>
      have same : (d.allocArray callocOk).1 = d := by simp [Driver.allocArray, due]
      rw [same] at layout data
      rw [if_neg (by simp), List.append_nil]
      exact (h.cells due).congr layout data
    | true =>
      rw [if_pos rfl]
      exact shows_clear placed layout (data.trans (allocArray_zero due placed outcome)) history

/-- The reset of a spectrum clears this one. -/
theorem Shown.resetTOFArray (own : d.dataAlloc = false → 1 ≤ addr ∧ addr ≤ d.numDets) :
    Shown (history ++ d.spectrumOps addr) ((d.resetTOFArray addr).storeInt addr .tofArrayReset value) := by
  have layout := resetTOFArray_same d addr
  have status : (d.resetTOFArray addr).adStatus = d.adStatus := congrArg Signals.adStatus (resetTOFArray_signals d addr)
  have reset : Shown (history ++ d.spectrumOps addr) (d.resetTOFArray addr) := by
    refine ⟨h.current.congr layout status.symm.trans, ?_, fun down => ?_, fun down => ?_⟩
    · rw [layout.numDets]
      exact h.four
    · exact layout.placed (h.placed (layout.dataAlloc.symm.trans down))
    · have down := layout.dataAlloc.symm.trans down
      obtain ⟨lo, hi⟩ := own down
      exact (h.cells down).resetTOFArray (h.placed down) lo hi
  exact reset.storeInt value rfl

end Commands

/-- **Record writes.** -/
theorem applyInt32_shown {history : List (Op Cell)} {callocOk : Bool} {d : Driver} (h : Shown history d) {addr : Nat}
    {p : IntParam} {value : Int32} (writable : p.writable = true) (keeps : d.KeepsCells addr p value) :
    Shown (history ++ d.writeOps addr p value) (d.applyInt32 callocOk addr p value).1 := by
  have four : (d.applyInt32 callocOk addr p value).1.numDets ≤ maxDets := applyInt32_numDets_le h.four writable
  by_cases range : maxDets < addr
  · unfold writeOps applyInt32
    rw [if_pos range, if_pos range, List.append_nil]
    exact h
  cases plain : p.touchesData with
  | false =>
    have nothing : d.writeOps addr p value = [] := by
      unfold writeOps
      rw [if_neg range]
      cases p <;> first | rfl | cases plain
    have data := (applyInt32_sameData callocOk d addr value plain).pData
    have wrote := applyInt32_wrote callocOk d addr value writable
    rw [nothing, List.append_nil]
    generalize (d.applyInt32 callocOk addr p value).1 = d' at wrote data four ⊢
    cases wrote with
    | same layout status => exact h.congr layout data fun acquire => status.symm.trans acquire
    | due idle => exact .of_due four (by simp) (by simpa using idle)
    | numDet param idle few =>
      cases due : d.dataAlloc with
      | true => exact .of_due four (by simpa using due) (by simpa using idle)
      | false =>
        refine h.congr (storeInt_same d fun layout => ?_) data (by simp)
        have zero : addr = 0 := by simpa [IntParam.layoutAt] using layout
        rw [zero]
        exact keeps.numDet param zero due idle few
    | allocated param inRange idle success =>
      subst param
      cases plain
    | failed param inRange idle error =>
      subst param
      cases plain
  | true =>
    cases p
    case reset =>
      have ops : d.writeOps addr .reset value = [.clear fun _ => true] := by simp only [writeOps, if_neg range]
      have wrote : (d.applyInt32 callocOk addr .reset value).1 = d.clearParams.storeInt addr .reset value := by
        simp only [applyInt32, if_neg range]
      rw [ops, wrote]
      exact (h.clear (clearParams_same d) rfl id).storeInt value rfl
    case start =>
      by_cases accepted : value ≠ 0 ∧ startable d.adStatus = true
      · have ops : d.writeOps addr .start value = [.clear fun _ => true] := by
          simp only [writeOps, if_neg range, if_pos accepted]
        have wrote : (d.applyInt32 callocOk addr .start value).1 = d.sendStart.storeInt addr .start value := by
          simp only [applyInt32, if_neg range, if_pos accepted.1, if_pos accepted.2]
        rw [ops, wrote]
        exact h.sendStart value
      · have ops : d.writeOps addr .start value = [] := by simp only [writeOps, if_neg range, if_neg accepted]
        rw [ops, List.append_nil]
        simp only [applyInt32, if_neg range]
        split
        · rename_i on
          rw [if_neg fun idle => accepted ⟨on, idle⟩]
          exact h.congr (.setInt d 0 0 rfl) rfl id
        · exact h.storeInt value rfl
    case allocSpace =>
      by_cases idle : d.adStatus = .acquire
      · have ops : d.writeOps addr .allocSpace value = [] := by
          simp only [writeOps, if_neg range, idle, ne_eq, not_true_eq_false, false_and, if_false]
        have wrote : (d.applyInt32 callocOk addr .allocSpace value).1 = d := by
          simp only [applyInt32, if_neg range, idle, ne_eq, not_true_eq_false, if_false]
        rw [ops, wrote, List.append_nil]
        exact h
      · have ops : d.writeOps addr .allocSpace value = if d.dataAlloc = true then [.clear fun _ => true] else [] := by
          simp only [writeOps, if_neg range, idle, ne_eq, not_false_eq_true, true_and]
        rw [ops]
        exact h.allocSpace value (keeps.countable rfl) (Nat.not_lt.1 range) idle
    case tofArrayReset =>
      have ops : d.writeOps addr .tofArrayReset value = d.spectrumOps addr := by simp only [writeOps, if_neg range]
      have wrote : (d.applyInt32 callocOk addr .tofArrayReset value).1 =
          (d.resetTOFArray addr).storeInt addr .tofArrayReset value := by
        simp only [applyInt32, if_neg range]
      rw [ops, wrote]
      exact h.resetTOFArray value (keeps.spectrum rfl)
    all_goals cases plain

/-! ## Packets and the tasks -/

/-- What a packet does to the cells. -/
def packetOps (d : Driver) (p : Packet) : List (Op Cell) :=
  if d.verdict p = .integrated then (d.cellsHit p.events).map .hit else []

/-- A packet that is integrated can be routed, if there is a layout. -/
def RoutesPacket (d : Driver) (p : Packet) : Prop :=
  d.dataAlloc = false → d.verdict p = .integrated → d.Routes p.events

/-- **Packets.** -/
theorem Shown.packet {history : List (Op Cell)} {d : Driver} (h : Shown history d) {p : Packet} {r : Driver × Outcome}
    (hr : d.eventHandler p = some r) (routes : d.RoutesPacket p) : Shown (history ++ d.packetOps p) r.1 := by
  have handled := eventHandler_handled hr
  have layout := SameLayout.of_handled handled
  have status : r.1.adStatus = d.adStatus := congrArg Signals.adStatus handled.signals
  by_cases accepted : d.verdict p = .integrated
  · refine ⟨h.current.congr layout status.symm.trans, ?_, fun down => ?_, fun down => ?_⟩
    · rw [layout.numDets]
      exact h.four
    · exact layout.placed (h.placed (layout.dataAlloc.symm.trans down))
    · have down := layout.dataAlloc.symm.trans down
      obtain ⟨b, held, cells⟩ := h.cells down
      obtain ⟨d', b', delivered, data, added⟩ := packet_cells (h.placed down) accepted (routes down accepted) held
      have same : r.1 = d' := by
        rw [deliver, hr] at delivered
        exact Option.some.inj delivered
      rw [packetOps, if_pos accepted]
      refine ⟨b', by rw [same]; exact data, fun c laysOut => ?_⟩
      have own := (layout.laysOut c).1 laysOut
      rw [layout.place, added c own, cells c own, Option.map_some, Board.count_hits, UInt32.ofNat_add]
  · obtain ⟨d', handled, same⟩ := eventHandler_rejected accepted
    obtain rfl : r = (d', d.verdict p) := Option.some.inj (hr.symm.trans handled)
    rw [packetOps, if_neg accepted, List.append_nil]
    exact h.congr layout same.pData status.symm.trans

/-- **A start** lays out anew if that is due, and clears. -/
theorem Shown.startSection {history : List (Op Cell)} {d : Driver} (h : Shown history d) {env : StartEnv} {e : EventTask}
    {r : Driver × EventTask} (hs : e.step env d = some r) (pc : e.pc = .startSection)
    (countable : d.dataAlloc = true → d.Countable) : Shown (history ++ [.clear fun _ => true]) r.1 := by
  have current := EventTask.step_current h.current hs
  obtain ⟨-, start⟩ := (EventTask.step_tasked hs).resolve_left fun other => other.1 pc
  have layout := (EventTask.startSection_tasked env (e.thread d)).1.sameLayout
  have zeroed := (EventTask.startSection_data env (e.thread d)).2
  have four : (d.allocArray env.callocOk).1.numDets ≤ maxDets := by
    rw [numDets, allocArray_other env.callocOk d (.inl rfl)]
    exact h.four
  rw [← start] at layout zeroed
  change SameLayout (d.allocArray env.callocOk).1 r.1 at layout
  cases outcome : (d.allocArray env.callocOk).2 with
  | error =>
    have due := layout.dataAlloc.trans (allocArray_due env.callocOk outcome)
    refine .of_due (by rw [layout.numDets]; exact four) due fun acquire => ?_
    rw [current.allocated acquire] at due
    cases due
  | success =>
    obtain ⟨-, placed⟩ := h.allocArray countable outcome
    refine ⟨current, by rw [layout.numDets]; exact four, fun _ => layout.placed placed, fun _ => ?_⟩
    exact shows_clear placed layout (zeroed outcome) history

end Driver

namespace Sys

open Board (Op)

/-- What a request does to the cells of the plots. -/
def ops (s : Sys) : Request → List (Op Cell)
  | .sys (.write addr p value _) => s.drv.writeOps addr p value
  | .sys (.packet p) => s.drv.packetOps p
  | .sys (.event _) => if s.event.pc = .startSection then [.clear fun _ => true] else []
  | .sys (.frame _) => []
  | .float _ _ _ => []
  | .octet _ _ _ _ _ => []

/-- The request keeps the cells apart: `NumDet` is not changed behind a layout, what is
allocated can be counted, only spectra of the layout are reset, and the events that are
integrated can be routed. -/
def KeepsCells (s : Sys) : Request → Prop
  | .sys (.write addr p value _) => s.drv.KeepsCells addr p value
  | .sys (.packet p) => s.drv.RoutesPacket p
  | .sys (.event _) => s.event.pc = .startSection → s.drv.dataAlloc = true → s.drv.Countable
  | .sys (.frame _) => True
  | .float _ _ _ => True
  | .octet _ _ _ _ _ => True

/-- **One request.** -/
theorem serve_shown {history : List (Op Cell)} {s s' : Sys} {r : Request} (h : Driver.Shown history s.drv)
    (keeps : s.KeepsCells r) (hs : s.serve r = some s') : Driver.Shown (history ++ s.ops r) s'.drv := by
  have loaded : Loaded s.drv s'.drv → Driver.Shown history s'.drv := by
    intro loaded
    have same := SameData.of_loaded loaded
    exact h.congr loaded.sameLayout same.pData fun acquire => by rw [loaded.eq] at acquire; exact acquire
  cases r with
  | float addr p value =>
    obtain ⟨r, wrote, rfl⟩ := serve_float hs
    rw [ops, List.append_nil]
    exact loaded (Driver.writeFloat64_loaded wrote).1
  | octet addr p value erange env =>
    obtain ⟨r, wrote, rfl⟩ := serve_octet hs
    rw [ops, List.append_nil]
    exact loaded (Driver.writeOctet_loaded wrote).1
  | sys l =>
    cases l with
    | write addr p value callocOk =>
      obtain ⟨writable, -, rfl⟩ := step_write hs
      exact Driver.applyInt32_shown h writable keeps
    | packet p =>
      obtain ⟨-, r, hr, rfl⟩ := step_packet hs
      exact h.packet hr keeps
    | event env =>
      obtain ⟨r, hr, rfl⟩ := step_eventTask hs
      by_cases pc : s.event.pc = .startSection
      · rw [ops, if_pos pc]
        exact h.startSection hr pc (keeps pc)
      · obtain ⟨-, tasked, status⟩ := (EventTask.step_tasked hr).resolve_right fun start => pc start.1
        rw [ops, if_neg pc, List.append_nil]
        exact h.congr tasked.sameLayout (EventTask.step_sameData hr pc).pData status
    | frame env =>
      obtain ⟨r, hr, rfl⟩ := step_frameTask hs
      obtain ⟨tasked, status⟩ := FrameTask.step_tasked hr
      rw [ops, List.append_nil]
      exact h.congr tasked.sameLayout (FrameTask.step_sameData hr).pData status.symm.trans

theorem shown_init (u : Uninit) : Driver.Shown [] (init u).drv :=
  .of_due (by simp [init, Driver.construct, Driver.numDets, initInt]) rfl (by simp [init, Driver.construct])

theorem run_shown {u : Uninit} {rs : List Request} {s : Sys} (reached : Runs.run serve (init u) rs = some s)
    (keeps : Runs.Meets serve KeepsCells (init u) rs) : Driver.Shown (Runs.log serve ops (init u) rs) s.drv :=
  Runs.run_log_invariant ops (fun past s => Driver.Shown past s.drv) (fun _ _ _ _ => serve_shown) reached keeps
    (shown_init u)

/-- **The cells over whole runs.** Take a run of any requests that keeps the cells apart. Whenever
no new layout is due, and so in every acquisition, each cell that is published for a plot is the
number of events that it was hit by since it was last cleared, modulo `2^32`; and the next packet
is handled if its events can be routed. -/
theorem cells_history {u : Uninit} {rs : List Request} {s : Sys} (reached : Runs.run serve (init u) rs = some s)
    (keeps : Runs.Meets serve KeepsCells (init u) rs) :
    (s.drv.adStatus = .acquire → s.drv.dataAlloc = false) ∧
      (s.drv.dataAlloc = false → ∃ b, s.drv.pData = some b ∧ (∀ det, 1 ≤ det → det ≤ s.drv.numDets →
        (∀ k : Nat, (k : Int) < (s.drv.int det .ndArraySize).toInt →
          b[(s.drv.int det .ndArrayStart).toInt.toNat + k]? =
            some (UInt32.ofNat (Board.count (Runs.log serve ops (init u) rs) ⟨det, .pixels, k⟩))) ∧
        (∀ k : Nat, (k : Int) ≤ (s.drv.int 0 .tofMax).toInt →
          b[(s.drv.int det .ndArrayTOFStart).toInt.toNat + k]? =
            some (UInt32.ofNat (Board.count (Runs.log serve ops (init u) rs) ⟨det, .spectrum, k⟩)))) ∧
        ∀ p, s.lockFree = true → s.drv.RoutesPacket p → ∃ s', s.serve (.sys (.packet p)) = some s') := by
  have shown := run_shown reached keeps
  refine ⟨shown.current.allocated, fun down => ?_⟩
  have placed := shown.placed down
  obtain ⟨b, held, cells⟩ := shown.cells down
  refine ⟨b, held, fun det lo hi => ⟨fun k below => ?_, fun k le => ?_⟩, fun p free routes => ?_⟩
  · rw [placed.ndArraySize lo hi] at below
    rw [placed.ndArrayStart lo hi, Int.toNat_natCast]
    exact cells ⟨det, .pixels, k⟩ ⟨lo, hi, by exact_mod_cast below⟩
  · have range : k < s.drv.tofCells := by
      rw [Driver.tofCells]
      omega
    rw [placed.ndArrayTOFStart lo hi, Int.toNat_natCast]
    exact cells ⟨det, .spectrum, k⟩ ⟨lo, hi, range⟩
  · have handled : ∃ d', s.drv.deliver p = some d' := by
      by_cases accepted : s.drv.verdict p = .integrated
      · obtain ⟨d', -, delivered, -⟩ := Driver.packet_cells placed accepted (routes down accepted) held
        exact ⟨d', delivered⟩
      · obtain ⟨d', handled, -⟩ := Driver.eventHandler_rejected accepted
        rw [Driver.deliver, handled]
        exact ⟨d', rfl⟩
    obtain ⟨d', delivered⟩ := handled
    obtain ⟨r, handled, -⟩ := Option.map_eq_some_iff.1 delivered
    simp only [serve, step, free, if_true, handled]
    exact ⟨_, rfl⟩

/-- The condition can be evaluated along a run. -/
def cellsCheck (s : Sys) : Request → Bool
  | .sys (.write addr p value callocOk) => (p != .numDet || s.drv.dataAlloc) &&
      (s.countsCheck (.write addr p value callocOk) &&
        (p != .tofArrayReset || decide (1 ≤ addr ∧ addr ≤ s.drv.numDets)))
  | .sys (.packet p) => s.drv.routesCheck p.events
  | .sys (.event _) => s.event.pc != .startSection || s.countsCheck (.write 0 .allocSpace 0 true)
  | .sys (.frame _) => true
  | .float _ _ _ => true
  | .octet _ _ _ _ _ => true

theorem keepsCells_of_check (s : Sys) (r : Request) (h : s.cellsCheck r = true) : s.KeepsCells r := by
  cases r with
  | float addr p value => trivial
  | octet addr p value erange env => trivial
  | sys l =>
    cases l with
    | write addr p value callocOk =>
      obtain ⟨number, h⟩ := Bool.and_eq_true_iff.1 h
      obtain ⟨counts, spectrum⟩ := Bool.and_eq_true_iff.1 h
      refine ⟨?_, fun command _ => counts_of_check s _ counts command, ?_⟩
      · rintro rfl - down
        simp [down] at number
      · rintro rfl -
        simpa using spectrum
    | packet p =>
      intro _ _
      exact Driver.routes_of_check h
    | event env =>
      intro here _
      rw [cellsCheck, here, bne_self_eq_false, Bool.false_or] at h
      exact counts_of_check s _ h rfl
    | frame env => trivial

/-- An acquisition of one detector: an event in its X/Y plot, the same event after the plot was
changed to the columns over the TOF bins, a reset of its spectrum and another event. -/
def changedPlot : List Request :=
  ([.write 0 .numDet 1 true, .write 0 .tofMax 3 true, .write 1 .pixelNumSize 7 true, .write 1 .pixelNumEnd 2 true,
    .write 1 .pixelSizeX 2 true, .write 1 .pixelROISizeX 1 true, eventStep, eventStep, eventStep, startWrite,
    eventStep, eventStep, eventStep, .packet (.single 0 1 2), .write 1 .twoDType 1 true, .write 1 .tofNumBins 3 true,
    .packet (.single 0 1 2), .write 1 .tofArrayReset 1 true, .packet (.single 0 2 1)] : List Label).map .sys

/-- Its seven cells of the plot and four of the spectrum. -/
theorem cells_history_changedPlot :
    ∃ s, Runs.run serve (init .blank) changedPlot = some s ∧ s.drv.adStatus = .acquire ∧
      s.drv.pData = some [0, 2, 0, 0, 0, 1, 0, 0, 1, 0, 0] ∧ s.drv.dataAlloc = false ∧
      ∃ b, s.drv.pData = some b ∧ ∀ k : Nat, (k : Int) < (s.drv.int 1 .ndArraySize).toInt →
        b[(s.drv.int 1 .ndArrayStart).toInt.toNat + k]? =
          some (UInt32.ofNat (Board.count (Runs.log serve ops (init .blank) changedPlot) ⟨1, .pixels, k⟩)) := by
  have state : (Runs.run serve (init .blank) changedPlot).map (fun s =>
      (s.drv.adStatus, s.drv.pData, s.drv.numDets)) = some (.acquire, some [0, 2, 0, 0, 0, 1, 0, 0, 1, 0, 0], 1) := by
    decide +kernel
  obtain ⟨s, reached, state⟩ := Option.map_eq_some_iff.1 state
  simp only [Prod.mk.injEq] at state
  obtain ⟨acquire, data, one⟩ := state
  have keeps : Runs.Meets serve KeepsCells (init .blank) changedPlot :=
    Runs.meets_of_checks keepsCells_of_check (by decide +kernel)
  obtain ⟨allocated, cells⟩ := cells_history reached keeps
  obtain ⟨b, held, plots, -⟩ := cells (allocated acquire)
  exact ⟨s, reached, acquire, data, allocated acquire, b, held, (plots 1 le_rfl one.ge).1⟩

end Sys

/-! ## The totals -/

/-- `n` more increments of a double that holds a count. -/
theorem iterate_dblSucc_min (n k : Nat) : dblSucc^[k] (min n (2 ^ 53)) = min (n + k) (2 ^ 53) := by
  induction k with
  | zero => rfl
  | succ k ih =>
    rw [Function.iterate_succ_apply', ih, dblSucc]
    split <;> omega

namespace Driver

/-- The write is a Reset or a Start that is accepted. -/
def clears (d : Driver) (addr : Nat) (p : IntParam) (value : Int32) : Bool :=
  decide (addr ≤ maxDets ∧ (p = .reset ∨ p = .start ∧ value ≠ 0 ∧ startable d.adStatus = true))

/-- Only such a write touches the totals. -/
theorem applyInt32_totals (callocOk : Bool) (d : Driver) (addr : Nat) (p : IntParam) (value : Int32) :
    (d.applyInt32 callocOk addr p value).1.detTotalEvents =
      if d.clears addr p value then d.clearParams.detTotalEvents else d.detTotalEvents := by
  have stored : ∀ (e : Driver) q v, (e.storeInt addr q v).detTotalEvents = e.detTotalEvents :=
    fun e q v => (storeInt_sameData e addr q v).detTotalEvents
  by_cases range : addr ≤ maxDets
  case neg => simp [applyInt32, clears, range, Nat.not_le.1 range]
  have inside := Nat.not_lt.2 range
  cases plain : p.touchesData with
  | false =>
    have other : d.clears addr p value = false := decide_eq_false <| by
      rintro ⟨-, rfl | ⟨rfl, -⟩⟩ <;> cases plain
    rw [other, (applyInt32_sameData callocOk d addr value plain).detTotalEvents]
    rfl
  | true =>
    cases p
    case reset => simp [applyInt32, clears, range, inside, stored]
    case start =>
      by_cases on : value = 0
      · simp [applyInt32, clears, inside, stored, on]
      · by_cases idle : startable d.adStatus = true
        · have clear : d.clears addr .start value = true := decide_eq_true ⟨range, .inr ⟨rfl, on, idle⟩⟩
          rw [clear, if_pos rfl]
          simp only [applyInt32, if_neg inside, if_pos on, if_pos idle]
          exact stored d.sendStart _ _
        · simp [applyInt32, clears, inside, on, idle, setInt]
    case allocSpace =>
      have alloc : (d.allocArray callocOk).1.detTotalEvents = d.detTotalEvents := by
        rw [(allocArray_relaid callocOk d).eq]
      have other : d.clears addr .allocSpace value = false := decide_eq_false <| by
        rintro ⟨-, command | ⟨command, -⟩⟩ <;> cases command
      rw [other]
      simp only [applyInt32, if_neg inside]
      split
      · split
        · rename_i e success
          rw [success] at alloc
          exact (stored e _ _).trans alloc
        · rename_i e error
          rw [error] at alloc
          exact alloc
      · rfl
    case tofArrayReset =>
      have reset : (d.resetTOFArray addr).detTotalEvents = d.detTotalEvents := by
        unfold resetTOFArray
        split <;> rfl
      simp [applyInt32, clears, inside, stored, reset]
    all_goals cases plain

/-- The detectors that see the events, once for each event. -/
def seenBy (d : Driver) (events : List (UInt32 × UInt32)) : List Nat :=
  ((turns d.active events).filter fun t => d.config.inDet t.1 t.2.1).map Prod.fst

theorem count_seenBy (d : Driver) (events : List (UInt32 × UInt32)) (det : Nat) :
    (d.seenBy events).count det = d.config.hits det (turns d.active events) := by
  rw [seenBy, List.count, List.countP_map, List.countP_filter]
  apply List.countP_congr
  intro t _
  by_cases here : t.1 = det
  · simp [here]
  · simp [here]

end Driver

namespace Sys

open Board (Op)

/-- What a request does to the totals. -/
def totalOps (s : Sys) : Request → List (Op Nat)
  | .sys (.write addr p value _) =>
    if s.drv.clears addr p value then [.clear fun det => decide (det ≤ maxDets)] else []
  | .sys (.packet p) => if s.drv.verdict p = .integrated then (s.drv.seenBy p.events).map .hit else []
  | .sys (.event _) => []
  | .sys (.frame _) => []
  | .float _ _ _ => []
  | .octet _ _ _ _ _ => []

/-- The totals are these counts, up to where a double stops counting. -/
def Totals (history : List (Op Nat)) (s : Sys) : Prop :=
  ∀ det, s.drv.detTotalEvents det = min (Board.count history det) (2 ^ 53)

theorem serve_totals {history : List (Op Nat)} {s s' : Sys} {r : Request} (h : Totals history s)
    (hs : s.serve r = some s') : Totals (history ++ s.totalOps r) s' := by
  have kept : SameData s.drv s'.drv → Totals history s' := by
    intro same det
    rw [same.detTotalEvents]
    exact h det
  cases r with
  | float addr p value =>
    obtain ⟨r, wrote, rfl⟩ := serve_float hs
    rw [totalOps, List.append_nil]
    exact kept (.of_loaded (Driver.writeFloat64_loaded wrote).1)
  | octet addr p value erange env =>
    obtain ⟨r, wrote, rfl⟩ := serve_octet hs
    rw [totalOps, List.append_nil]
    exact kept (.of_loaded (Driver.writeOctet_loaded wrote).1)
  | sys l =>
    cases l with
    | write addr p value callocOk =>
      obtain ⟨-, -, rfl⟩ := step_write hs
      intro det
      rw [Driver.applyInt32_totals, totalOps]
      split
      · rw [Board.count_clear]
        simp only [Driver.clearParams, decide_eq_true_eq, h det]
        split <;> rfl
      · rw [List.append_nil]
        exact h det
    | packet p =>
      obtain ⟨-, r, hr, rfl⟩ := step_packet hs
      by_cases accepted : s.drv.verdict p = .integrated
      · obtain ⟨b, held⟩ := Driver.Accepted.data accepted
        have result := Driver.deliver_accepted accepted held
        rw [Driver.deliver, hr] at result
        obtain ⟨bs, -, result⟩ := Option.bind_eq_some_iff.1 result.symm
        obtain ⟨b', -, same⟩ := Option.map_eq_some_iff.1 result
        have totals : r.1.detTotalEvents = fun det => dblSucc^[s.drv.config.hits det (turns s.drv.active p.events)]
          (s.drv.detTotalEvents det) := (congrArg Prod.snd same).symm
        intro det
        simp only [totals, h det]
        rw [totalOps, if_pos accepted, Board.count_hits, Driver.count_seenBy, iterate_dblSucc_min]
      · obtain ⟨d', handled, same⟩ := Driver.eventHandler_rejected accepted
        obtain rfl : r = (d', s.drv.verdict p) := Option.some.inj (hr.symm.trans handled)
        rw [totalOps, if_neg accepted, List.append_nil]
        exact kept same
    | event env =>
      obtain ⟨r, hr, rfl⟩ := step_eventTask hs
      rw [totalOps, List.append_nil]
      by_cases pc : s.event.pc = .startSection
      · obtain ⟨-, start⟩ := (EventTask.step_tasked hr).resolve_left fun other => other.1 pc
        intro det
        rw [start, (EventTask.startSection_data env (s.event.thread s.drv)).1]
        exact h det
      · exact kept (EventTask.step_sameData hr pc)
    | frame env =>
      obtain ⟨r, hr, rfl⟩ := step_frameTask hs
      rw [totalOps, List.append_nil]
      exact kept (FrameTask.step_sameData hr)

theorem run_totals {u : Uninit} {rs : List Request} {s : Sys} (reached : Runs.run serve (init u) rs = some s) :
    Totals (Runs.log serve totalOps (init u) rs) s := by
  have initial : Totals [] (init u) := fun _ => rfl
  exact Runs.run_log_invariant totalOps Totals (fun _ _ _ _ h _ => serve_totals h) reached Runs.meets_true initial

/-- **The totals over whole runs.** In every reachable state the total of a detector is the
number of integrated events whose pixel ID was in its range, since the last Reset or accepted
Start; it stops at `2^53`. -/
theorem totals_history {u : Uninit} {rs : List Request} {s : Sys} (reached : Runs.run serve (init u) rs = some s)
    (det : Nat) :
    s.drv.detTotalEvents det = min (Board.count (Runs.log serve totalOps (init u) rs) det) (2 ^ 53) :=
  run_totals reached det

/-- The three events of that acquisition. -/
theorem totals_history_changedPlot :
    ∃ s, Runs.run serve (init .blank) changedPlot = some s ∧ s.drv.detTotalEvents 1 = 3 ∧
      s.drv.detTotalEvents 1 =
        min (Board.count (Runs.log serve totalOps (init .blank) changedPlot) 1) (2 ^ 53) := by
  have state : (Runs.run serve (init .blank) changedPlot).map (fun s => s.drv.detTotalEvents 1) = some 3 := by
    decide +kernel
  obtain ⟨s, reached, three⟩ := Option.map_eq_some_iff.1 state
  exact ⟨s, reached, three, totals_history reached 1⟩

end Sys

end ADnED
