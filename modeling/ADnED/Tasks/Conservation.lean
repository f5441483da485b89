import ADnED.Tasks.History

/-!
# No event is counted twice

The two histories of a run, that of the cells and that of the totals, side by side. An event
has at most one cell in each plot of a detector, only events in the range of a detector have
one, and whatever clears a total clears the cells of the detector as well. So the cells of a
plot together never hold more than the total of the detector (`plot_within_total`): the plots
lose events, to the filters, to the bounds of the plot and to a reset of the spectrum, but they
never gain any.
-/

namespace ADnED

open Board (Op)

/-- The index of the cell in one plot of a detector. -/
def Cell.indexIn (det : Nat) (plot : Plot) (c : Cell) : Option Nat :=
  if c.det = det ∧ c.plot = plot then some c.index else none

theorem Cell.indexIn_eq_some {det : Nat} {plot : Plot} {c : Cell} {k : Nat} :
    (c.indexIn det plot == some k) = decide (c = ⟨det, plot, k⟩) := by
  obtain ⟨d, p, i⟩ := c
  by_cases own : d = det ∧ p = plot
  · obtain ⟨rfl, rfl⟩ := own
    rw [Cell.indexIn, if_pos ⟨rfl, rfl⟩, Bool.eq_iff_iff]
    simp
  · have other : (⟨d, p, i⟩ : Cell) ≠ ⟨det, plot, k⟩ := by
      rintro ⟨⟩
      exact own ⟨rfl, rfl⟩
    simp [Cell.indexIn, own, other]

namespace Driver

variable {d : Driver}

/-- The hits of the first `n` cells of a plot. -/
theorem sum_count_cells (cells : List Cell) (det : Nat) (plot : Plot) (n : Nat) :
    ∑ k ∈ Finset.range n, cells.count ⟨det, plot, k⟩ ≤ cells.countP fun c => (c.indexIn det plot).isSome := by
  have counts : ∀ k, cells.count ⟨det, plot, k⟩ = cells.countP fun c => c.indexIn det plot == some k := by
    intro k
    simp only [Cell.indexIn_eq_some, List.count]
    apply List.countP_congr
    simp
  simp only [counts]
  rw [Tally.sum_countP]
  apply List.countP_mono_left
  intro c _ inside
  cases h : c.indexIn det plot with
  | none => simp [h] at inside
  | some k => rfl

theorem countP_plotCells (det' m : Nat) (x : Dbl) (plot' : Plot) (det : Nat) (plot : Plot) :
    (d.plotCells det' m x plot').countP (fun c => (c.indexIn det plot).isSome) ≤
      if det' = det ∧ plot' = plot then 1 else 0 := by
  unfold plotCells
  cases d.plotCell det' m x plot' with
  | none => simp
  | some k => by_cases own : det' = det ∧ plot' = plot <;> simp [Cell.indexIn, own]

/-- An event has at most one cell in a plot. -/
theorem countP_cellsOf (det' : Nat) (e : UInt32 × UInt32) (det : Nat) (plot : Plot) :
    (d.cellsOf det' e).countP (fun c => (c.indexIn det plot).isSome) ≤ if det' = det ∧ d.Sees det' e.1 then 1 else 0 := by
  unfold cellsOf
  by_cases sees : d.Sees det' e.1
  case neg => simp [sees]
  rw [if_pos sees]
  cases d.config.eventTOF det' e.1 e.2 with
  | none => simp
  | some x =>
    have pixels := countP_plotCells (d := d) det' (d.pixelIndex det' e.1) x .pixels det plot
    have spectrum := countP_plotCells (d := d) det' (d.pixelIndex det' e.1) x .spectrum det plot
    rw [Option.elim_some, List.countP_append]
    by_cases own : det' = det
    · subst own
      rw [if_pos ⟨rfl, sees⟩]
      cases plot <;> simp only [true_and, and_false, reduceCtorEq, if_true, if_false] at pixels spectrum <;> omega
    · simp only [own, false_and, if_false] at pixels spectrum ⊢
      omega

/-- The events of a packet that is routed have no more cells in a plot than the detector sees of them. -/
theorem countP_cellsHit (placed : d.Placed) {events : List (UInt32 × UInt32)} (routes : d.Routes events) (det : Nat)
    (plot : Plot) : (d.cellsHit events).countP (fun c => (c.indexIn det plot).isSome) ≤ (d.seenBy events).count det := by
  have turn : ∀ t ∈ turns d.active events, (d.Sees t.1 t.2.1 → d.config.inDet t.1 t.2.1 = true) := by
    intro t mem
    obtain ⟨lo, hi⟩ := (mem_active placed).1 (mem_turns.1 mem).1
    exact (inDet_iff_sees_of_nonneg placed lo hi (routes t.1 lo hi).1.start t.2.1).2
  unfold cellsHit seenBy
  generalize turns d.active events = ts at turn
  induction ts with
  | nil => simp
  | cons t ts ih =>
    obtain ⟨first, later⟩ := List.forall_mem_cons.1 turn
    have own := countP_cellsOf (d := d) t.1 t.2 det plot
    have rest := ih later
    rw [List.flatMap_cons, List.countP_append]
    by_cases seen : d.config.inDet t.1 t.2.1 = true
    · rw [List.filter_cons, if_pos seen, List.map_cons, List.count_cons]
      by_cases here : t.1 = det
      · rw [if_pos (beq_iff_eq.2 here)]
        split at own <;> omega
      · rw [if_neg fun both => here both.1] at own
        omega
    · rw [List.filter_cons, if_neg seen]
      rw [if_neg fun both => seen (first both.2)] at own
      omega

theorem spectrumOps_count_le (history : List (Op Cell)) (det : Nat) (c : Cell) :
    Board.count (history ++ d.spectrumOps det) c ≤ Board.count history c := by
  unfold spectrumOps
  split
  · rw [Board.count_clear]
    split <;> omega
  · rw [List.append_nil]

/-- No write makes a cell count. -/
theorem writeOps_count_le (history : List (Op Cell)) (addr : Nat) (p : IntParam) (value : Int32) (c : Cell) :
    Board.count (history ++ d.writeOps addr p value) c ≤ Board.count history c := by
  have cleared : Board.count (history ++ [.clear fun _ => true]) c ≤ Board.count history c := by
    rw [Board.count_clear, if_pos rfl]
    exact Nat.zero_le _
  have nothing : Board.count (history ++ []) c ≤ Board.count history c := by rw [List.append_nil]
  unfold writeOps
  split
  · exact nothing
  · split
    · exact cleared
    · split
      · exact cleared
      · exact nothing
    · split
      · exact cleared
      · exact nothing
    · exact spectrumOps_count_le history addr c
    · exact nothing

/-- What clears the totals clears the cells. -/
theorem writeOps_of_clears {addr : Nat} {p : IntParam} {value : Int32} (clears : d.clears addr p value = true) :
    d.writeOps addr p value = [.clear fun _ => true] := by
  obtain ⟨range, rfl | ⟨rfl, on, idle⟩⟩ := of_decide_eq_true clears
  · rw [writeOps, if_neg (Nat.not_lt.2 range)]
  · simp only [writeOps, if_neg (Nat.not_lt.2 range), if_pos (And.intro on idle)]

/-- A write that ends the wait for a new layout clears all cells. -/
theorem writeOps_of_allocated {callocOk : Bool} {addr : Nat} {p : IntParam} {value : Int32} (writable : p.writable = true)
    (due : d.dataAlloc = true) (down : (d.applyInt32 callocOk addr p value).1.dataAlloc = false) :
    d.writeOps addr p value = [.clear fun _ => true] := by
  have wrote := applyInt32_wrote callocOk d addr value writable
  generalize (d.applyInt32 callocOk addr p value).1 = d' at wrote down
  cases wrote with
  | same layout status =>
    rw [layout.dataAlloc, due] at down
    cases down
  | due idle => simp at down
  | numDet param idle few => simp [due] at down
  | allocated param inRange idle success =>
    subst param
    simp only [writeOps, if_neg (Nat.not_lt.2 inRange), if_pos (And.intro idle due)]
  | failed param inRange idle error =>
    have still := allocArray_due callocOk (congrArg Prod.snd error)
    rw [error] at still
    exact absurd (still.symm.trans down) (by decide)

end Driver

namespace Sys

/-- As long as no new layout is due, the plots of a detector hold no more than its total. -/
structure Conserved (cells : List (Op Cell)) (totals : List (Op Nat)) (s : Sys) : Prop where
  shown : Driver.Shown cells s.drv
  within : s.drv.dataAlloc = false → ∀ det plot n,
    ∑ k ∈ Finset.range n, Board.count cells ⟨det, plot, k⟩ ≤ Board.count totals det

variable {cells : List (Op Cell)} {totals : List (Op Nat)} {s s' : Sys}

theorem sum_cleared (det : Nat) (plot : Plot) (n : Nat) :
    ∑ k ∈ Finset.range n, Board.count (cells ++ [.clear fun _ => true]) ⟨det, plot, k⟩ = 0 := by
  apply Finset.sum_eq_zero
  intro k _
  rw [Board.count_clear, if_pos rfl]

/-- Nothing happens to the cells, to the totals and to the layout. -/
theorem Conserved.quiet (h : Conserved cells totals s) (shown : Driver.Shown cells s'.drv)
    (layout : s'.drv.dataAlloc = s.drv.dataAlloc) : Conserved cells totals s' :=
  ⟨shown, fun down => h.within (layout.symm.trans down)⟩

/-- **Record writes.** -/
theorem Conserved.write (h : Conserved cells totals s) {addr : Nat} {p : IntParam} {value : Int32} {callocOk : Bool}
    (writable : p.writable = true) (down : (s.drv.applyInt32 callocOk addr p value).1.dataAlloc = false) (det : Nat)
    (plot : Plot) (n : Nat) :
    ∑ k ∈ Finset.range n, Board.count (cells ++ s.drv.writeOps addr p value) ⟨det, plot, k⟩ ≤
      Board.count (totals ++ if s.drv.clears addr p value then [.clear fun det => decide (det ≤ maxDets)] else []) det := by
  cases clears : s.drv.clears addr p value with
  | true =>
    rw [Driver.writeOps_of_clears clears, sum_cleared]
    exact Nat.zero_le _
  | false =>
    rw [if_neg (by simp), List.append_nil]
    cases due : s.drv.dataAlloc with
    | true =>
      rw [Driver.writeOps_of_allocated writable due down, sum_cleared]
      exact Nat.zero_le _
    | false =>
      calc ∑ k ∈ Finset.range n, Board.count (cells ++ s.drv.writeOps addr p value) ⟨det, plot, k⟩
        _ ≤ ∑ k ∈ Finset.range n, Board.count cells ⟨det, plot, k⟩ :=
          Finset.sum_le_sum fun k _ => Driver.writeOps_count_le cells addr p value _
        _ ≤ Board.count totals det := h.within due det plot n

/-- **Packets.** -/
theorem Conserved.packet (h : Conserved cells totals s) {p : Packet} (routes : s.drv.RoutesPacket p)
    (down : s.drv.dataAlloc = false) (det : Nat) (plot : Plot) (n : Nat) :
    ∑ k ∈ Finset.range n, Board.count (cells ++ s.drv.packetOps p) ⟨det, plot, k⟩ ≤
      Board.count (totals ++ if s.drv.verdict p = .integrated then (s.drv.seenBy p.events).map .hit else []) det := by
  have before := h.within down det plot n
  unfold Driver.packetOps
  by_cases accepted : s.drv.verdict p = .integrated
  · rw [if_pos accepted, if_pos accepted, Board.count_hits]
    simp only [Board.count_hits]
    rw [Finset.sum_add_distrib]
    have hits := Driver.sum_count_cells (s.drv.cellsHit p.events) det plot n
    have seen := Driver.countP_cellsHit (h.shown.placed down) (routes down accepted) det plot
    omega
  · rw [if_neg accepted, if_neg accepted, List.append_nil, List.append_nil]
    exact before

/-- **One request.** -/
theorem serve_conserved {r : Request} (h : Conserved cells totals s) (keeps : s.KeepsCells r)
    (hs : s.serve r = some s') : Conserved (cells ++ s.ops r) (totals ++ s.totalOps r) s' := by
  have shown := serve_shown h.shown keeps hs
  cases r with
  | float addr p value =>
    obtain ⟨r, wrote, rfl⟩ := serve_float hs
    simp only [ops, totalOps, List.append_nil] at shown ⊢
    exact h.quiet shown (Driver.writeFloat64_loaded wrote).1.sameLayout.dataAlloc
  | octet addr p value erange env =>
    obtain ⟨r, wrote, rfl⟩ := serve_octet hs
    simp only [ops, totalOps, List.append_nil] at shown ⊢
    exact h.quiet shown (Driver.writeOctet_loaded wrote).1.sameLayout.dataAlloc
  | sys l =>
    cases l with
    | write addr p value callocOk =>
      obtain ⟨writable, -, rfl⟩ := step_write hs
      exact ⟨shown, h.write writable⟩
    | packet p =>
      obtain ⟨-, r, hr, rfl⟩ := step_packet hs
      have layout := SameLayout.of_handled (Driver.eventHandler_handled hr)
      exact ⟨shown, fun down => h.packet keeps (layout.dataAlloc.symm.trans down)⟩
    | event env =>
      obtain ⟨r, hr, rfl⟩ := step_eventTask hs
      by_cases pc : s.event.pc = .startSection
      · simp only [ops, totalOps, if_pos pc, List.append_nil] at shown ⊢
        refine ⟨shown, fun _ det plot n => ?_⟩
        rw [sum_cleared]
        exact Nat.zero_le _
      · obtain ⟨-, tasked, -⟩ := (EventTask.step_tasked hr).resolve_right fun start => pc start.1
        simp only [ops, totalOps, if_neg pc, List.append_nil] at shown ⊢
        exact h.quiet shown tasked.sameLayout.dataAlloc
    | frame env =>
      obtain ⟨r, hr, rfl⟩ := step_frameTask hs
      obtain ⟨tasked, -⟩ := FrameTask.step_tasked hr
      simp only [ops, totalOps, List.append_nil] at shown ⊢
      exact h.quiet shown tasked.sameLayout.dataAlloc

theorem run_conserved {u : Uninit} {rs : List Request} (reached : Runs.run serve (init u) rs = some s)
    (keeps : Runs.Meets serve KeepsCells (init u) rs) :
    Conserved (Runs.log serve ops (init u) rs) (Runs.log serve totalOps (init u) rs) s := by
  have start : Conserved [] [] (init u) := ⟨shown_init u, fun _ det plot n => by simp⟩
  exact Runs.run_logs_invariant ops totalOps Conserved (fun _ _ _ _ _ => serve_conserved) reached keeps [] [] start

/-- **No event is counted twice.** Take a run of any requests that keeps the cells apart, up to a state in which no
new layout is due. As long as the total of a detector has not reached its limit, the cells of its pixel plot hold
together at most as much as the total says, and so do the cells of its spectrum. -/
theorem plot_within_total {u : Uninit} {rs : List Request} (reached : Runs.run serve (init u) rs = some s)
    (keeps : Runs.Meets serve KeepsCells (init u) rs) (down : s.drv.dataAlloc = false) {det : Nat} (lo : 1 ≤ det)
    (hi : det ≤ s.drv.numDets) (counting : s.drv.detTotalEvents det < 2 ^ 53) :
    ∃ b, s.drv.pData = some b ∧
      Tally.total b (s.drv.int det .ndArrayStart).toInt.toNat (s.drv.int det .ndArraySize).toInt.toNat ≤
        s.drv.detTotalEvents det ∧
      Tally.total b (s.drv.int det .ndArrayTOFStart).toInt.toNat ((s.drv.int 0 .tofMax).toInt.toNat + 1) ≤
        s.drv.detTotalEvents det := by
  obtain ⟨shown, within⟩ := run_conserved reached keeps
  have placed := shown.placed down
  obtain ⟨b, held, shows⟩ := shown.cells down
  have total := run_totals reached det
  have plots : ∀ plot, Tally.total b (s.drv.firstCell det plot) (s.drv.numCells det plot) ≤ s.drv.detTotalEvents det := by
    intro plot
    calc Tally.total b (s.drv.firstCell det plot) (s.drv.numCells det plot)
      _ ≤ ∑ k ∈ Finset.range (s.drv.numCells det plot),
            Board.count (Runs.log serve ops (init u) rs) ⟨det, plot, k⟩ := by
          apply Finset.sum_le_sum
          intro k below
          have cell := shows ⟨det, plot, k⟩ ⟨lo, hi, Finset.mem_range.1 below⟩
          rw [List.getD_eq_getElem?_getD, show s.drv.firstCell det plot + k = s.drv.place ⟨det, plot, k⟩ from rfl, cell,
            Option.getD_some, UInt32.toNat_ofNat']
          exact Nat.mod_le _ _
      _ ≤ Board.count (Runs.log serve totalOps (init u) rs) det := within down det plot _
      _ = s.drv.detTotalEvents det := by omega
  have range : (s.drv.int 0 .tofMax).toInt.toNat + 1 = s.drv.numCells det .spectrum := rfl
  refine ⟨b, held, ?_, ?_⟩
  · rw [placed.ndArrayStart lo hi, placed.ndArraySize lo hi]
    exact plots .pixels
  · rw [placed.ndArrayTOFStart lo hi, range]
    exact plots .spectrum

/-- Three events, of which the plot holds three and the spectrum, after its reset, one. -/
theorem plot_within_total_changedPlot : ∃ s, Runs.run serve (init .blank) changedPlot = some s ∧
    s.drv.detTotalEvents 1 = 3 ∧ s.drv.pData = some [0, 2, 0, 0, 0, 1, 0, 0, 1, 0, 0] ∧
    ∃ b, s.drv.pData = some b ∧ Tally.total b 0 7 ≤ 3 ∧ Tally.total b 7 4 ≤ 3 := by
  have state : (Runs.run serve (init .blank) changedPlot).map (fun s =>
      (s.drv.dataAlloc, s.drv.detTotalEvents 1, s.drv.pData, s.drv.numDets)) =
      some (false, 3, some [0, 2, 0, 0, 0, 1, 0, 0, 1, 0, 0], 1) := by
    decide +kernel
  have layout : (Runs.run serve (init .blank) changedPlot).map (fun s =>
      (s.drv.int 1 .ndArrayStart, s.drv.int 1 .ndArraySize, s.drv.int 1 .ndArrayTOFStart, s.drv.int 0 .tofMax)) =
      some (0, 7, 7, 3) := by
    decide +kernel
  obtain ⟨s, reached, state⟩ := Option.map_eq_some_iff.1 state
  rw [reached] at layout
  simp only [Option.map_some, Option.some.injEq, Prod.mk.injEq] at state layout
  obtain ⟨down, three, data, one⟩ := state
  obtain ⟨start, size, tofStart, tofMax⟩ := layout
  have keeps : Runs.Meets serve KeepsCells (init .blank) changedPlot :=
    Runs.meets_of_checks keepsCells_of_check (by decide +kernel)
  have within := plot_within_total reached keeps down le_rfl one.ge (by rw [three]; decide)
  rw [start, size, tofStart, tofMax, three] at within
  exact ⟨s, reached, three, data, within⟩

end Sys

end ADnED
