import ADnED.Driver.Histogram

/-!
# The distribution of events over packets does not matter

The integration loop carries variables from one turn to the next, but with one of the
four plot types a turn computes its cell anew: its increments depend on the event and
the detector alone (`integrateDet_bumps`). So the increments of a sequence of packets
are those of its turns (`bumpsOf_eq`), in whatever way the events are cut into packets,
and increments commute (`distribution_independent`).
-/

namespace ADnED

namespace Driver

variable {d : Driver}

/-- The plot of `det` is one of the four. -/
def KnownPlot (d : Driver) (det : Nat) : Prop := d.int det .twoDType = 0 ∨ d.Binned det

/-- The cell of a binned plot does not depend on the turns before. -/
theorem binnedIndex_tofIndex {det : Nat} (binned : d.Binned det) (x : Dbl) (mapped : Int32) (v v' : LoopVars) :
    (d.binnedIndex det (d.load det x mapped v)).map LoopVars.tofIndex =
      (d.binnedIndex det (d.load det x mapped v')).map LoopVars.tofIndex := by
  have kinds : (1 : Int32).toUInt32 = 1 ∧ (2 : Int32).toUInt32 = 2 ∧ (3 : Int32).toUInt32 = 3 := by decide
  have others : (2 : UInt32) ≠ 1 ∧ (3 : UInt32) ≠ 1 ∧ (3 : UInt32) ≠ 2 := by decide
  simp only [binnedIndex, load]
  cases tofBin x d.tofMax (clampBins (d.int det .tofNumBins) d.tofMax) with
  | none => rcases binned with type | type | type <;> simp [type, kinds, others]
  | some bin => rcases binned with type | type | type <;> simp [type, kinds, others]

/-- The increment of the 2-D plot does not depend on the turns before. -/
theorem bumpPixels_bumps {det : Nat} (known : d.KnownPlot det) (x : Dbl) (mapped : Int32) :
    ∃ bs, ∀ v, (d.bumpPixels det (d.load det x mapped v)).map Prod.snd = bs := by
  let pixel : Bump := ⟨det, .pixels, ((d.det det).ndArrayStart + mapped).toInt⟩
  let bin : Int32 → List Bump := fun k =>
    if k < (d.det det).size - 1 then [⟨det, .pixels, ((d.det det).ndArrayStart + k).toInt⟩] else []
  simp only [bumpPixels]
  by_cases roi : (d.det det).tofROIEnabled ≠ 0
  · simp only [if_pos roi]
    by_cases window : x.inWindow (d.det det).tofROIStart.toInt
        ((d.det det).tofROIStart + (d.det det).tofROISize).toInt = true
    · exact ⟨some [pixel], fun v => congrArg (Option.map Prod.snd) (if_pos window)⟩
    · exact ⟨some [], fun v => congrArg (Option.map Prod.snd) (if_neg window)⟩
  simp only [if_neg roi]
  by_cases xy : d.int det .twoDType = 0
  · have kind : (d.int det .twoDType).toUInt32 = 0 := (Word32.toUInt32_inj (y := 0)).2 xy
    exact ⟨some [pixel], fun v => congrArg (Option.map Prod.snd) (if_pos kind)⟩
  have kind : ¬ (d.int det .twoDType).toUInt32 = 0 := fun zero => xy ((Word32.toUInt32_inj (y := 0)).1 zero)
  by_cases within : x.within 0 d.tofMax.toNat = true
  · have cell := binnedIndex_tofIndex (known.resolve_left xy) x mapped
    refine ⟨((d.binnedIndex det (d.load det x mapped .zero)).map LoopVars.tofIndex).map bin, fun v => ?_⟩
    rw [← cell v]
    refine (congrArg (Option.map Prod.snd) ((if_neg kind).trans (if_pos within))).trans ?_
    rw [Option.map_map, Option.map_map]
    congr 1
    funext u
    exact apply_ite Prod.snd _ _ _
  · exact ⟨some [], fun v => congrArg (Option.map Prod.snd) ((if_neg kind).trans (if_neg within))⟩

/-- The increments of a turn do not depend on the turns before. -/
theorem integrateDet_bumps {det : Nat} (known : d.KnownPlot det) (pixel t : UInt32) (v v' : LoopVars) :
    (d.integrateDet det pixel t v).map Prod.snd = (d.integrateDet det pixel t v').map Prod.snd := by
  by_cases inside : d.inDet det pixel = true
  · rw [integrateDet_eq inside, integrateDet_eq inside]
    cases d.eventTOF det pixel t with
    | none => rfl
    | some x =>
      cases d.mapPixel det pixel with
      | none => rfl
      | some mapped =>
        obtain ⟨bs, plotted⟩ := bumpPixels_bumps known x mapped
        have both := (plotted v).trans (plotted v').symm
        have spectrum : d.bumpSpectrum det (d.load det x mapped v) = d.bumpSpectrum det (d.load det x mapped v') := rfl
        simp only [Option.bind_some, Option.map_map, Function.comp_def, spectrum]
        simpa [Option.map_map, Function.comp_def] using
          congrArg (Option.map (· ++ d.bumpSpectrum det (d.load det x mapped v'))) both
  · rw [integrateDet_outside (by simpa using inside), integrateDet_outside (by simpa using inside)]
    rfl

/-- The increments of one turn. -/
def turnBumps (d : Driver) (t : Turn) : Option (List Bump) :=
  (d.integrateDet t.1 t.2.1 t.2.2 .zero).map Prod.snd

/-- The increments of a list of turns, each taken by itself. -/
def allBumps (d : Driver) : List Turn → Option (List Bump)
  | [] => some []
  | t :: ts => (d.turnBumps t).bind fun bs => (d.allBumps ts).map (bs ++ ·)

theorem allBumps_append (d : Driver) (ts us : List Turn) :
    d.allBumps (ts ++ us) = (d.allBumps ts).bind fun bs => (d.allBumps us).map (bs ++ ·) := by
  induction ts with
  | nil => simp [allBumps]
  | cons t ts ih =>
    rw [List.cons_append, allBumps, ih, allBumps]
    cases d.turnBumps t with
    | none => rfl
    | some bs =>
      cases d.allBumps ts with
      | none => rfl
      | some cs => simp [Option.map_map, Function.comp_def]

/-- The order of the turns only matters for the order of the increments. -/
theorem allBumps_perm {ts us : List Turn} (same : ts.Perm us) :
    ∀ bs, d.allBumps ts = some bs → ∃ cs, d.allBumps us = some cs ∧ bs.Perm cs := by
  induction same with
  | nil => exact fun bs h => ⟨bs, h, .refl bs⟩
  | cons t _ ih =>
    intro bs h
    obtain ⟨first, ht, h⟩ := Option.bind_eq_some_iff.1 h
    obtain ⟨rest, hrest, rfl⟩ := Option.map_eq_some_iff.1 h
    obtain ⟨cs, hcs, perm⟩ := ih rest hrest
    exact ⟨first ++ cs, by rw [allBumps, ht, Option.bind_some, hcs]; rfl, perm.append_left first⟩
  | swap t u ts =>
    intro bs h
    obtain ⟨first, ht, h⟩ := Option.bind_eq_some_iff.1 h
    obtain ⟨tail, later, rfl⟩ := Option.map_eq_some_iff.1 h
    obtain ⟨second, hu, later⟩ := Option.bind_eq_some_iff.1 later
    obtain ⟨rest, hrest, rfl⟩ := Option.map_eq_some_iff.1 later
    refine ⟨second ++ (first ++ rest), ?_, ?_⟩
    · simp [allBumps, ht, hu, hrest]
    · have swapped : (first ++ second).Perm (second ++ first) := List.perm_append_comm
      simpa only [List.append_assoc] using swapped.append_right rest
  | trans _ _ ih ih' =>
    intro bs h
    obtain ⟨cs, hcs, perm⟩ := ih bs h
    obtain ⟨es, hes, perm'⟩ := ih' cs hcs
    exact ⟨es, hes, perm.trans perm'⟩

/-- The loop variables do not carry anything from turn to turn. -/
theorem trace_bumps {ts : List Turn} (known : ∀ t ∈ ts, d.KnownPlot t.1) (v : LoopVars) :
    (d.trace ts v).map Prod.snd = d.allBumps ts := by
  induction ts generalizing v with
  | nil => rfl
  | cons t ts ih =>
    obtain ⟨here, rest⟩ := List.forall_mem_cons.1 known
    have first : d.turnBumps t = (d.integrateDet t.1 t.2.1 t.2.2 v).map Prod.snd :=
      integrateDet_bumps here t.2.1 t.2.2 .zero v
    rw [trace, allBumps, first]
    cases d.integrateDet t.1 t.2.1 t.2.2 v with
    | none => rfl
    | some r => simp only [Option.bind_some, Option.map_some, ← ih rest r.1, Option.map_map, Function.comp_def]

/-- The increments of a sequence of packets are those of its turns. -/
theorem bumpsOf_eq {ds : List Nat} (known : ∀ det ∈ ds, d.KnownPlot det)
    (packets : List (List (UInt32 × UInt32))) : d.bumpsOf ds packets = d.allBumps (turns ds packets.flatten) := by
  induction packets with
  | nil => rfl
  | cons events packets ih =>
    have traced : d.bumps ds events = d.allBumps (turns ds events) :=
      trace_bumps (fun t mem => known t.1 (mem_turns.1 mem).1) .zero
    rw [bumpsOf, traced, ih, List.flatten_cons, turns_append, allBumps_append]

/-- Increments commute: the data after a list of turns do not depend on their order. -/
theorem bumpAll_allBumps_perm {β : Type} {ts us : List Turn} (same : ts.Perm us) (b : List UInt32)
    (f : List UInt32 → β) :
    (d.allBumps ts).bind (fun bs => (Tally.bumpAll (bs.map Bump.index) b).map f) =
      (d.allBumps us).bind fun bs => (Tally.bumpAll (bs.map Bump.index) b).map f := by
  cases hts : d.allBumps ts with
  | some bs =>
    obtain ⟨cs, hus, perm⟩ := allBumps_perm same bs hts
    rw [hus, Option.bind_some, Option.bind_some, Tally.bumpAll_perm (perm.map _) b]
  | none =>
    cases hus : d.allBumps us with
    | none => rfl
    | some cs =>
      obtain ⟨bs, some_bs, -⟩ := allBumps_perm same.symm cs hus
      rw [hts] at some_bs
      cases some_bs

/-- **Distribution independence.** Two sequences of accepted packets with the same
events leave the same data, however the events are distributed over the packets and
their channels; and if one of them is undefined, so is the other. -/
theorem distribution_independent {packets packets' : List Packet} (known : ∀ det ∈ d.active, d.KnownPlot det)
    (accepted : Runs.Meets deliver Accepted d packets) (accepted' : Runs.Meets deliver Accepted d packets')
    (same : (packets.flatMap Packet.events).Perm (packets'.flatMap Packet.events)) :
    (Runs.run deliver d packets).map (fun d' => (d'.pData, d'.detTotalEvents)) =
      (Runs.run deliver d packets').map fun d' => (d'.pData, d'.detTotalEvents) := by
  cases data : d.pData with
  | none =>
    have empty : ∀ {ps}, Runs.Meets deliver Accepted d ps → ps = [] := by
      intro ps meets
      cases ps with
      | nil => rfl
      | cons p ps =>
        obtain ⟨b, some_data⟩ := meets.1.data
        rw [data] at some_data
        cases some_data
    rw [empty accepted, empty accepted']
  | some b =>
    have order := same.flatMap_right fun e => d.active.map fun det => (det, e)
    have hits : ∀ det, d.config.hits det (turns d.active (packets.flatMap Packet.events)) =
        d.config.hits det (turns d.active (packets'.flatMap Packet.events)) := fun det => order.countP_eq _
    have known : ∀ det ∈ d.active, d.config.KnownPlot det := known
    rw [run_deliver accepted data, run_deliver accepted' data, bumpsOf_eq known, bumpsOf_eq known]
    simp only [hits]
    exact bumpAll_allBumps_perm order b _

/-- The three events of `threePackets` in two packets and in another order. -/
def otherPackets : List Packet := [.ofEvents 1 [(3, 5), (2, 12)] (by decide), .single 0 2 4]

/-- They leave the same data. -/
theorem distribution_independent_twoPlots :
    ∃ d₁ d₂, Runs.run deliver twoPlots.layOut.clearParams threePackets = some d₁ ∧
      Runs.run deliver twoPlots.layOut.clearParams otherPackets = some d₂ ∧
      d₁.pData = d₂.pData ∧ d₁.detTotalEvents = d₂.detTotalEvents := by
  have known : ∀ det ∈ twoPlots.layOut.clearParams.active, twoPlots.layOut.clearParams.KnownPlot det := by
    unfold KnownPlot Binned
    decide
  have events : (threePackets.flatMap Packet.events).Perm (otherPackets.flatMap Packet.events) := by decide +kernel
  have same := distribution_independent known (Runs.meets_of_decide (by decide +kernel))
    (Runs.meets_of_decide (by decide +kernel)) events
  obtain ⟨d₁, reached⟩ := Option.isSome_iff_exists.1
    (show (Runs.run deliver twoPlots.layOut.clearParams threePackets).isSome = true by decide +kernel)
  obtain ⟨d₂, reached'⟩ := Option.isSome_iff_exists.1
    (show (Runs.run deliver twoPlots.layOut.clearParams otherPackets).isSome = true by decide +kernel)
  rw [reached, reached', Option.map_some, Option.map_some, Option.some.injEq, Prod.mk.injEq] at same
  exact ⟨d₁, d₂, reached, reached', same⟩

end Driver

end ADnED
