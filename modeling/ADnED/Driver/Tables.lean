import ADnED.Driver.File
import ADnED.Driver.Histogram

/-!
# The tables and the error value of the transformation

`calculate` looks a pixel up in one or two tables that `setDoubleArray` has stored. The
recorded size of a table is its length after any calls (`Sized`). `tableReads` lists the
lookups that `calculate` makes, and it is undefined exactly if one of them is outside its
table (`calculate_isSome_iff`). Only the first type compares the pixel with a size
(`table_reads_iff`).

The error value `-9999` is not told apart from a result: `eventHandler` scales it, shifts it and
puts it to the range test of the spectrum as any other (`failed_histograms_iff`).
-/

namespace ADnED

namespace Transform

/-- The constructor of `ADnEDTransformBase`. -/
def constructed (sqrt : ℚ → ℚ) : Transform := ⟨fun _ => 0, fun _ => 0, fun _ => none, fun _ => 0, false, sqrt⟩

/-- The arguments of a `setDoubleArray`, and whether its `calloc` succeeds. -/
structure ArrayCall where
  callocOk : Bool
  paramIndex : Nat
  source : Option (List ℚ)
  size : UInt32

/-- One call of `setDoubleArray`. -/
def store (t : Transform) (call : ArrayCall) : Option Transform :=
  (t.setDoubleArray call.callocOk call.paramIndex call.source call.size).map Prod.fst

/-- The recorded sizes are the lengths of the arrays. -/
def Sized (t : Transform) : Prop := ∀ k arr, t.array k = some arr → arr.length = (t.arraySize k).toNat

/-- The pixel has an entry in the array `k`. -/
def HasEntry (t : Transform) (k : Nat) (pixelID : UInt32) : Prop :=
  ∃ arr, t.array k = some arr ∧ pixelID.toNat < arr.length

/-- The arrays that a calculation uses. -/
def needed (type : UInt32) : List Nat := if type = 1 then [0] else if type = 3 then [0, 1] else []

/-- The arrays `k` whose element `p_Array[k][pixelID]` is read by `calc_deltaE`, in the order of
the reads: the second test is only reached behind the first, and the equation reads both again. -/
def deltaEReads (t : Transform) (pixelID tof : UInt32) : List Nat :=
  match t.array 0, t.array 1 with
  | some arr0, some arr1 =>
    if arr0[pixelID.toNat]?.any (0 < ·) then
      if arr1[pixelID.toNat]?.any (0 < ·) ∧ tof ≠ 0 then [0, 1, 0, 1] else [0, 1]
    else [0]
  | _, _ => []

/-- The arrays whose element of the pixel is read by `calculate`, in the order of the reads. -/
def tableReads (t : Transform) (type pixelID tof : UInt32) : List Nat :=
  if type = 1 then if (t.array 0).isSome ∧ pixelID < t.arraySize 0 then [0] else []
  else if type = 3 then t.deltaEReads pixelID tof
  else []

theorem constructed_sized (sqrt : ℚ → ℚ) : (constructed sqrt).Sized := by
  intro k arr h
  cases h

/-- What a call of `setDoubleArray` can do: nothing, or store a table. -/
theorem store_cases {t t' : Transform} {call : ArrayCall} (h : t.store call = some t') :
    t' = t ∨ ∃ source, call.source = some source ∧ call.size.toNat ≤ source.length ∧
      t' = { t with
        array := Function.update t.array call.paramIndex (some (source.take call.size.toNat))
        arraySize := Function.update t.arraySize call.paramIndex call.size } := by
  obtain ⟨r, stored, rfl⟩ := Option.map_eq_some_iff.1 h
  simp only [setDoubleArray] at stored
  split at stored
  · cases stored
    exact .inl rfl
  · split at stored
    · cases stored
      exact .inl rfl
    · rename_i source given
      split at stored
      · rename_i ok
        cases stored
        exact .inr ⟨source, given, ok.2, rfl⟩
      · cases stored

theorem Sized.store {t t' : Transform} {call : ArrayCall} (sized : t.Sized) (h : t.store call = some t') :
    t'.Sized := by
  rcases store_cases h with rfl | ⟨source, -, long, rfl⟩
  · exact sized
  · intro k arr stored
    by_cases here : k = call.paramIndex
    · subst here
      simp only [Function.update_self, Option.some.injEq] at stored ⊢
      rw [← stored, List.length_take]
      omega
    · simp only [Function.update_of_ne here] at stored ⊢
      exact sized k arr stored

/-- Whatever has been stored, the recorded sizes are the lengths. -/
theorem run_store_sized {sqrt : ℚ → ℚ} {calls : List ArrayCall} {t : Transform}
    (reached : Runs.run store (constructed sqrt) calls = some t) : t.Sized :=
  Runs.run_invariant Sized (fun _ _ _ sized h => sized.store h) reached (constructed_sized sqrt)

theorem Sized.hasEntry_iff {t : Transform} (sized : t.Sized) (k : Nat) (pixelID : UInt32) :
    t.HasEntry k pixelID ↔ t.array k ≠ none ∧ pixelID < t.arraySize k := by
  constructor
  · rintro ⟨arr, stored, lt⟩
    rw [sized k arr stored] at lt
    exact ⟨by simp [stored], UInt32.lt_iff_toNat_lt.2 lt⟩
  · rintro ⟨stored, lt⟩
    obtain ⟨arr, stored⟩ := Option.ne_none_iff_exists'.1 stored
    refine ⟨arr, stored, ?_⟩
    rw [sized k arr stored]
    exact UInt32.lt_iff_toNat_lt.1 lt

theorem hasEntry_iff {t : Transform} {k : Nat} {arr : List ℚ} (stored : t.array k = some arr) (pixelID : UInt32) :
    t.HasEntry k pixelID ↔ pixelID.toNat < arr.length := by
  constructor
  · rintro ⟨arr', stored', lt⟩
    rw [stored] at stored'
    cases stored'
    exact lt
  · exact fun lt => ⟨arr, stored, lt⟩

section DeltaE

variable {t : Transform} {arr0 arr1 : List ℚ} (ef : t.array 0 = some arr0) (l2 : t.array 1 = some arr1)
include ef l2

/-- The reads of `calc_deltaE` are inside the tables exactly if the first one is, and the second
one as well unless the entry of the first is not positive. -/
theorem deltaEReads_iff (pixelID tof : UInt32) :
    (∀ k ∈ t.deltaEReads pixelID tof, t.HasEntry k pixelID) ↔
      t.HasEntry 0 pixelID ∧ (arr0.getD pixelID.toNat 0 ≤ 0 ∨ t.HasEntry 1 pixelID) := by
  simp only [deltaEReads, ef, l2, List.getD_eq_getElem?_getD]
  cases entry : arr0[pixelID.toNat]? with
  | none =>
    have outside : ¬ t.HasEntry 0 pixelID := by
      rw [hasEntry_iff ef, not_lt]
      exact List.getElem?_eq_none_iff.1 entry
    simp [outside]
  | some a =>
    have inside : t.HasEntry 0 pixelID := (hasEntry_iff ef pixelID).2 (List.getElem?_eq_some_iff.1 entry).1
    by_cases pos : 0 < a
    · have both : (∀ k ∈ if arr1[pixelID.toNat]?.any (0 < ·) ∧ tof ≠ 0 then [0, 1, 0, 1] else [0, 1],
          t.HasEntry k pixelID) ↔ t.HasEntry 0 pixelID ∧ t.HasEntry 1 pixelID := by
        split <;> simp [inside]
      simp only [Option.any_some, decide_eq_true pos, if_true, Option.getD_some, not_le.2 pos, false_or]
      exact both
    · simp [pos, inside, not_lt.1 pos]

theorem calcDeltaE_isSome_iff (pixelID tof : UInt32) :
    (t.calcDeltaE pixelID tof).isSome ↔
      t.HasEntry 0 pixelID ∧ (arr0.getD pixelID.toNat 0 ≤ 0 ∨ t.HasEntry 1 pixelID) := by
  simp only [calcDeltaE, ef, l2, hasEntry_iff ef, hasEntry_iff l2, List.getD_eq_getElem?_getD]
  cases first : arr0[pixelID.toNat]? with
  | none =>
    have outside := List.getElem?_eq_none_iff.1 first
    simp [not_lt.2 outside]
  | some a =>
    have inside := (List.getElem?_eq_some_iff.1 first).1
    by_cases pos : a ≤ 0
    · simp [pos, inside]
    · cases second : arr1[pixelID.toNat]? with
      | none =>
        have outside := List.getElem?_eq_none_iff.1 second
        simp [pos, not_lt.2 outside]
      | some b =>
        have inside' := (List.getElem?_eq_some_iff.1 second).1
        simp only [Option.bind_eq_bind, Option.bind_some, if_neg pos, Option.getD_some, inside, inside', or_true,
          and_true, iff_true]
        split_ifs <;> rfl

/-- An entry that is not positive is an error. -/
theorem calcDeltaE_of_not_pos {pixelID : UInt32} (inside : t.HasEntry 0 pixelID)
    (not_pos : arr0.getD pixelID.toNat 0 ≤ 0) (tof : UInt32) :
    t.calcDeltaE pixelID tof = some (.fin transformError) := by
  have entry := List.getElem?_eq_getElem ((hasEntry_iff ef pixelID).1 inside)
  rw [List.getD_eq_getElem?_getD, entry, Option.getD_some] at not_pos
  simp [calcDeltaE, ef, l2, entry, not_pos]

end DeltaE

/-- Without both tables `calc_deltaE` reads nothing. -/
theorem calcDeltaE_missing {t : Transform} (missing : t.array 0 = none ∨ t.array 1 = none) (pixelID tof : UInt32) :
    t.deltaEReads pixelID tof = [] ∧ t.calcDeltaE pixelID tof = some (.fin transformError) := by
  rcases missing with missing | missing
  · simp [deltaEReads, calcDeltaE, missing]
  · cases ef : t.array 0 <;> simp [deltaEReads, calcDeltaE, ef, missing]

/-- Both tables are there, or one is missing. -/
theorem tables_cases (t : Transform) :
    (∃ arr0 arr1, t.array 0 = some arr0 ∧ t.array 1 = some arr1) ∨ t.array 0 = none ∨ t.array 1 = none := by
  cases ef : t.array 0 <;> cases l2 : t.array 1 <;> simp

/-- `calc_dspace_static` only reads below the recorded size. -/
theorem calcDspaceStatic_isSome_iff (t : Transform) (pixelID tof : UInt32) :
    (t.calcDspaceStatic pixelID tof).isSome ↔ ∀ k ∈ t.tableReads 1 pixelID tof, t.HasEntry k pixelID := by
  cases stored : t.array 0 with
  | none => simp [calcDspaceStatic, tableReads, stored]
  | some arr =>
    by_cases lt : pixelID < t.arraySize 0
    · simp [calcDspaceStatic, tableReads, stored, lt, hasEntry_iff stored]
    · simp [calcDspaceStatic, tableReads, stored, lt]

theorem calcDspaceStatic_outside {t : Transform} {pixelID : UInt32}
    (outside : t.array 0 = none ∨ t.arraySize 0 ≤ pixelID) (tof : UInt32) :
    t.calcDspaceStatic pixelID tof = some (.fin transformError) := by
  rcases outside with missing | above
  · simp [calcDspaceStatic, missing]
  · cases stored : t.array 0 <;> simp [calcDspaceStatic, stored, UInt32.not_lt.2 above]

theorem Sized.static_reads {t : Transform} (sized : t.Sized) (pixelID tof : UInt32) :
    ∀ k ∈ t.tableReads 1 pixelID tof, t.HasEntry k pixelID := by
  intro k read
  simp only [tableReads, if_true] at read
  split at read
  · rename_i inside
    obtain rfl := List.mem_singleton.1 read
    exact (sized.hasEntry_iff 0 pixelID).2 ⟨Option.isSome_iff_ne_none.1 inside.1, inside.2⟩
  · cases read

/-- A type that is neither the first nor the third reads no table. -/
theorem tableReads_other {type : UInt32} (one : type ≠ 1) (three : type ≠ 3) (t : Transform)
    (pixelID tof : UInt32) :
    needed type = [] ∧ t.tableReads type pixelID tof = [] ∧
      t.calculate type pixelID tof = some (.fin transformError) := by
  simp [needed, tableReads, calculate, calcDspaceDynamic, one, three]

theorem tableReads_three (t : Transform) (pixelID tof : UInt32) :
    t.tableReads 3 pixelID tof = t.deltaEReads pixelID tof := rfl

theorem calculate_three (t : Transform) (pixelID tof : UInt32) :
    t.calculate 3 pixelID tof = t.calcDeltaE pixelID tof := rfl

/-- **Undefined reads.** `calculate` is defined exactly if all its reads are inside the tables. -/
theorem calculate_isSome_iff (t : Transform) (type pixelID tof : UInt32) :
    (t.calculate type pixelID tof).isSome ↔ ∀ k ∈ t.tableReads type pixelID tof, t.HasEntry k pixelID := by
  by_cases one : type = 1
  · subst one
    exact t.calcDspaceStatic_isSome_iff pixelID tof
  · by_cases three : type = 3
    · subst three
      rw [tableReads_three, calculate_three]
      rcases t.tables_cases with ⟨arr0, arr1, ef, l2⟩ | missing
      · rw [calcDeltaE_isSome_iff ef l2, deltaEReads_iff ef l2]
      · simp [calcDeltaE_missing missing]
    · obtain ⟨-, reads, result⟩ := tableReads_other one three t pixelID tof
      simp [reads, result]

/-- **Table lookups.** After any calls of `setDoubleArray` the recorded sizes are the lengths of the
tables, and a calculation is defined if all its reads are inside them. They are, and a pixel outside
a table that is needed is an error, exactly if it is not the third calculation, or a table is missing,
or the pixel is below the size of the first table, and below that of the second unless its entry in
the first is not positive. -/
theorem table_reads_iff {sqrt : ℚ → ℚ} {calls : List ArrayCall} {t : Transform}
    (reached : Runs.run store (constructed sqrt) calls = some t) (type pixelID tof : UInt32) :
    (∀ k arr, t.array k = some arr → arr.length = (t.arraySize k).toNat) ∧
      ((t.calculate type pixelID tof).isSome ↔
        ∀ k ∈ t.tableReads type pixelID tof, t.array k ≠ none ∧ pixelID < t.arraySize k) ∧
      ((∀ k ∈ t.tableReads type pixelID tof, t.array k ≠ none ∧ pixelID < t.arraySize k) ∧
          ((∃ k ∈ needed type, t.array k = none ∨ t.arraySize k ≤ pixelID) →
            t.calculate type pixelID tof = some (.fin transformError)) ↔
        (type = 3 → ∀ arr0 arr1, t.array 0 = some arr0 → t.array 1 = some arr1 →
          pixelID < t.arraySize 0 ∧ (arr0.getD pixelID.toNat 0 ≤ 0 ∨ pixelID < t.arraySize 1))) := by
  have sized := run_store_sized reached
  simp only [← sized.hasEntry_iff]
  refine ⟨sized, t.calculate_isSome_iff type pixelID tof, ?_⟩
  by_cases three : type = 3
  · subst three
    have both : needed 3 = [0, 1] := rfl
    rw [tableReads_three, calculate_three, both]
    rcases t.tables_cases with ⟨arr0, arr1, ef, l2⟩ | missing
    · have first := sized.hasEntry_iff 0 pixelID
      have second := sized.hasEntry_iff 1 pixelID
      simp only [ef, l2, ne_eq, reduceCtorEq, not_false_eq_true, true_and] at first second
      rw [deltaEReads_iff ef l2, second]
      constructor
      · rintro ⟨⟨inside, rest⟩, -⟩ - arr0' arr1' ef' -
        rw [ef] at ef'
        cases ef'
        exact ⟨first.1 inside, rest⟩
      · intro inside
        obtain ⟨inside, rest⟩ := inside rfl arr0 arr1 ef l2
        refine ⟨⟨first.2 inside, rest⟩, fun outside => ?_⟩
        rcases rest with not_pos | below
        · exact calcDeltaE_of_not_pos ef l2 (first.2 inside) not_pos tof
        · -- Both tables have the pixel.
          simp [ef, l2, UInt32.not_le.2 inside, UInt32.not_le.2 below] at outside
    · obtain ⟨none_read, error⟩ := calcDeltaE_missing missing pixelID tof
      simp only [none_read, error, List.not_mem_nil, false_implies, implies_true, and_self, true_iff]
      intro _ arr0 arr1 ef l2
      simp [ef, l2] at missing
  · simp only [three, false_implies, iff_true]
    by_cases one : type = 1
    · subst one
      refine ⟨sized.static_reads pixelID tof, ?_⟩
      rintro ⟨k, used, outside⟩
      obtain rfl := List.mem_singleton.1 used
      exact calcDspaceStatic_outside outside tof
    · obtain ⟨unused, reads, -⟩ := tableReads_other one three t pixelID tof
      simp [unused, reads]

/-- Two tables of different lengths, the second one stored twice. -/
def twoTables : List ArrayCall :=
  [⟨true, 0, some [2, 0, 5], 3⟩, ⟨true, 1, some [7, 7], 2⟩, ⟨true, 1, some [4], 1⟩, ⟨true, 6, some [1], 1⟩]

/-- The last pixel of the second table, and one behind it whose entry in the first is zero. -/
theorem table_reads_twoTables :
    ∃ t, Runs.run store (constructed id) twoTables = some t ∧
      (∀ k ∈ t.tableReads 3 0 8, t.array k ≠ none ∧ (0 : UInt32) < t.arraySize k) ∧
      t.calculate 3 1 8 = some (.fin transformError) := by
  have reached : ∃ t, Runs.run store (constructed id) twoTables = some t ∧ t.array 0 = some [2, 0, 5] ∧
      t.array 1 = some [4] ∧ t.arraySize 0 = 3 ∧ t.arraySize 1 = 1 := ⟨_, rfl, rfl, rfl, rfl, rfl⟩
  obtain ⟨t, reached, ef, l2, size0, size1⟩ := reached
  refine ⟨t, reached, ?_, ?_⟩
  · refine ((table_reads_iff reached 3 0 8).2.2.2 ?_).1
    intro _ arr0 arr1 _ _
    rw [size0, size1]
    exact ⟨by decide, .inr (by decide)⟩
  · refine ((table_reads_iff reached 3 1 8).2.2.2 ?_).2 ⟨1, by decide, .inr (by rw [size1]; decide)⟩
    intro _ arr0 arr1 ef' _
    rw [ef] at ef'
    cases ef'
    rw [size0]
    exact ⟨by decide, .inl (by decide)⟩

/-- The third calculation reads behind both tables. -/
theorem table_reads_outside :
    ∃ t, Runs.run store (constructed id) twoTables = some t ∧ t.arraySize 0 = 3 ∧ t.arraySize 1 = 1 ∧
      t.tableReads 3 3 8 = [0] ∧ t.calculate 3 3 8 = none ∧
      t.tableReads 3 2 8 = [0, 1] ∧ t.calculate 3 2 8 = none :=
  ⟨_, rfl, rfl, rfl, by decide, by decide, by decide, by decide⟩

end Transform

namespace Driver

/-! ## The error value in the spectrum -/

/-- `calculate` gives its error value for the event. -/
def TransformFails (d : Driver) (det : Nat) (e : UInt32 × UInt32) : Prop :=
  (d.transform det).calculate (d.int det .tofTransType).toUInt32 (d.config.pixelOffset det e.1) e.2 =
    some (.fin transformError)

instance (d : Driver) (det : Nat) (e : UInt32 × UInt32) : Decidable (d.TransformFails det e) :=
  inferInstanceAs (Decidable (_ = _))

/-- What becomes of the error value: `tof * m_detTOFTransScale + m_detTOFTransOffset`. -/
def failedTOF (d : Driver) (det : Nat) : ℚ :=
  transformError * d.dbl det .tofTransScale + d.dbl det .tofTransOffset

/-- The event is in the range of `det`, and its time of flight and its pixel pass the tests for the
spectrum. -/
def Histograms (d : Driver) (det : Nat) (e : UInt32 × UInt32) : Bool :=
  d.inDet det e.1 && (d.eventTOF det e.1 e.2).any (·.within 0 d.tofMax.toNat) &&
    (d.mapPixel det e.1).any (d.passesPixelROI det)

/-- The increment is one of the spectrum of `det`. -/
def ofSpectrum (det : Nat) (bump : Bump) : Bool := bump.det == det && bump.plot == .spectrum

variable {d : Driver} {det : Nat}

/-- A turn increments the spectrum of its detector once if the event is histogrammed. -/
theorem turn_spectrum {e : UInt32 × UInt32} {v : LoopVars} {r : LoopVars × List Bump}
    (turn : d.integrateDet det e.1 e.2 v = some r) :
    r.2.countP (ofSpectrum det) = if d.Histograms det e then 1 else 0 := by
  by_cases inside : d.inDet det e.1 = true
  · rw [integrateDet_eq inside] at turn
    obtain ⟨x, time, turn⟩ := Option.bind_eq_some_iff.1 turn
    obtain ⟨m, mapped, turn⟩ := Option.bind_eq_some_iff.1 turn
    obtain ⟨q, plotted, rfl⟩ := Option.map_eq_some_iff.1 turn
    have pixels : q.2.countP (ofSpectrum det) = 0 := by
      rw [List.countP_eq_zero]
      intro bump mem
      simp [ofSpectrum, bumpPixels_mem plotted bump mem]
    have histograms : d.Histograms det e = (x.within 0 d.tofMax.toNat && d.passesPixelROI det m) := by
      simp [Histograms, inside, time, mapped]
    have spectrum : d.bumpSpectrum det (d.load det x m v) =
        if (x.within 0 d.tofMax.toNat && d.passesPixelROI det m) = true then
          [⟨det, .spectrum, ((d.det det).ndArrayTOFStart.toUInt32 + x.floorUInt32).toNat⟩]
        else [] := rfl
    rw [List.countP_append, pixels, Nat.zero_add, histograms, spectrum]
    by_cases counted : (x.within 0 d.tofMax.toNat && d.passesPixelROI det m) = true
    · rw [if_pos counted, if_pos counted]
      simp [ofSpectrum]
    · rw [if_neg counted, if_neg counted]
      rfl
  · rw [integrateDet_outside (by simpa using inside)] at turn
    cases turn
    simp [Histograms, inside]

/-- The turns of the other detectors leave the spectrum alone. -/
theorem turn_spectrum_other {e : UInt32 × UInt32} {v : LoopVars} {r : LoopVars × List Bump} {det' : Nat}
    (turn : d.integrateDet det e.1 e.2 v = some r) (other : det ≠ det') : r.2.countP (ofSpectrum det') = 0 := by
  rw [List.countP_eq_zero]
  intro bump mem
  simp [ofSpectrum, integrateDet_det turn bump mem, other]

/-- A list of turns increments the spectrum of `det` once for each turn of it that is histogrammed. -/
theorem trace_spectrum {ts : List Turn} {v : LoopVars} {r : LoopVars × List Bump} (h : d.trace ts v = some r) :
    r.2.countP (ofSpectrum det) = ts.countP (fun t => t.1 == det && d.Histograms det t.2) := by
  induction ts generalizing v r with
  | nil =>
    cases h
    rfl
  | cons t ts ih =>
    obtain ⟨q, first, h⟩ := Option.bind_eq_some_iff.1 h
    obtain ⟨q', rest, rfl⟩ := Option.map_eq_some_iff.1 h
    rw [List.countP_append, ih rest, List.countP_cons, Nat.add_comm]
    congr 1
    by_cases here : t.1 = det
    · subst here
      simp only [turn_spectrum first, beq_self_eq_true, Bool.true_and]
    · simp [turn_spectrum_other first here, here]

section Fails

variable {e : UInt32 × UInt32} (on : d.int det .tofTransType ≠ 0) (scale : 0 ≤ d.dbl det .tofTransScale)
  (fails : d.TransformFails det e)
include on scale fails

/-- The error value is scaled and shifted. -/
theorem eventTOF_fails : d.config.eventTOF det e.1 e.2 = some (.fin (d.failedTOF det)) := by
  have enabled : (d.config.det det).tofTransType ≠ 0 := on
  have scaled : 0 ≤ (d.config.det det).tofTransScale := scale
  have error : (d.config.transform det).calculate (d.config.det det).tofTransType.toUInt32
      (d.config.pixelOffset det e.1) e.2 = some (.fin transformError) := fails
  simp only [eventTOF, if_pos enabled, error, Option.map_some, if_pos scaled]
  rfl

/-- **A failed transformation.** Its event is histogrammed exactly if the error value is moved into
the range of the spectrum and the pixel passes. -/
theorem failed_histograms_iff :
    d.config.Histograms det e = true ↔
      d.config.inDet det e.1 = true ∧ (0 ≤ d.failedTOF det ∧ d.failedTOF det ≤ d.tofMax.toNat) ∧
        (d.config.mapPixel det e.1).any (d.config.passesPixelROI det) = true := by
  have range : d.config.tofMax = d.tofMax := rfl
  simp only [Histograms, eventTOF_fails on scale fails, Option.any_some, Dbl.within, range, Bool.and_eq_true,
    decide_eq_true_eq, and_assoc]

end Fails

/-- **Failed transformations.** If the scaled and shifted error value is outside the range of the
spectrum, the turn of an event whose transformation fails increments no cell of the spectrum, and
in a whole packet the spectrum is incremented once for each event that is histogrammed and whose
transformation does not fail. -/
theorem failed_not_histogrammed (active : det ∈ d.active) (on : d.int det .tofTransType ≠ 0)
    (scale : 0 ≤ d.dbl det .tofTransScale)
    (outside : d.dbl det .tofTransOffset < 9999 * d.dbl det .tofTransScale ∨
      9999 * d.dbl det .tofTransScale + d.tofMax.toNat < d.dbl det .tofTransOffset)
    {p : Packet} (accepted : d.Accepted p) {bs : List Bump} (bumped : d.increments p = some bs) :
    (∀ e ∈ p.events, d.TransformFails det e → ∀ v r, d.config.integrateDet det e.1 e.2 v = some r →
        ∀ bump ∈ r.2, bump.plot ≠ .spectrum) ∧
      bs.countP (fun bump => bump.det == det && bump.plot == .spectrum) =
        p.events.countP (fun e => d.config.Histograms det e && !decide (d.TransformFails det e)) := by
  have never : ∀ e, d.TransformFails det e → d.config.Histograms det e = false := by
    intro e fails
    rw [← Bool.not_eq_true, failed_histograms_iff on scale fails]
    rintro ⟨-, ⟨low, high⟩, -⟩
    simp only [failedTOF, transformError] at low high
    rcases outside with below | above <;> linarith
  constructor
  · rintro e - fails v r turn bump mem spectrum
    have none_counted := turn_spectrum turn
    rw [never e fails, if_neg Bool.false_ne_true, List.countP_eq_zero] at none_counted
    exact none_counted bump mem (by simp [ofSpectrum, integrateDet_det turn bump mem, spectrum])
  · have integrated : d.verdict p = .integrated := accepted
    rw [increments, if_pos integrated] at bumped
    obtain ⟨r, traced, rfl⟩ := Option.map_eq_some_iff.1 bumped
    have counted : r.2.countP (ofSpectrum det) = p.events.countP (d.config.Histograms det) := by
      rw [trace_spectrum traced, countP_turns d.active_nodup active]
    refine counted.trans (List.countP_congr fun e _ => ?_)
    by_cases fails : d.TransformFails det e
    · simp [never e fails]
    · simp [fails]

/-- Detector 1 is transformed with a table that has not been loaded. -/
def noTable : Driver := twoPlots.layOut.setInt 1 .tofTransType 1

/-- With the scale and the offset of a new driver the error value is negative. -/
theorem failed_not_histogrammed_noTable :
    noTable.TransformFails 1 (1, 4) ∧
      ∃ bs, noTable.increments (.single 0 1 4) = some bs ∧
        bs.countP (fun bump => bump.det == 1 && bump.plot == .spectrum) = 0 := by
  have fails : noTable.TransformFails 1 (1, 4) := by decide +kernel
  have bumped : ∃ bs, noTable.increments (.single 0 1 4) = some bs :=
    Option.isSome_iff_exists.1 (by decide +kernel)
  obtain ⟨bs, bumped⟩ := bumped
  have active : 1 ∈ noTable.active := by decide
  have accepted : noTable.Accepted (.single 0 1 4) := by decide +kernel
  have counted := (failed_not_histogrammed active (by decide) (by decide +kernel) (.inl (by decide +kernel))
    accepted bumped).2
  refine ⟨fails, bs, bumped, counted.trans ?_⟩
  decide +kernel

/-- An offset of 10000 moves the error value to 1, and the event is counted there. -/
theorem failed_histogrammed :
    (noTable.setDbl 1 .tofTransOffset 10000).Accepted (.single 0 1 4) ∧
      (noTable.setDbl 1 .tofTransOffset 10000).TransformFails 1 (1, 4) ∧
      (noTable.setDbl 1 .tofTransOffset 10000).int 1 .ndArrayTOFStart = 10 ∧
      (noTable.setDbl 1 .tofTransOffset 10000).increments (.single 0 1 4) =
        some [⟨1, .pixels, 1⟩, ⟨1, .spectrum, 11⟩] := by
  decide +kernel

end Driver

end ADnED
