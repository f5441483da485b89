import ADnED.Driver.Confined
import ADnED.Tasks.LayoutRuns

/-!
# Pixel maps over whole runs

A pixel map is checked when it is loaded, against the size of that moment and up to and
including it, and its length is not compared with the pixel range at all. `lookup_valid`
shows that every lookup finds an entry, and that the entry names a pixel of its detector, if
each step that loads a map or changes a range or a size leaves the map and the parameters
fitting (`MapFits`); `lookup_beyond_size` is a run with a map that the driver accepts and
that does not fit.
-/

namespace ADnED

/-- The parameters a pixel map has to fit. -/
def IntParam.isRange : IntParam → Bool
  | .pixelNumStart | .pixelNumEnd | .pixelNumSize => true
  | _ => false

namespace Driver

/-- `d'` has the range and the size of `d` for `det`. -/
structure SameSizes (d d' : Driver) (det : Nat) : Prop where
  start : d'.int det .pixelNumStart = d.int det .pixelNumStart
  stop : d'.int det .pixelNumEnd = d.int det .pixelNumEnd
  size : d'.detSize det = d.detSize det

namespace SameSizes

variable {d d' d'' : Driver} {det : Nat}

theorem of_int (h : ∀ p, p.isRange = true → d'.int det p = d.int det p) : SameSizes d d' det where
  start := h _ rfl
  stop := h _ rfl
  size := by simp only [detSize, h .pixelNumSize rfl, h .pixelNumStart rfl, h .pixelNumEnd rfl]

theorem of_layout (h : SameLayout d d') : SameSizes d d' det :=
  ⟨h.int det _ rfl, h.int det _ rfl, h.detSize det⟩

theorem trans (h : SameSizes d d' det) (h' : SameSizes d' d'' det) : SameSizes d d'' det :=
  ⟨h'.start.trans h.start, h'.stop.trans h.stop, h'.size.trans h.size⟩

end SameSizes

theorem publishPixels_sizes (d : Driver) (det det' : Nat) : SameSizes d (d.publishPixels det) det' where
  start := by simp [publishPixels]
  stop := by simp [publishPixels]
  size := detSize_publishPixels d det det'

theorem allocPixels_sizes (ds : List Nat) (d : Driver) (det : Nat) : SameSizes d (allocPixels ds d).1 det := by
  induction ds generalizing d with
  | nil => exact .of_int fun _ _ => rfl
  | cons e ds ih =>
    rw [allocPixels]
    split
    · exact (publishPixels_sizes d e det).trans (ih _)
    · exact .of_int fun _ _ => rfl

theorem allocTOF_sizes (tofMax : Int32) (ds : List Nat) (tofStart : UInt32) (d : Driver) (det : Nat) :
    SameSizes d (allocTOF tofMax ds tofStart d) det := by
  induction ds generalizing tofStart d with
  | nil => exact .of_int fun _ _ => rfl
  | cons e ds ih =>
    refine SameSizes.trans (.of_int fun p range => ?_) (ih _ _)
    have other : p ≠ .ndArrayTOFStart ∧ p ≠ .ndArrayTOFEnd := by
      constructor <;> rintro rfl <;> cases range
    simp [setInt, other]

theorem allocBuffer_sizes (callocOk : Bool) (numDet tofMax : Int32) (d : Driver) (det : Nat) :
    SameSizes d (allocFinish (allocBuffer callocOk numDet tofMax d)).1 det := by
  refine .of_int fun p _ => ?_
  unfold allocFinish allocBuffer
  split_ifs <;> rfl

/-- `allocArray` keeps the ranges, and a size that it fills in is the one that counted before. -/
theorem allocArray_sizes (callocOk : Bool) (d : Driver) (det : Nat) :
    SameSizes d (d.allocArray callocOk).1 det := by
  let d₁ : Driver := { d with tofMax := (d.int 0 .tofMax).toUInt32, dataMaxSize := 0 }
  have cleared : SameSizes d d₁ det := .of_int fun _ _ => rfl
  have pixels := cleared.trans (allocPixels_sizes (dets (d.int 0 .numDet)) d₁ det)
  simp only [allocArray]
  split
  · exact .of_int fun _ _ => rfl
  · split
    · exact .of_int fun _ _ => rfl
    · split
      · rename_i e failed
        rw [failed] at pixels
        exact pixels
      · rename_i e laid
        rw [laid] at pixels
        have pixels : SameSizes d e det := pixels
        exact (pixels.trans (allocTOF_sizes _ _ _ e det)).trans (allocBuffer_sizes _ _ _ _ det)

/-! ## Maps that fit -/

theorem active_numDets {d : Driver} {det : Nat} (h : det ∈ d.active) : 1 ≤ det ∧ det ≤ d.numDets := by
  obtain ⟨lo, hi⟩ := mem_dets.1 h
  refine ⟨lo, ?_⟩
  unfold numDetClamped at hi
  rw [numDets]
  split at hi
  · rename_i many
    have four : (4 : Int32).toInt.toNat = maxDets := rfl
    omega
  · exact hi

/-- The map has an entry for every pixel in range, and its entries are pixels of the detector. -/
structure MapFits (d : Driver) (det : Nat) (m : List UInt32) : Prop where
  range : (d.int det .pixelNumStart).toUInt32 ≤ (d.int det .pixelNumEnd).toUInt32 →
    ((d.int det .pixelNumEnd).toUInt32 - (d.int det .pixelNumStart).toUInt32).toNat < m.length
  entries : ∀ e ∈ m, (e.toNat : Int) < (d.detSize det).toInt

def mapFitsCheck (d : Driver) (det : Nat) (m : List UInt32) : Bool :=
  decide ((d.int det .pixelNumStart).toUInt32 ≤ (d.int det .pixelNumEnd).toUInt32 →
    ((d.int det .pixelNumEnd).toUInt32 - (d.int det .pixelNumStart).toUInt32).toNat < m.length) &&
    m.all fun e => decide ((e.toNat : Int) < (d.detSize det).toInt)

theorem mapFits_of_check {d : Driver} {det : Nat} {m : List UInt32} (h : d.mapFitsCheck det m = true) :
    d.MapFits det m := by
  simp only [mapFitsCheck, Bool.and_eq_true, decide_eq_true_eq, List.all_eq_true] at h
  exact ⟨h.1, h.2⟩

theorem MapFits.congr {d d' : Driver} {det : Nat} {m : List UInt32} (h : d.MapFits det m)
    (same : SameSizes d d' det) : d'.MapFits det m := by
  constructor
  · rw [same.start, same.stop]
    exact h.range
  · rw [same.size]
    exact h.entries

/-- Every map that is installed fits, and has the recorded size. -/
structure Mapped (d : Driver) : Prop where
  fits : ∀ det m, d.pixelMap det = some m → d.MapFits det m
  sized : ∀ det, d.MapSized det

/-- Only the maps, the ranges and the sizes matter. -/
theorem Mapped.congr {d d' : Driver} (h : d.Mapped) (map : d'.pixelMap = d.pixelMap)
    (size : d'.pixelMapSize = d.pixelMapSize) (same : ∀ det, SameSizes d d' det) : d'.Mapped where
  fits := by
    intro det m installed
    rw [map] at installed
    exact (h.fits det m installed).congr (same det)
  sized := by
    intro det m installed
    rw [map] at installed
    rw [size]
    exact h.sized det m installed

/-- What a lookup finds: the offset is below the recorded size, and the entry below the
published size of the detector, so that its cell is in the pixel region. -/
structure LooksUp (d : Driver) (det : Nat) (pixel : UInt32) : Prop where
  offset : (d.config.pixelOffset det pixel).toNat < (d.pixelMapSize det).toNat
  entry : ∃ e : UInt32, d.config.mapPixel det pixel = some e.toInt32 ∧
    (e.toNat : Int) < (d.int det .ndArraySize).toInt ∧
    (d.Placed → d.InOwnRegion ⟨det, .pixels, (d.int det .ndArrayStart + e.toInt32).toInt⟩)

/-- A map that fits is looked up safely as long as the layout is the one of the parameters. -/
theorem Mapped.looksUp {d : Driver} (h : d.Mapped) (laid : d.LaidOut) {det : Nat} (mem : det ∈ d.active)
    (enabled : d.int det .pixelMapEnable ≠ 0) {m : List UInt32} (installed : d.pixelMap det = some m)
    {pixel : UInt32} (inside : d.config.inDet det pixel = true) : d.LooksUp det pixel := by
  obtain ⟨lo, hi⟩ := active_numDets mem
  obtain ⟨above, below⟩ : (d.int det .pixelNumStart).toUInt32 ≤ pixel ∧
      pixel ≤ (d.int det .pixelNumEnd).toUInt32 := inDet_iff.1 inside
  have fits := h.fits det m installed
  have sized := h.sized det m installed
  have range := fits.range (UInt32.le_trans above below)
  have offset : (d.config.pixelOffset det pixel).toNat = pixel.toNat - (d.int det .pixelNumStart).toUInt32.toNat :=
    UInt32.toNat_sub_of_le _ _ above
  rw [UInt32.toNat_sub_of_le _ _ (UInt32.le_trans above below)] at range
  rw [UInt32.le_iff_toNat_le] at above below
  have short : (d.config.pixelOffset det pixel).toNat < m.length := by omega
  have size : d.int det .ndArraySize = d.detSize det := laid.values det lo hi .ndArraySize _ rfl
  have entry := fits.entries _ (List.getElem_mem short)
  refine ⟨by omega, m[(d.config.pixelOffset det pixel).toNat], ?_, by rw [size]; exact entry, fun placed => ?_⟩
  · have some_size : 0 < d.pixelMapSize det := by
      rw [UInt32.lt_iff_toNat_lt, UInt32.toNat_zero]
      omega
    have looked : m[(d.config.pixelOffset det pixel).toNat]? = some m[(d.config.pixelOffset det pixel).toNat] :=
      List.getElem?_eq_getElem short
    simp only [mapPixel]
    rw [if_pos ⟨enabled, some_size⟩]
    simp only [show d.config.pixelMap det = some m from installed, looked, Option.map_some]
  · have cells := placed.ndArraySize lo hi
    have bounds := Word32.toInt_bounds (d.detSize det)
    rw [size] at cells
    have value := Word32.toInt_toInt32_of_lt (x := m[(d.config.pixelOffset det pixel).toNat]) (by omega)
    rw [inOwnRegion_iff placed lo hi, pixel_inPlot_iff placed lo hi]
    omega

/-- If the write changes a range or a size, the map that is installed fits the new one. -/
def KeepsMaps (d : Driver) (addr : Nat) (p : IntParam) (value : Int32) : Prop :=
  p.isRange = true → d.adStatus ≠ .acquire → ∀ m, d.pixelMap addr = some m → (d.setInt addr p value).MapFits addr m

theorem applyInt32_mapped {callocOk : Bool} {d : Driver} {addr : Nat} {p : IntParam} {value : Int32}
    (h : d.Mapped) (writable : p.writable = true) (keeps : d.KeepsMaps addr p value) :
    (d.applyInt32 callocOk addr p value).1.Mapped := by
  have carried := applyInt32_carried callocOk d addr p value
  have map := congrArg Carried.pixelMap carried
  have size := congrArg Carried.pixelMapSize carried
  have wrote := applyInt32_wrote callocOk d addr value writable
  generalize (d.applyInt32 callocOk addr p value).1 = d' at carried map size wrote ⊢
  cases wrote with
  | same layout status => exact h.congr map size fun det => .of_layout layout
  | due idle =>
    have stored : (storeInt { d with dataAlloc := true } addr p value).int = (d.setInt addr p value).int := by
      rw [storeInt_eq]
      rfl
    have range : ∀ det, SameSizes (d.setInt addr p value) (storeInt { d with dataAlloc := true } addr p value) det :=
      fun det => .of_int fun q _ => by rw [stored]
    refine ⟨fun det m installed => MapFits.congr ?_ (range det), fun det m installed => ?_⟩
    · have installed : d.pixelMap det = some m := (congrFun map det).symm.trans installed
      by_cases changes : det = addr ∧ p.isRange = true
      · obtain ⟨rfl, isRange⟩ := changes
        exact keeps isRange idle m installed
      · refine (h.fits det m installed).congr (.of_int fun q isRange => ?_)
        simp only [setInt, Store.set_apply]
        rw [if_neg]
        rintro ⟨rfl, rfl⟩
        exact changes ⟨rfl, isRange⟩
    · have installed : d.pixelMap det = some m := (congrFun map det).symm.trans installed
      rw [h.sized det m installed]
      exact congrArg UInt32.toNat (congrFun size det).symm
  | numDet param idle few =>
    refine h.congr map size fun det => .of_int fun q isRange => storeInt_other d ?_
    rintro rfl
    cases isRange
  | @allocated e param inRange idle success =>
    have sizes := allocArray_sizes callocOk d
    rw [success] at sizes
    refine h.congr map size fun det => (sizes det).trans (.of_int fun q isRange => storeInt_other e ?_)
    rintro rfl
    cases isRange
  | @failed e param inRange idle error =>
    have sizes := allocArray_sizes callocOk d
    rw [error] at sizes
    exact h.congr map size fun det => (sizes det).trans (.of_int fun _ _ => rfl)

end Driver

namespace Sys

variable {s s' : Sys}

/-- The condition on a step of the system. -/
def KeepsMaps (s : Sys) : Label → Prop
  | .write addr p value _ => s.drv.KeepsMaps addr p value
  | _ => True

theorem step_mapped {l : Label} (h : s.drv.Mapped) (keeps : s.KeepsMaps l) (hs : s.step l = some s') :
    s'.drv.Mapped := by
  have layout : (∀ p, l ≠ .packet p) → (∀ det, Driver.SameSizes s.drv s'.drv det) → s'.drv.Mapped := by
    intro other sizes
    have carried := step_carried other hs
    exact h.congr (congrArg Carried.pixelMap carried) (congrArg Carried.pixelMapSize carried) sizes
  cases l with
  | write addr p value callocOk =>
    obtain ⟨writable, -, rfl⟩ := step_write hs
    exact Driver.applyInt32_mapped h writable keeps
  | packet p =>
    obtain ⟨-, r, hr, rfl⟩ := step_packet hs
    have handled := Driver.eventHandler_handled hr
    have map : r.1.pixelMap = s.drv.pixelMap := by rw [handled.eq]
    have size : r.1.pixelMapSize = s.drv.pixelMapSize := by rw [handled.eq]
    exact h.congr map size fun det => .of_layout (.of_handled handled)
  | event env =>
    refine layout (fun p eq => by cases eq) fun det => ?_
    cases allocates : s.allocates (.event env) with
    | none =>
      obtain ⟨r, hr, rfl⟩ := step_eventTask hs
      rcases EventTask.step_tasked hr with ⟨-, tasked, -⟩ | ⟨start, -⟩
      · exact .of_layout tasked.sameLayout
      · simp [Sys.allocates, start] at allocates
    | some callocOk =>
      exact (Driver.allocArray_sizes callocOk s.drv det).trans (.of_layout (step_allocates allocates hs))
  | frame env =>
    refine layout (fun p eq => by cases eq) fun det => ?_
    obtain ⟨r, hr, rfl⟩ := step_frameTask hs
    exact .of_layout (FrameTask.step_tasked hr).1.sameLayout

def mapsCheck (s : Sys) : Label → Bool
  | .write addr p value _ => !p.isRange || (s.drv.pixelMap addr).all fun m =>
      (s.drv.setInt addr p value).mapFitsCheck addr m
  | _ => true

/-- The condition on a request: `NumDet` changes only while a layout is due, and a map that is
loaded, and a range or a size that is written, leaves a map that fits. -/
def Careful (s : Sys) : Request → Prop
  | .sys l => s.KeepsNumDet l ∧ s.KeepsMaps l
  | .octet addr .pixelMapFile value erange env => ∀ r m, s.drv.loadPixelMap env erange addr value = some r →
      r.2.1.pixelMap addr = some m → s.drv.MapFits addr m
  | _ => True

theorem serve_mapped {r : Request} (h : s.drv.Mapped) (careful : s.Careful r) (hs : s.serve r = some s') :
    s'.drv.Mapped := by
  cases r with
  | sys l => exact step_mapped h careful.2 hs
  | float addr p value =>
    obtain ⟨r, wrote, rfl⟩ := serve_float hs
    obtain ⟨loaded, map, size⟩ := Driver.writeFloat64_loaded wrote
    exact h.congr map size fun det => .of_layout loaded.sameLayout
  | octet addr p value erange env =>
    obtain ⟨r, wrote, rfl⟩ := serve_octet hs
    obtain ⟨loaded, maps⟩ := Driver.writeOctet_loaded wrote
    have sizes : ∀ det, Driver.SameSizes s.drv r.2.1 det := fun det => .of_layout loaded.sameLayout
    rcases maps with ⟨map, size⟩ | ⟨rfl, q, load, map, size⟩
    · exact h.congr map size sizes
    · obtain ⟨only, sized⟩ := Driver.loadPixelMap_mapOnly load
      constructor
      · intro det m installed
        have installed : q.2.1.pixelMap det = some m := (congrFun map det).symm.trans installed
        by_cases here : det = addr
        · subst here
          exact (careful q m load installed).congr (sizes det)
        · rw [only.map det here] at installed
          exact (h.fits det m installed).congr (sizes det)
      · intro det m installed
        have installed : q.2.1.pixelMap det = some m := (congrFun map det).symm.trans installed
        show m.length = (r.2.1.pixelMapSize det).toNat
        rw [size]
        by_cases here : det = addr
        · subst here
          exact sized m installed
        · rw [only.map det here] at installed
          rw [only.size det here]
          exact h.sized det m installed

theorem Careful.keepsNumDet {r : Request} (careful : s.Careful r) : s.onStep KeepsNumDet r := by
  cases r with
  | sys l => exact careful.1
  | float addr p value => trivial
  | octet addr p value erange env => trivial

theorem mapped_init (u : Uninit) : (init u).drv.Mapped where
  fits := by
    intro det m installed
    cases installed
  sized := by
    intro det m installed
    cases installed

/-- **Lookups are valid.** If maps are loaded, and ranges and sizes written, so that the maps
fit, then whenever the layout is not due and an event of a detector with mapping enabled and
a map installed is looked up, the offset is below `m_PixelMapSize` and the entry below
`NDArraySize`. -/
theorem lookup_valid {u : Uninit} {rs : List Request} {s : Sys} (reached : Runs.run serve (init u) rs = some s)
    (careful : Runs.Meets serve Careful (init u) rs) (down : s.drv.dataAlloc = false) {det : Nat}
    (mem : det ∈ s.drv.active) (enabled : s.drv.int det .pixelMapEnable ≠ 0) {m : List UInt32}
    (installed : s.drv.pixelMap det = some m) {pixel : UInt32} (inside : s.drv.config.inDet det pixel = true) :
    s.drv.LooksUp det pixel := by
  obtain ⟨mapped, current⟩ : s.drv.Mapped ∧ s.drv.Current := by
    refine Runs.run_invariant_of_meets (fun s => s.drv.Mapped ∧ s.drv.Current) ?_ reached careful ?_
    · exact fun s r s' h ok hs => ⟨serve_mapped h.1 ok hs, serve_current h.2 ok.keepsNumDet hs⟩
    · exact ⟨mapped_init u, .of_due rfl (by simp [init, Driver.construct])⟩
  exact mapped.looksUp (current.laidOut down) mem enabled installed inside

/-- The condition, evaluated. -/
def carefulCheck (s : Sys) : Request → Bool
  | .sys l => s.keepsCheck l && s.mapsCheck l
  | .octet addr .pixelMapFile value erange env => (s.drv.loadPixelMap env erange addr value).all fun r =>
      (r.2.1.pixelMap addr).all fun m => s.drv.mapFitsCheck addr m
  | _ => true

theorem careful_of_check (s : Sys) (r : Request) (h : s.carefulCheck r = true) : s.Careful r := by
  cases r with
  | sys l =>
    obtain ⟨keeps, maps⟩ := Bool.and_eq_true_iff.1 h
    refine ⟨keepsNumDet_of_check s l keeps, ?_⟩
    cases l with
    | write addr p value callocOk =>
      intro isRange _ m installed
      exact Driver.mapFits_of_check (by simpa [mapsCheck, isRange, installed] using maps)
    | packet p => trivial
    | event env => trivial
    | frame env => trivial
  | float addr p value => trivial
  | octet addr p value erange env =>
    cases p with
    | pixelMapFile =>
      intro r m load installed
      simp only [carefulCheck, load, Option.all_some, installed] at h
      exact Driver.mapFits_of_check h
    | adStatusMessage => trivial
    | pvName => trivial
    | tofTransFile index => trivial

/-- A detector of the four pixels `0..3` with mapping enabled, a map file of these bytes for it,
and a layout. -/
def withMap (bytes : List UInt8) : List Request :=
  [.sys (.write 0 .numDet 1 true), .sys (.write 1 .pixelNumEnd 3 true), .sys (.write 1 .pixelNumSize 4 true),
    .octet 1 .pixelMapFile "map" false ⟨.opened bytes, true, true, fun _ => none⟩,
    .sys (.write 1 .pixelMapEnable 1 true), .sys (.write 0 .allocSpace 1 true)]

/-- The lines 4, 0, 1, 2 and 3. -/
def fourPixels : List UInt8 := [52, 10, 48, 10, 49, 10, 50, 10, 51, 10]

/-- The lines 4, 0, 1, 2 and 4. -/
def fifthPixel : List UInt8 := [52, 10, 48, 10, 49, 10, 50, 10, 52, 10]

/-- The layout and the map of detector 1, and the lookup for its last pixel. -/
structure LastPixel where
  dataAlloc : Bool
  active : List Nat
  enabled : Int32
  map : Option (List UInt32)
  inDet : Bool
  entry : Option Int32
  size : Int32
  deriving DecidableEq

def lastPixel (s : Sys) : LastPixel :=
  ⟨s.drv.dataAlloc, s.drv.active, s.drv.int 1 .pixelMapEnable, s.drv.pixelMap 1, s.drv.config.inDet 1 3,
    s.drv.config.mapPixel 1 3, s.drv.int 1 .ndArraySize⟩

/-- A map of the four pixels. -/
theorem lookup_valid_fourPixels :
    ∃ s, Runs.run serve (init .blank) (withMap fourPixels) = some s ∧ s.drv.pixelMap 1 = some [0, 1, 2, 3] ∧
      s.drv.LooksUp 1 3 := by
  have state : (Runs.run serve (init .blank) (withMap fourPixels)).map lastPixel =
      some ⟨false, [1], 1, some [0, 1, 2, 3], true, some 3, 4⟩ := by
    decide +kernel
  obtain ⟨s, reached, state⟩ := Option.map_eq_some_iff.1 state
  simp only [lastPixel, LastPixel.mk.injEq] at state
  obtain ⟨down, active, enabled, installed, inside, -, -⟩ := state
  have careful : Runs.Meets serve Careful (init .blank) (withMap fourPixels) :=
    Runs.meets_of_checks careful_of_check (by decide +kernel)
  refine ⟨s, reached, installed, lookup_valid reached careful down ?_ ?_ installed inside⟩
  · rw [active]
    exact List.mem_singleton_self 1
  · rw [enabled]
    decide

/-- A map with a fifth pixel is accepted, and the last pixel is looked up as that one. -/
theorem lookup_beyond_size :
    ∃ s, Runs.run serve (init .blank) (withMap fifthPixel) = some s ∧ s.drv.dataAlloc = false ∧
      1 ∈ s.drv.active ∧ s.drv.int 1 .pixelMapEnable ≠ 0 ∧ s.drv.pixelMap 1 = some [0, 1, 2, 4] ∧
      s.drv.config.inDet 1 3 = true ∧ s.drv.config.mapPixel 1 3 = some 4 ∧ s.drv.int 1 .ndArraySize = 4 ∧
      ¬ s.drv.LooksUp 1 3 := by
  have state : (Runs.run serve (init .blank) (withMap fifthPixel)).map lastPixel =
      some ⟨false, [1], 1, some [0, 1, 2, 4], true, some 4, 4⟩ := by
    decide +kernel
  obtain ⟨s, reached, state⟩ := Option.map_eq_some_iff.1 state
  simp only [lastPixel, LastPixel.mk.injEq] at state
  obtain ⟨down, active, enabled, installed, inside, looked, size⟩ := state
  refine ⟨s, reached, down, ?_, ?_, installed, inside, looked, size, ?_⟩
  · rw [active]
    exact List.mem_singleton_self 1
  · rw [enabled]
    decide
  · rintro ⟨-, e, entry, small, -⟩
    have four : (4 : Int32).toInt = 4 := rfl
    have same : e.toInt32 = 4 := Option.some.inj (entry.symm.trans looked)
    rw [size] at small
    have value := Word32.toInt_toInt32_of_lt (x := e) (by omega)
    rw [same] at value
    omega

end Sys

end ADnED
