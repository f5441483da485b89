import ADnED.Driver.AllocSound
import ADnED.Plugins.PixelROIBlock
import ADnED.Tasks.History

/-!
# From the packets to the image of a detector

`frameTask` copies `p_Data` into an array of `m_bufferMaxSize` cells, the records of
`ADnEDDetectorPlugin.template` copy the readbacks of one detector into the parameters of its
ROI plugin, and the plugin cuts the block of the detector out and gives it its two
dimensions. With the histories of the cells, the three fit together: whatever has happened
before, the array that the plugin passes on is the image of the detector
(`image_shows_counts`), and the block and the sizes that the plugin writes back are those it had.
-/

namespace ADnED

open SizeT (ofInt toInt)

namespace Driver

/-- The array that `frameTask` passes on: `m_bufferMaxSize` cells, copied from `p_Data`. -/
def frameArray (d : Driver) : Option NDArray :=
  d.pData.bind fun b =>
    if h : d.bufferMaxSize.toNat ≤ b.length then
      some
        { dataType := .uint32
          dims := [⟨d.bufferMaxSize.toUInt64, 0, 1⟩]
          size := d.bufferMaxSize.toNat
          pData := Vector.ofFn fun i => b.get ⟨i, by omega⟩
          addressable := d.bufferMaxSize.toUInt64.toNat_lt }
    else none

/-- The record `ConfigXYStart`, which writes to `XY:Min0`. -/
def configXYStart (d : Driver) (det : Nat) : Int32 := d.int det .ndArrayStart

/-- The record `ConfigXYSize`, which writes to `XY:Size0`. -/
def configXYSize (d : Driver) (det : Nat) : Int32 :=
  Int32.ofInt ((d.int det .ndArrayEnd).toInt - (d.int det .ndArrayStart).toInt + 1)

variable {d : Driver} {det : Nat}

theorem configXYSize_eq (laid : d.LaidOut) (lo : 1 ≤ det) (hi : det ≤ d.numDets) :
    d.configXYSize det = d.int det .ndArraySize := by
  rw [(laid.sizes_agree lo hi).1, configXYSize, Int32.ofInt_add, Int32.ofInt_sub, Int32.ofInt_toInt, Int32.ofInt_toInt]
  rfl

/-- There is a spectrum behind the pixels, so that no image is the whole array. -/
theorem Placed.image_in_buffer (h : d.Placed) (lo : 1 ≤ det) (hi : det ≤ d.numDets) :
    d.firstCell det .pixels + d.numCells det .pixels < d.totalCells := by
  have pixels := (d.plots_end lo hi).1
  have spectrum := (d.plots_end lo hi).2
  have cells : d.numCells det .spectrum = d.tofMax.toNat + 1 := h.tofMax_eq.symm
  have first : d.pixelsBelow d.numDets ≤ d.firstCell det .spectrum := Nat.le_add_right _ _
  omega

/-- A frame has every cell of the buffer. -/
theorem Placed.frameArray {b : List UInt32} (h : d.Placed) (held : d.pData = some b) :
    ∃ length : d.bufferMaxSize.toNat = b.length, b.length = d.totalCells ∧ d.frameArray = some
      { dataType := .uint32
        dims := [⟨d.bufferMaxSize.toUInt64, 0, 1⟩]
        size := d.bufferMaxSize.toNat
        pData := Vector.ofFn fun i => b.get ⟨i, by omega⟩
        addressable := d.bufferMaxSize.toUInt64.toNat_lt } := by
  obtain ⟨c, same, total⟩ := h.buffer_length
  obtain rfl : c = b := Option.some.inj (same.symm.trans held)
  have whole : d.bufferMaxSize.toNat = c.length := by
    have size := h.buffer
    rw [held, Option.map_some] at size
    exact (Option.some.inj size).symm
  refine ⟨whole, total, ?_⟩
  simp only [Driver.frameArray, held, Option.bind_some]
  rw [dif_pos whole.le]

end Driver

/-- The plugin is set up for a block of `count` elements from `first` on, as an image of the whole block. -/
structure ADnEDPixelROI.Cuts (int : RoiParam → Int32) (first count : Nat) : Prop where
  min : (int (.dimMin 0)).toInt = first
  size : (int (.dimSize 0)).toInt = count
  columns : 1 ≤ (int (.dimSize 1)).toInt
  rows : 1 ≤ (int (.dimSize 2)).toInt
  whole : (int (.dimSize 1)).toInt * (int (.dimSize 2)).toInt = count

namespace ADnEDPixelROI

section Cuts

variable {int : RoiParam → Int32} {first count : Nat} (cuts : Cuts int first count) {n : UInt64}
include cuts

theorem Cuts.columns_le : (int (.dimSize 1)).toInt ≤ count := by
  have columns := cuts.columns
  rw [← cuts.whole]
  exact le_mul_of_one_le_right (by omega) cuts.rows

theorem Cuts.rows_le : (int (.dimSize 2)).toInt ≤ count := by
  have rows := cuts.rows
  rw [← cuts.whole]
  exact le_mul_of_one_le_left (by omega) cuts.columns

/-- All three sizes are between one and the size of the block. -/
theorem Cuts.bounds (dim : Fin 3) : 1 ≤ (int (.dimSize dim)).toInt ∧ (int (.dimSize dim)).toInt ≤ count := by
  have size := cuts.size
  fin_cases dim
  · exact ⟨size ▸ cuts.columns.trans cuts.columns_le, size.le⟩
  · exact ⟨cuts.columns, cuts.columns_le⟩
  · exact ⟨cuts.rows, cuts.rows_le⟩

theorem Cuts.toNat_size (dim : Fin 3) : ((ofInt (int (.dimSize dim))).toNat : Int) = (int (.dimSize dim)).toInt := by
  have bounds := cuts.bounds dim
  rw [SizeT.toNat_ofInt_of_nonneg (by omega)]
  omega

/-- The block is the one that was asked for. -/
theorem Cuts.block_eq (inside : first + count < n.toNat) :
    (block int n).size.toNat = count ∧ (block int n).offset.toNat = first := by
  obtain ⟨blockSize, offset⟩ := toNat_block int (n := n) (by omega)
  have min := cuts.min
  have size := cuts.size
  have bounds := cuts.bounds 0
  have same := cuts.toNat_size 0
  rw [SizeT.toNat_ofInt_of_nonneg (by omega), cuts.min] at offset
  omega

/-- No size is changed. -/
theorem Cuts.shape_eq (dim : Fin 3) : shape (readDims int) dim = ofInt (int (.dimSize dim)) := by
  have one : (1 : UInt64).toNat = 1 := rfl
  have size := cuts.size
  have own := cuts.bounds dim
  have same := cuts.toNat_size dim
  have all := cuts.toNat_size 0
  apply UInt64.toNat_inj.1
  simp only [shape, readDims, SizeT.toNat_minOf, SizeT.toNat_maxOf, one]
  omega

/-- The image has as many elements as the block. -/
theorem Cuts.toNat_mul : (ofInt (int (.dimSize 1)) * ofInt (int (.dimSize 2))).toNat = count := by
  have bounds := Word32.toInt_bounds (int (.dimSize 0))
  have size := cuts.size
  have cells : (ofInt (int (.dimSize 1))).toNat * (ofInt (int (.dimSize 2))).toNat = count := by
    have whole := cuts.whole
    rw [← cuts.toNat_size 1, ← cuts.toNat_size 2] at whole
    exact_mod_cast whole
  rw [UInt64.toNat_mul, cells]
  exact Nat.mod_eq_of_lt (by omega)

/-- X and Y are not replaced, because the input has more elements. -/
theorem Cuts.fixDims_eq (inside : first + count < n.toNat) :
    (fixDims n (readDims int) 1).size = ofInt (int (.dimSize 1)) ∧
      (fixDims n (readDims int) 2).size = ofInt (int (.dimSize 2)) := by
  have few : ¬ n ≤ shape (readDims int) 1 * shape (readDims int) 2 := by
    rw [cuts.shape_eq, cuts.shape_eq, UInt64.le_iff_toNat_le, cuts.toNat_mul]
    omega
  have sizes := fixDims_shape n (readDims int)
  rw [if_neg few, cuts.shape_eq, cuts.shape_eq] at sizes
  exact Prod.mk.inj sizes

/-- What the plugin writes back is what it was set up for. -/
theorem Cuts.writeBack_eq (inside : first + count < n.toNat) :
    let back := writeBack n (fixDims n (readDims int)) int
    back (.dimMin 0) = int (.dimMin 0) ∧ ∀ dim, back (.dimSize dim) = int (.dimSize dim) := by
  obtain ⟨columns, rows⟩ := cuts.fixDims_eq inside
  obtain ⟨size, offset⟩ := cuts.block_eq inside
  have sizeBounds := Word32.toInt_bounds (int (.dimSize 0))
  have minBounds := Word32.toInt_bounds (int (.dimMin 0))
  have ownSize := cuts.size
  have ownMin := cuts.min
  have offsetBack : toInt (block int n).offset = int (.dimMin 0) := by
    apply Int32.toInt_inj.1
    rw [SizeT.toInt_toInt (by omega), offset, ownMin]
  have sizeBack : toInt (block int n).size = int (.dimSize 0) := by
    apply Int32.toInt_inj.1
    rw [SizeT.toInt_toInt (by omega), size, ownSize]
  refine ⟨offsetBack, fun dim => ?_⟩
  fin_cases dim
  · exact sizeBack
  · exact (congrArg toInt columns).trans (SizeT.toInt_ofInt _)
  · exact (congrArg toInt rows).trans (SizeT.toInt_ofInt _)

end Cuts

/-- The elements of a block, as a new array. -/
theorem extract_cells {a : NDArray} {block : NDDimension} {target : NDDataType}
    {element : a.dataType.Cell → target.Cell} {first count : Nat} (offset : block.offset.toNat = first)
    (size : block.size.toNat = count) (inside : first + count ≤ a.size) (small : count < 2 ^ 64) :
    a.extract block element = some
      { dataType := target
        dims := [block]
        size := count
        pData := Vector.ofFn fun i : Fin count => element (a.pData.get ⟨first + i, by omega⟩)
        addressable := small } := by
  subst offset size
  rw [NDArray.extract, dif_pos inside]

/-- The block is passed on as an image. -/
theorem Cuts.processCallbacks_eq {s : ADnEDPixelROI} {env : RoiEnv} {mem : Arrays} {src dst : Nat} {a : NDArray}
    {target : NDDataType} {element : a.dataType.Cell → target.Cell} {first count : Nat}
    (cuts : Cuts s.int first count) (there : mem src = a)
    (converted : env.convert a.dataType (s.requestedType env a) = .done dst target element)
    (inside : first + count < a.length.toNat) (stored : first + count ≤ a.size) :
    s.processCallbacks env mem src = some
      (⟨setShape (fixDims a.length (readDims s.int))
          (env.others (writeBack a.length (fixDims a.length (readDims s.int)) s.int)), some dst⟩,
        Function.update mem dst
          { dataType := target
            dims := [⟨ofInt (s.int (.dimSize 1)), 0, 1⟩, ⟨ofInt (s.int (.dimSize 2)), 0, 1⟩]
            size := (ofInt (s.int (.dimSize 1)) * ofInt (s.int (.dimSize 2))).toNat
            pData := Vector.ofFn fun i => element (a.pData.get ⟨first + i, by have := cuts.toNat_mul; omega⟩)
            addressable := UInt64.toNat_lt _ }) := by
  subst there
  obtain ⟨size, offset⟩ := cuts.block_eq inside
  obtain ⟨columns, rows⟩ := cuts.fixDims_eq inside
  have own := size.trans cuts.toNat_mul.symm
  have fits : first + (ofInt (s.int (.dimSize 1)) * ofInt (s.int (.dimSize 2))).toNat ≤ (mem src).size := by
    rw [cuts.toNat_mul]
    exact stored
  rw [processCallbacks_done s converted, extract_cells offset own fits (UInt64.toNat_lt _), Option.map_some, columns, rows]

/-- An image of `x` times `y` counters, modulo `2^32`. -/
def image (x y : Int32) (count : Nat → Nat) : NDArray where
  dataType := .uint32
  dims := [⟨ofInt x, 0, 1⟩, ⟨ofInt y, 0, 1⟩]
  size := (ofInt x * ofInt y).toNat
  pData := Vector.ofFn fun i => UInt32.ofNat (count i)
  addressable := UInt64.toNat_lt _

/-- The plugin is set up by the records for a detector, passes the data type on and makes an image of the whole
block. -/
structure Follows (s : ADnEDPixelROI) (d : Driver) (det : Nat) : Prop where
  min : s.int (.dimMin 0) = d.configXYStart det
  size : s.int (.dimSize 0) = d.configXYSize det
  columns : 1 ≤ (s.int (.dimSize 1)).toInt
  rows : 1 ≤ (s.int (.dimSize 2)).toInt
  whole : (s.int (.dimSize 1)).toInt * (s.int (.dimSize 2)).toInt = (d.int det .ndArraySize).toInt
  sameType : s.int .dataType = -1

theorem Follows.cuts {s : ADnEDPixelROI} {d : Driver} {det : Nat} (follows : s.Follows d det) (h : d.Placed)
    (lo : 1 ≤ det) (hi : det ≤ d.numDets) : Cuts s.int (d.firstCell det .pixels) (d.numCells det .pixels) where
  min := by rw [follows.min, Driver.configXYStart, h.ndArrayStart lo hi]
  size := by rw [follows.size, Driver.configXYSize_eq h.toLaidOut lo hi, h.ndArraySize lo hi]
  columns := follows.columns
  rows := follows.rows
  whole := by rw [follows.whole, h.ndArraySize lo hi]

/-- The parameters that the plugin is set up with. -/
structure SameSetup (s s' : ADnEDPixelROI) : Prop where
  min : s'.int (.dimMin 0) = s.int (.dimMin 0)
  sizes : ∀ dim, s'.int (.dimSize dim) = s.int (.dimSize dim)
  sameType : s'.int .dataType = s.int .dataType

theorem Follows.of_same {s s' : ADnEDPixelROI} {d : Driver} {det : Nat} (follows : s.Follows d det)
    (same : SameSetup s s') : s'.Follows d det where
  min := same.min.trans follows.min
  size := (same.sizes 0).trans follows.size
  columns := by rw [same.sizes]; exact follows.columns
  rows := by rw [same.sizes]; exact follows.rows
  whole := by rw [same.sizes, same.sizes]; exact follows.whole
  sameType := same.sameType.trans follows.sameType

/-- The plugin is set up as before if nobody else changes what it writes back. -/
theorem Cuts.sameSetup {s : ADnEDPixelROI} {first count : Nat} (cuts : Cuts s.int first count) {n : UInt64}
    (inside : first + count < n.toNat) {others : (RoiParam → Int32) → RoiParam → Int32}
    (alone : ∀ int, others int = int) (pArrays : Option Nat) :
    SameSetup s ⟨setShape (fixDims n (readDims s.int)) (others (writeBack n (fixDims n (readDims s.int)) s.int)),
      pArrays⟩ := by
  obtain ⟨min, sizes⟩ := cuts.writeBack_eq inside
  rw [alone]
  exact ⟨min, sizes, rfl⟩

end ADnEDPixelROI

namespace Sys

/-- The array that `frameTask` passes on at a request: a frame, if the callbacks are on and there is an array for it. -/
def passesOn (s : Sys) : Request → Option NDArray
  | .sys (.frame env) =>
    if s.frame.pc = .frameSection false ∧ s.drv.int 0 .ndArrayCallbacks ≠ 0 ∧ env.allocOk = true then
      s.drv.frameArray
    else none
  | _ => none

/-- A request at which `frameTask` copies a frame. -/
theorem serve_copies {s s' : Sys} {r : Request} (h : s.serve r = some s')
    (copied : s.frame.copies < s'.frame.copies) :
    s.passesOn r = s.drv.frameArray ∧ s'.frame.badCopy = (s.frame.badCopy || !FrameTask.copyOk s.drv) := by
  have other : s'.frame = s.frame → False := by
    intro same
    rw [same] at copied
    exact lt_irrefl _ copied
  cases r with
  | float addr p value =>
    obtain ⟨r, -, rfl⟩ := serve_float h
    exact (other rfl).elim
  | octet addr p value erange env =>
    obtain ⟨r, -, rfl⟩ := serve_octet h
    exact (other rfl).elim
  | sys l =>
    cases l with
    | write addr p value callocOk =>
      obtain ⟨-, -, rfl⟩ := step_write h
      exact (other rfl).elim
    | packet p =>
      obtain ⟨-, r, -, rfl⟩ := step_packet h
      exact (other rfl).elim
    | event env =>
      obtain ⟨r, -, rfl⟩ := step_eventTask h
      exact (other rfl).elim
    | frame env =>
      obtain ⟨r, worked, rfl⟩ := step_frameTask h
      rcases FrameTask.step_copied worked with ⟨same, -⟩ | ⟨there, -, bad⟩
      · exact absurd same copied.ne'
      · exact ⟨if_pos there, bad⟩

/-- **The image of a detector.** Take a run of any requests that keeps the cells apart, up to a state in which no
new layout is due. Then there is a frame, and it is the array that `frameTask` passes on if it copies one now. A
plugin that is set up for a detector makes an image of it whose pixels are the numbers of events that the cells of the
detector were hit by since they were last cleared, modulo `2^32`. The block and the sizes that the plugin writes back
are those it was set up for. -/
theorem image_shows_counts {u : Uninit} {rs : List Request} {s : Sys} (reached : Runs.run serve (init u) rs = some s)
    (keeps : Runs.Meets serve KeepsCells (init u) rs) (down : s.drv.dataAlloc = false) :
    ∃ a, s.drv.frameArray = some a ∧
      (∀ r s', s.serve r = some s' → s.frame.copies < s'.frame.copies →
        s.passesOn r = some a ∧ s'.frame.badCopy = s.frame.badCopy) ∧
      ∀ det, 1 ≤ det → det ≤ s.drv.numDets → ∀ (roi : ADnEDPixelROI) (env : RoiEnv) (mem : Arrays) (src dst : Nat),
        mem src = a → roi.Follows s.drv det → env.convert .uint32 (env.code .uint32) = .done dst .uint32 id →
        ∃ roi', roi.processCallbacks env mem src = some (roi', Function.update mem dst
            (ADnEDPixelROI.image (roi.int (.dimSize 1)) (roi.int (.dimSize 2)) fun k =>
              Board.count (Runs.log serve ops (init u) rs) ⟨det, .pixels, k⟩)) ∧
          roi'.pArrays = some dst ∧ ((∀ int, env.others int = int) → roi'.Follows s.drv det ∧
            roi'.int (.dimMin 0) = roi.int (.dimMin 0) ∧ ∀ dim, roi'.int (.dimSize dim) = roi.int (.dimSize dim)) := by
  have shown := run_shown reached keeps
  have placed := shown.placed down
  obtain ⟨b, held, cells⟩ := shown.cells down
  obtain ⟨length, total, frame⟩ := placed.frameArray held
  have whole : FrameTask.copyOk s.drv = true := by
    rw [FrameTask.copyOk, held]
    exact beq_iff_eq.2 length.symm
  refine ⟨_, frame, fun r s' served copied => ?_, fun det lo hi roi env mem src dst there follows copies => ?_⟩
  · obtain ⟨passes, bad⟩ := serve_copies served copied
    exact ⟨passes.trans frame, by rw [bad, whole, Bool.not_true, Bool.or_false]⟩
  have cuts := follows.cuts placed lo hi
  have inBuffer := placed.image_in_buffer lo hi
  have inside : s.drv.firstCell det .pixels + s.drv.numCells det .pixels < s.drv.bufferMaxSize.toUInt64.toNat := by
    rw [UInt32.toNat_toUInt64]
    omega
  have pixels : ∀ k (h : s.drv.firstCell det .pixels + k < b.length), k < s.drv.numCells det .pixels →
      b.get ⟨s.drv.firstCell det .pixels + k, h⟩ =
        UInt32.ofNat (Board.count (Runs.log serve ops (init u) rs) ⟨det, .pixels, k⟩) := by
    intro k h below
    have cell := cells ⟨det, .pixels, k⟩ ⟨lo, hi, below⟩
    exact (List.getElem?_eq_some_iff.1 cell).2
  have result := cuts.processCallbacks_eq there
    (show env.convert .uint32 _ = .done dst .uint32 id by
      rw [ADnEDPixelROI.requestedType, if_pos follows.sameType]
      exact copies) inside (show _ ≤ s.drv.bufferMaxSize.toNat by omega)
  refine ⟨_, result.trans (congrArg some (Prod.ext rfl (congrArg (Function.update mem dst) ?_))), rfl, fun alone => ?_⟩
  · refine congrArg (NDArray.mk .uint32 _ _ · _) (congrArg Vector.ofFn (funext fun i => ?_))
    have below : i.val < s.drv.numCells det .pixels := by
      rw [← cuts.toNat_mul]
      exact i.isLt
    exact (Vector.getElem_ofFn _).trans (pixels i (by omega) below)
  · have same := cuts.sameSetup inside alone (some dst)
    exact ⟨follows.of_same same, same.min, same.sizes⟩

/-- An acquisition of two detectors of two and of six pixels, with one event of the first and three of the second. -/
def twoImages : List Request :=
  ([.write 0 .numDet 2 true, .write 0 .tofMax 1 true, .write 1 .pixelNumEnd 1 true, .write 2 .pixelNumStart 2 true,
    .write 2 .pixelNumEnd 7 true, .write 1 .pixelROISizeX 1 true, .write 2 .pixelROISizeX 1 true, eventStep, eventStep,
    eventStep, startWrite, eventStep, eventStep, eventStep, .packet (.single 0 1 1), .packet (.single 0 6 1),
    .packet (.single 0 6 0), .packet (.single 0 7 9)] : List Label).map .sys

/-- The second detector as three columns and two rows. -/
theorem image_shows_counts_twoImages : ∃ s a roi', Runs.run serve (init .blank) twoImages = some s ∧
    s.drv.pData = some [0, 1, 0, 0, 0, 0, 2, 1, 0, 1, 1, 1] ∧ s.drv.frameArray = some a ∧
    (ADnEDPixelROI.withDims #v[2, 0, 0] #v[6, 3, 2]).processCallbacks ADnEDPixelROI.copying (fun _ => a) 0 =
      some (roi', Function.update (fun _ => a) 1 (ADnEDPixelROI.image 3 2 fun k =>
        Board.count (Runs.log serve ops (init .blank) twoImages) ⟨2, .pixels, k⟩)) ∧
    roi'.Follows s.drv 2 ∧ roi'.int (.dimSize 1) = 3 ∧ roi'.int (.dimSize 2) = 2 := by
  have state : (Runs.run serve (init .blank) twoImages).map (fun s =>
      (s.drv.dataAlloc, s.drv.pData, s.drv.numDets, s.drv.int 2 .ndArrayStart, s.drv.int 2 .ndArrayEnd,
        s.drv.int 2 .ndArraySize)) = some (false, some [0, 1, 0, 0, 0, 0, 2, 1, 0, 1, 1, 1], 2, 2, 7, 6) := by
    decide +kernel
  obtain ⟨s, reached, state⟩ := Option.map_eq_some_iff.1 state
  simp only [Prod.mk.injEq] at state
  obtain ⟨down, data, two, start, last, size⟩ := state
  have keeps : Runs.Meets serve KeepsCells (init .blank) twoImages :=
    Runs.meets_of_checks keepsCells_of_check (by decide +kernel)
  obtain ⟨a, frame, -, shows⟩ := image_shows_counts reached keeps down
  have follows : (ADnEDPixelROI.withDims #v[2, 0, 0] #v[6, 3, 2]).Follows s.drv 2 := by
    constructor
    · rw [Driver.configXYStart, start]
      rfl
    · rw [Driver.configXYSize, start, last]
      rfl
    · decide
    · decide
    · rw [size]
      rfl
    · rfl
  obtain ⟨roi', passed, -, kept⟩ := shows 2 (by decide) two.ge _ ADnEDPixelROI.copying (fun _ => a) 0 1 rfl follows rfl
  obtain ⟨still, -, sizes⟩ := kept fun _ => rfl
  exact ⟨s, a, roi', reached, data, frame, passed, still, sizes 1, sizes 2⟩

end Sys

end ADnED
