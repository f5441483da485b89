import ADnED.Plugins.MaskRuns

/-!
# Clipped masks

`processCallbacks` means to move the position of a mask into the array and to cut its size off at the
end. It does so for values that are not negative. A negative position becomes the last cell, since it
has become a large `size_t` before it is compared with 0, and a negative size reaches to the end of the
array (`clamped_iff`).
-/

namespace ADnED

open SizeT (ofInt toInt)

/-- A position, moved into the extent. -/
def clampPos (extent pos : Int) : Int := min (max pos 0) (extent - 1)

/-- The size of a mask at `pos`, cut off at the end of the extent. -/
def clampSize (extent pos size : Int) : Int := min (max size 0) (extent - clampPos extent pos)

/-- Along one axis, the position and the size that are stored and the ones that are written back are the
clamped ones. -/
structure Clamped (extent : Nat) (pos size : Int32) (storedPos storedSize : UInt64) (backPos backSize : Int32) : Prop where
  storedPos : (storedPos.toNat : Int) = clampPos extent pos.toInt
  storedSize : (storedSize.toNat : Int) = clampSize extent pos.toInt size.toInt
  backPos : backPos.toInt = clampPos extent pos.toInt
  backSize : backSize.toInt = clampSize extent pos.toInt size.toInt

namespace NDPluginMask

/-- A negative position is taken for a large one, and becomes the last cell. -/
theorem clipPos_eq_iff {extent : UInt32} (nonempty : 1 ≤ extent.toNat) (pos : Int32) :
    ((clipPos extent pos).toNat : Int) = clampPos extent.toNat pos.toInt ↔ 0 ≤ pos.toInt ∨ extent.toNat = 1 := by
  have clipped := toNat_clipPos nonempty pos
  unfold clampPos
  by_cases nonneg : 0 ≤ pos.toInt
  · rw [SizeT.toNat_ofInt_of_nonneg nonneg] at clipped
    omega
  · have large := SizeT.lt_ofInt nonneg
    have below := extent.toNat_lt
    omega

/-- A negative size reaches to the end. -/
theorem clipSize_eq_iff {extent : UInt32} {p : UInt64} (inside : p.toNat < extent.toNat) (size : Int32) :
    ((clipSize extent p size).toNat : Int) = min (max size.toInt 0) (extent.toNat - p.toNat) ↔ 0 ≤ size.toInt := by
  have clipped := toNat_clipSize (Nat.le_of_lt inside) size
  by_cases nonneg : 0 ≤ size.toInt
  · rw [SizeT.toNat_ofInt_of_nonneg nonneg] at clipped
    omega
  · have large := SizeT.lt_ofInt nonneg
    have below := extent.toNat_lt
    omega

theorem clamped_iff {extent : UInt32} (nonempty : 1 ≤ extent.toNat) (small : extent.toNat < 2 ^ 31) (pos size : Int32) :
    Clamped extent.toNat pos size (clipPos extent pos) (clipSize extent (clipPos extent pos) size)
        (toInt (clipPos extent pos)) (toInt (clipSize extent (clipPos extent pos) size)) ↔
      (0 ≤ pos.toInt ∨ extent.toNat = 1) ∧ 0 ≤ size.toInt := by
  have inside := clipPos_lt nonempty pos
  have fits := clipPos_add_clipSize_le nonempty pos size
  have backPos : (toInt (clipPos extent pos)).toInt = (clipPos extent pos).toNat := SizeT.toInt_toInt (by omega)
  have backSize : (toInt (clipSize extent (clipPos extent pos) size)).toInt =
      (clipSize extent (clipPos extent pos) size).toNat := SizeT.toInt_toInt (by omega)
  rw [← clipPos_eq_iff nonempty, ← clipSize_eq_iff inside]
  constructor
  · rintro ⟨hpos, hsize, -, -⟩
    rw [clampSize, ← hpos] at hsize
    exact ⟨hpos, hsize⟩
  · rintro ⟨hpos, hsize⟩
    rw [hpos, ← clampSize] at hsize
    exact ⟨hpos, hsize, backPos.trans hpos, backSize.trans hsize⟩

/-- The parameters of `mask` as its turn writes them back. -/
def writtenBack (s : NDPluginMask) (env : MaskEnv) (ndims mask : Nat) : MaskParam → Int32 :=
  ((s.found env ndims mask).fetch ndims mask).int mask

theorem writtenBack_x (s : NDPluginMask) (env : MaskEnv) (ndims mask : Nat) :
    s.writtenBack env ndims mask .posX = toInt ((s.found env ndims mask).readMask ndims mask).posX ∧
      s.writtenBack env ndims mask .sizeX = toInt ((s.found env ndims mask).readMask ndims mask).sizeX :=
  fetch_x mask

theorem writtenBack_y (s : NDPluginMask) (env : MaskEnv) {ndims : Nat} (two : 1 < ndims) (mask : Nat) :
    s.writtenBack env ndims mask .posY = toInt ((s.found env ndims mask).readMask ndims mask).posY ∧
      s.writtenBack env ndims mask .sizeY = toInt ((s.found env ndims mask).readMask ndims mask).sizeY :=
  fetch_y two mask

section Turn

variable {s : NDPluginMask} {env : MaskEnv} {a : NDArray}

/-- What the turn of `mask` makes of its columns. -/
theorem clamped_x_iff (ready : s.Ready a) (mask : Nat) {x : NDDimension} {rest : List NDDimension}
    (dims : a.dims = x :: rest) (small : x.size.toNat < 2 ^ 31) :
    let int := s.settings env a.ndims mask
    let stored := (s.found env a.ndims mask).readMask a.ndims mask
    let back := s.writtenBack env a.ndims mask
    Clamped x.size.toNat (int .posX) (int .sizeX) stored.posX stored.sizeX (back .posX) (back .sizeX) ↔
      (0 ≤ (int .posX).toInt ∨ x.size.toNat = 1) ∧ 0 ≤ (int .sizeX).toInt := by
  intro int stored back
  have nonempty := ready.nonempty x (by simp [dims])
  have xMax : s.xArrayMax.toNat = x.size.toNat := by
    rcases ready.extents with ⟨x', dims', xMax⟩ | ⟨x', y, dims', xMax, -⟩ <;> cases dims.symm.trans dims' <;> exact xMax
  obtain ⟨backPos, backSize⟩ := writtenBack_x s env a.ndims mask
  rw [← xMax] at nonempty small ⊢
  show Clamped _ _ _ _ _ (s.writtenBack env _ mask .posX) (s.writtenBack env _ mask .sizeX) ↔ _
  rw [backPos, backSize]
  exact clamped_iff nonempty small _ _

/-- What it makes of its rows. -/
theorem clamped_y_iff (ready : s.Ready a) (mask : Nat) {x y : NDDimension} (dims : a.dims = [x, y])
    (small : y.size.toNat < 2 ^ 31) :
    let int := s.settings env a.ndims mask
    let stored := (s.found env a.ndims mask).readMask a.ndims mask
    let back := s.writtenBack env a.ndims mask
    Clamped y.size.toNat (int .posY) (int .sizeY) stored.posY stored.sizeY (back .posY) (back .sizeY) ↔
      (0 ≤ (int .posY).toInt ∨ y.size.toNat = 1) ∧ 0 ≤ (int .sizeY).toInt := by
  intro int stored back
  have two : 1 < a.ndims := by simp [NDArray.ndims, dims]
  have nonempty := ready.nonempty y (by simp [dims])
  have yMax : s.yArrayMax.toNat = y.size.toNat := by
    rcases ready.extents with ⟨x', dims', -⟩ | ⟨x', y', dims', -, yMax⟩
    · cases dims.symm.trans dims'
    · cases dims.symm.trans dims'
      exact yMax
  obtain ⟨backPos, backSize⟩ := writtenBack_y s env two mask
  rw [← yMax] at nonempty small ⊢
  show Clamped _ _ _ _ _ (s.writtenBack env _ mask .posY) (s.writtenBack env _ mask .sizeY) ↔ _
  rw [backPos, backSize]
  simp only [stored, readMask, if_pos two]
  exact clamped_iff nonempty small _ _

end Turn

/-- Positions and sizes are clamped exactly if they are not negative, except that in a single cell there
is only one position. Every mask lies in the array. -/
theorem mask_clip_iff (s : NDPluginMask) {env : MaskEnv} {mem : Arrays} {src dst : Nat} (copied : env.copy = some dst)
    (shape : (mem src).ndims = 1 ∨ (mem src).ndims = 2) (rowMajor : RowMajor (mem src) (env.getInfo (mem src)))
    (fits : (mem src).Fits) (extents : ∀ x ∈ (mem src).dims, 1 ≤ x.size.toNat ∧ x.size.toNat < 2 ^ 31) :
    ∃ s' mem', s.processCallbacks env mem src = some (s', mem') ∧
      ∀ mask < s.maxMasks.toInt.toNat,
        let start := s.setUp dst (env.getInfo (mem src))
        let int := start.settings env (mem src).ndims mask
        let back := start.writtenBack env (mem src).ndims mask
        let stored := s'.pMasks mask
        int .use ≠ 0 →
          (∀ x rest, (mem src).dims = x :: rest →
            (Clamped x.size.toNat (int .posX) (int .sizeX) stored.posX stored.sizeX (back .posX) (back .sizeX) ↔
              (0 ≤ (int .posX).toInt ∨ x.size.toNat = 1) ∧ 0 ≤ (int .sizeX).toInt)) ∧
          (∀ x y, (mem src).dims = [x, y] →
            (Clamped y.size.toNat (int .posY) (int .sizeY) stored.posY stored.sizeY (back .posY) (back .sizeY) ↔
              (0 ≤ (int .posY).toInt ∨ y.size.toNat = 1) ∧ 0 ≤ (int .sizeY).toInt)) ∧
          stored.Placed (mem src).dims := by
  have wide : ∀ x ∈ (mem src).dims, 1 ≤ x.size.toNat ∧ x.size.toNat < 2 ^ 32 := by
    intro x mem
    have := extents x mem
    omega
  have ready : (s.setUp dst (env.getInfo (mem src))).Ready (mem src) := setUp_ready dst shape rowMajor fits wide
  obtain ⟨out, done, -⟩ := processCallbacks_eq s copied shape rowMajor fits wide
  refine ⟨_, _, done, ?_⟩
  intro mask below start int back stored used
  have is_stored : stored = (start.found env (mem src).ndims mask).readMask (mem src).ndims mask := if_pos ⟨below, used⟩
  have placed := readMask_placed (@Ready.afterTurns _ _ env (mem src).ndims ready mask) mask
  rw [readMask_afterTurns] at placed
  rw [is_stored]
  refine ⟨?_, ?_, placed⟩
  · intro x rest dims
    exact clamped_x_iff ready mask dims (extents x (by simp [dims])).2
  · intro x y dims
    exact clamped_y_iff ready mask dims (extents y (by simp [dims])).2

theorem mask_clip_large : ∃ s' mem',
    (withMasks [rectangle 1 5 7 1 9 0]).processCallbacks (.alone 1) (fun _ => sixCells) 0 = some (s', mem') ∧
      Clamped 3 1 5 (s'.pMasks 0).posX (s'.pMasks 0).sizeX 1 2 ∧
      Clamped 2 7 1 (s'.pMasks 0).posY (s'.pMasks 0).sizeY 1 1 := by
  obtain ⟨s', mem', run, clip⟩ := @mask_clip_iff (withMasks [rectangle 1 5 7 1 9 0]) (.alone 1)
    (fun _ => sixCells) 0 1 rfl (.inr rfl) (NDArray.rowMajor_info _) (by decide) (by decide)
  obtain ⟨x, y, -⟩ := clip 0 (by decide) (by decide)
  exact ⟨s', mem', run, (x _ _ rfl).2 (by decide), (y _ _ rfl).2 (by decide)⟩

/-- The position -1 becomes 2, the last column, and the size -1 of the second mask all the cells behind
its position. -/
theorem mask_clip_negative : ∃ s' mem',
    (withMasks [rectangle (-1) 2 0 2 9 0, rectangle 1 (-1) 0 1 9 0]).processCallbacks (.alone 1) (fun _ => sixCells) 0 =
        some (s', mem') ∧
      (s'.pMasks 0).posX = 2 ∧ s'.int 0 .posX = 2 ∧ clampPos 3 (-1) = 0 ∧
      (s'.pMasks 1).sizeX = 2 ∧ s'.int 1 .sizeX = 2 ∧ clampSize 3 1 (-1) = 0 := by
  refine ⟨_, _, rfl, ?_⟩
  decide

end NDPluginMask

end ADnED
