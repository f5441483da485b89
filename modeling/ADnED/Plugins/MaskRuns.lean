import ADnED.Plugins.Mask
import Mathlib.Data.List.Basic

/-!
# What a mask writes

A mask is clipped to the array (`readMask_placed`) and then writes its value into the cells that
it hits, and into no other (`doMaskT_one`, `doMaskT_two`, `maskArray_placed`). The masks have their
turns one after the other on the same array, so each cell has the value of the last one that hits
it, or else that of the input (`processCallbacks_eq`). What a turn finds in its parameters are the
settings of its own moment, since the turns before it only write their own mask back
(`turns_afterTurns`).
-/

namespace ADnED

open SizeT (ofInt toInt maxOf minOf)
open Stores (forLoop_grid_wrote forLoop forLoop_wrote store_wrote ite_store_wrote exists_grid_iff Wrote)

/-! ## Clipping -/

namespace NDPluginMask

theorem toNat_clipPos {extent : UInt32} (nonempty : 1 ≤ extent.toNat) (v : Int32) :
    (clipPos extent v).toNat = min (ofInt v).toNat (extent.toNat - 1) := by
  have last : (extent - 1).toUInt64.toNat = extent.toNat - 1 := by
    rw [UInt32.toNat_toUInt64, UInt32.toNat_sub_of_le extent 1 (UInt32.le_iff_toNat_le.2 nonempty)]
    rfl
  rw [clipPos, SizeT.maxOf_zero, SizeT.toNat_minOf, last]

theorem toNat_clipSize {extent : UInt32} {pos : UInt64} (inside : pos.toNat ≤ extent.toNat) (v : Int32) :
    (clipSize extent pos v).toNat = min (ofInt v).toNat (extent.toNat - pos.toNat) := by
  have rest : (extent.toUInt64 - pos).toNat = extent.toNat - pos.toNat := by
    rw [UInt64.toNat_sub_of_le _ _ (UInt64.le_iff_toNat_le.2 (by simpa using inside)), UInt32.toNat_toUInt64]
  rw [clipSize, SizeT.maxOf_zero, SizeT.toNat_minOf, rest]

/-- The position is a cell, whatever has been asked for. -/
theorem clipPos_lt {extent : UInt32} (nonempty : 1 ≤ extent.toNat) (v : Int32) :
    (clipPos extent v).toNat < extent.toNat := by
  rw [toNat_clipPos nonempty]
  omega

/-- Neither does a mask reach over the end. -/
theorem clipPos_add_clipSize_le {extent : UInt32} (nonempty : 1 ≤ extent.toNat) (pos size : Int32) :
    (clipPos extent pos).toNat + (clipSize extent (clipPos extent pos) size).toNat ≤ extent.toNat := by
  have inside := clipPos_lt nonempty pos
  rw [toNat_clipSize (Nat.le_of_lt inside)]
  omega

end NDPluginMask

/-! ## One mask -/

namespace NDMask

/-- The columns of the rectangle. -/
def InX (m : NDMask) (x : Nat) : Prop := m.posX.toNat ≤ x ∧ x < m.posX.toNat + m.sizeX.toNat

/-- The rows of the rectangle. -/
def InY (m : NDMask) (y : Nat) : Prop := m.posY.toNat ≤ y ∧ y < m.posY.toNat + m.sizeY.toNat

/-- The mask applies to the cells inside or outside of its rectangle. -/
def Hits (m : NDMask) (inside : Prop) : Prop :=
  m.maskType = maskTypeReject ∧ inside ∨ m.maskType = maskTypePass ∧ ¬ inside

instance (m : NDMask) (x : Nat) : Decidable (m.InX x) := inferInstanceAs (Decidable (_ ∧ _))

instance (m : NDMask) (y : Nat) : Decidable (m.InY y) := inferInstanceAs (Decidable (_ ∧ _))

instance (m : NDMask) (inside : Prop) [Decidable inside] : Decidable (m.Hits inside) :=
  inferInstanceAs (Decidable (_ ∨ _))

theorem hits_reject {m : NDMask} (type : m.maskType = maskTypeReject) {inside : Prop} : m.Hits inside ↔ inside := by
  have pass : maskTypeReject ≠ maskTypePass := by decide
  simp [Hits, type, pass]

theorem hits_pass {m : NDMask} (type : m.maskType = maskTypePass) {inside : Prop} : m.Hits inside ↔ ¬ inside := by
  have reject : maskTypePass ≠ maskTypeReject := by decide
  simp [Hits, type, reject]

theorem hits_other {m : NDMask} (reject : m.maskType ≠ maskTypeReject) (pass : m.maskType ≠ maskTypePass)
    {inside : Prop} : ¬ m.Hits inside := by
  simp [Hits, reject, pass]

end NDMask

namespace NDPluginMask

section Apply

variable {α : Type} {n : Nat} {s : NDPluginMask} {cast : UInt64 → α} {pData : Vector α n} {m : NDMask}

theorem toNat_column {s : NDPluginMask} (stride : s.arrayInfo.xStride = 1) {ix : Nat} (small : ix < 2 ^ 64) :
    (UInt64.ofNat ix * s.arrayInfo.xStride).toNat = ix := by
  rw [stride, UInt64.mul_one, UInt64.toNat_ofNat_of_lt' small]

theorem toNat_row {s : NDPluginMask} {w iy : Nat} (stride : s.arrayInfo.yStride.toNat = w) (width : 0 < w)
    (small : iy * w < 2 ^ 64) : (UInt64.ofNat iy * s.arrayInfo.yStride).toNat = iy * w := by
  have low : iy < 2 ^ 64 := Nat.lt_of_le_of_lt (Nat.le_mul_of_pos_right iy width) small
  rw [UInt64.toNat_mul, UInt64.toNat_ofNat_of_lt' low, stride, Nat.mod_eq_of_lt small]

theorem toNat_xmax (placed : m.posX.toNat + m.sizeX.toNat ≤ s.xArrayMax.toNat) :
    (minOf (m.posX + m.sizeX) s.xArrayMax.toUInt64).toNat = m.posX.toNat + m.sizeX.toNat := by
  have bound := s.xArrayMax.toNat_lt
  rw [SizeT.toNat_minOf, UInt64.toNat_add, UInt32.toNat_toUInt64]
  omega

theorem toNat_ymax (placed : m.posY.toNat + m.sizeY.toNat ≤ s.yArrayMax.toNat) :
    (minOf (m.posY + m.sizeY) s.yArrayMax.toUInt64).toNat = m.posY.toNat + m.sizeY.toNat := by
  have bound := s.yArrayMax.toNat_lt
  rw [SizeT.toNat_minOf, UInt64.toNat_add, UInt32.toNat_toUInt64]
  omega

/-- A mask on a 1-D array. -/
theorem doMaskT_one (stride : s.arrayInfo.xStride = 1) (placed : m.posX.toNat + m.sizeX.toNat ≤ s.xArrayMax.toNat)
    (room : s.xArrayMax.toNat ≤ n) :
    ∃ out, s.doMaskT cast 1 pData m = some out ∧
      Wrote (cast m.maskVal) (fun j => j < s.xArrayMax.toNat ∧ m.Hits (m.InX j)) pData out := by
  have bound := s.xArrayMax.toNat_lt
  have column : ∀ ix, ix < s.xArrayMax.toNat → (UInt64.ofNat ix * s.arrayInfo.xStride).toNat = ix :=
    fun ix lt => toNat_column stride (by omega)
  simp only [doMaskT, if_true, SizeT.maxOf_zero, toNat_xmax placed]
  by_cases reject : m.maskType = maskTypeReject
  · rw [if_pos reject]
    refine forLoop_wrote (P := fun ix j => ix = j) ?_ ?_
    · intro ix b le lt
      rw [column ix (by omega)]
      exact store_wrote (by omega)
    · intro j
      rw [NDMask.hits_reject reject, NDMask.InX]
      constructor
      · rintro ⟨ix, le, lt, rfl⟩
        exact ⟨by omega, le, lt⟩
      · rintro ⟨-, le, lt⟩
        exact ⟨j, le, lt, rfl⟩
  · rw [if_neg reject]
    by_cases pass : m.maskType = maskTypePass
    · rw [if_pos pass]
      refine forLoop_wrote
        (P := fun ix j => (ix < m.posX.toNat ∨ m.posX.toNat + m.sizeX.toNat ≤ ix) ∧ ix = j) ?_ ?_
      · intro ix b le lt
        rw [column ix lt]
        exact ite_store_wrote (by omega) _
      · intro j
        rw [NDMask.hits_pass pass, NDMask.InX]
        constructor
        · rintro ⟨ix, -, lt, outside, rfl⟩
          exact ⟨lt, by omega⟩
        · rintro ⟨lt, outside⟩
          exact ⟨j, Nat.zero_le j, lt, by omega, rfl⟩
    · rw [if_neg pass]
      exact ⟨pData, rfl, .nothing fun j hj => NDMask.hits_other reject pass hj.2⟩

/-- The cell of `ix` and `iy` is in the block, and its index does not wrap. -/
theorem toNat_cell {w h ix iy : Nat} (xStride : s.arrayInfo.xStride = 1) (yStride : s.arrayInfo.yStride.toNat = w)
    (ltX : ix < w) (ltY : iy < h) (room : w * h ≤ n) (addressable : n < 2 ^ 64) :
    (UInt64.ofNat iy * s.arrayInfo.yStride).toNat + (UInt64.ofNat ix * s.arrayInfo.xStride).toNat = iy * w + ix ∧
      iy * w + ix < n := by
  have inside := (@exists_grid_iff w h (iy * w + ix) (fun _ _ => True)).1 ⟨iy, ltY, ix, ltX, trivial, rfl⟩
  have lt : iy * w + ix < n := Nat.lt_of_lt_of_le inside.1 room
  rw [toNat_column xStride (by omega), toNat_row yStride (by omega) (by omega)]
  exact ⟨rfl, lt⟩

/-- A mask on a 2-D array. -/
theorem doMaskT_two {w h : Nat} (xStride : s.arrayInfo.xStride = 1) (yStride : s.arrayInfo.yStride.toNat = w)
    (xMax : s.xArrayMax.toNat = w) (yMax : s.yArrayMax.toNat = h) (placedX : m.posX.toNat + m.sizeX.toNat ≤ w)
    (placedY : m.posY.toNat + m.sizeY.toNat ≤ h) (room : w * h ≤ n) (addressable : n < 2 ^ 64) :
    ∃ out, s.doMaskT cast 2 pData m = some out ∧
      Wrote (cast m.maskVal) (fun j => j < w * h ∧ m.Hits (m.InX (j % w) ∧ m.InY (j / w))) pData out := by
  subst xMax yMax
  have index : ∀ ix iy, ix < s.xArrayMax.toNat → iy < s.yArrayMax.toNat → _ :=
    fun ix iy ltX ltY => toNat_cell xStride yStride ltX ltY room addressable
  have two : ¬ (2 = 1) := by decide
  simp only [doMaskT, if_neg two, if_true, SizeT.maxOf_zero, toNat_xmax placedX, toNat_ymax placedY]
  by_cases reject : m.maskType = maskTypeReject
  · rw [if_pos reject]
    refine forLoop_grid_wrote placedX placedY (C := fun _ _ => True) ?_ ?_
    · intro iy ix b ltY ltX
      obtain ⟨cell, lt⟩ := index ix iy (by omega) (by omega)
      simp only [cell, true_and]
      exact store_wrote lt
    · intro j
      rw [NDMask.hits_reject reject, and_true]
      exact Iff.rfl
  · rw [if_neg reject]
    by_cases pass : m.maskType = maskTypePass
    · rw [if_pos pass]
      refine forLoop_grid_wrote (Nat.le_refl _) (Nat.le_refl _) (C := fun ix iy =>
        (ix < m.posX.toNat ∨ m.posX.toNat + m.sizeX.toNat ≤ ix) ∨
          (iy < m.posY.toNat ∨ m.posY.toNat + m.sizeY.toNat ≤ iy)) ?_ ?_
      · intro iy ix b ltY ltX
        obtain ⟨cell, lt⟩ := index ix iy ltX ltY
        rw [cell]
        exact ite_store_wrote lt _
      · intro j
        rw [NDMask.hits_pass pass, NDMask.InX, NDMask.InY]
        constructor
        · rintro ⟨lt, -, -, outside⟩
          exact ⟨lt, by omega⟩
        · rintro ⟨lt, outside⟩
          have width : 0 < s.xArrayMax.toNat := Nat.pos_of_mul_pos_right (Nat.lt_of_le_of_lt (Nat.zero_le j) lt)
          have column := Nat.mod_lt j width
          have row := Nat.div_lt_of_lt_mul lt
          exact ⟨lt, ⟨Nat.zero_le _, column⟩, ⟨Nat.zero_le _, row⟩, by omega⟩
    · rw [if_neg pass]
      exact ⟨pData, rfl, .nothing fun j hj => NDMask.hits_other reject pass hj.2⟩

end Apply

end NDPluginMask

namespace NDMask

/-- The cell of the index `j` is in the rectangle. -/
def Inside (m : NDMask) (dims : List NDDimension) (j : Nat) : Prop :=
  match dims with
  | [_] => m.InX j
  | [x, _] => m.InX (j % x.size.toNat) ∧ m.InY (j / x.size.toNat)
  | _ => False

instance (m : NDMask) (dims : List NDDimension) (j : Nat) : Decidable (m.Inside dims j) :=
  match dims with
  | [] => instDecidableFalse
  | [_] => inferInstanceAs (Decidable (m.InX _))
  | [_, _] => inferInstanceAs (Decidable (_ ∧ _))
  | _ :: _ :: _ :: _ => instDecidableFalse

/-- The rectangle is in an array of these dimensions. -/
def Placed (m : NDMask) (dims : List NDDimension) : Prop :=
  match dims with
  | [x] => m.posX.toNat + m.sizeX.toNat ≤ x.size.toNat
  | [x, y] => m.posX.toNat + m.sizeX.toNat ≤ x.size.toNat ∧ m.posY.toNat + m.sizeY.toNat ≤ y.size.toNat
  | _ => False

end NDMask

namespace NDPluginMask

/-- The plugin has been set up for an array of one or two dimensions, none of them empty. -/
structure Ready (s : NDPluginMask) (a : NDArray) : Prop where
  info : RowMajor a s.arrayInfo
  fits : a.Fits
  nonempty : ∀ x ∈ a.dims, 1 ≤ x.size.toNat
  extents : (∃ x, a.dims = [x] ∧ s.xArrayMax.toNat = x.size.toNat) ∨
    ∃ x y, a.dims = [x, y] ∧ s.xArrayMax.toNat = x.size.toNat ∧ s.yArrayMax.toNat = y.size.toNat

variable {s : NDPluginMask} {a : NDArray}

/-- Whatever the parameters are, the mask that is made of them is in the array. -/
theorem readMask_placed (ready : s.Ready a) (mask : Nat) : (s.readMask a.ndims mask).Placed a.dims := by
  rcases ready.extents with ⟨x, dims, xMax⟩ | ⟨x, y, dims, xMax, yMax⟩
  · have nonempty := ready.nonempty x (by simp [dims])
    rw [dims]
    show (clipPos s.xArrayMax _).toNat + (clipSize s.xArrayMax _ _).toNat ≤ x.size.toNat
    rw [← xMax] at nonempty ⊢
    exact clipPos_add_clipSize_le nonempty _ _
  · have nonemptyX := ready.nonempty x (by simp [dims])
    have nonemptyY := ready.nonempty y (by simp [dims])
    have two : 1 < a.ndims := by simp [NDArray.ndims, dims]
    rw [← xMax] at nonemptyX
    rw [← yMax] at nonemptyY
    rw [dims]
    constructor
    · rw [← xMax]
      exact clipPos_add_clipSize_le nonemptyX _ _
    · rw [← yMax]
      simp only [readMask, if_pos two]
      exact clipPos_add_clipSize_le nonemptyY _ _

theorem doMaskT_placed (ready : s.Ready a) {m : NDMask} (placed : m.Placed a.dims) {α : Type} (cast : UInt64 → α)
    (pData : Vector α a.size) :
    ∃ out, s.doMaskT cast a.ndims pData m = some out ∧
      Wrote (cast m.maskVal) (fun j => j < a.cells ∧ m.Hits (m.Inside a.dims j)) pData out := by
  have fits : a.cells ≤ a.size := ready.fits
  rcases ready.extents with ⟨x, dims, xMax⟩ | ⟨x, y, dims, xMax, yMax⟩
  · have stride := (ready.info.one x dims).2
    rw [NDArray.cells_one dims, ← xMax] at fits ⊢
    rw [dims] at placed
    have placed : m.posX.toNat + m.sizeX.toNat ≤ x.size.toNat := placed
    rw [← xMax] at placed
    rw [NDArray.ndims, dims]
    exact doMaskT_one stride placed fits
  · obtain ⟨-, -, xStride, yStride⟩ := ready.info.two x y dims
    rw [NDArray.cells_two dims] at fits ⊢
    rw [dims] at placed
    rw [NDArray.ndims, dims]
    exact doMaskT_two xStride (congrArg UInt64.toNat yStride) xMax yMax placed.1 placed.2 fits a.addressable

/-- A mask that is in the array writes its value over the cells it applies to, if the plugin knows the data
type. -/
theorem maskArray_placed (ready : s.Ready a) {m : NDMask} (placed : m.Placed a.dims)
    (pData : Vector a.dataType.Cell a.size) :
    ∃ out status, s.maskArray { a with pData := pData } m = some ({ a with pData := out }, status) ∧
      ∀ cast, a.dataType.staticCast = some cast →
        Wrote (cast m.maskVal) (fun j => j < a.cells ∧ m.Hits (m.Inside a.dims j)) pData out := by
  cases typed : a.dataType.staticCast with
  | none =>
    refine ⟨pData, .error, ?_, ?_⟩
    · simp only [maskArray, typed]
    · rintro cast ⟨⟩
  | some cast =>
    obtain ⟨out, done, wrote⟩ := doMaskT_placed ready placed cast pData
    refine ⟨out, .success, ?_, ?_⟩
    · simp only [maskArray, typed]
      show (s.doMaskT cast a.ndims pData m).map _ = _
      rw [done]
      rfl
    · rintro cast' ⟨⟩
      exact wrote

/-! ## The loop over the masks -/

/-- The parameters when the turn of `mask` begins, if `s` is the state before the loop. -/
def paramsAt (s : NDPluginMask) (env : MaskEnv) (ndims : Nat) : Nat → Store MaskParam Int32
  | 0 => s.int
  | mask + 1 =>
    let int := s.paramsAt env ndims mask
    if int mask .use = 0 then int
    else env.others mask (({ s with int := int } : NDPluginMask).fetch ndims mask).int

/-- The parameters of `mask` that its turn reads. -/
def settings (s : NDPluginMask) (env : MaskEnv) (ndims mask : Nat) : MaskParam → Int32 :=
  s.paramsAt env ndims mask mask

/-- The state that the turn of `mask` finds, as far as it looks at it. -/
def found (s : NDPluginMask) (env : MaskEnv) (ndims mask : Nat) : NDPluginMask :=
  { s with int := s.paramsAt env ndims mask }

/-- The state after the turns of the first `k` masks. -/
def afterTurns (s : NDPluginMask) (env : MaskEnv) (ndims k : Nat) : NDPluginMask :=
  { s with
    int := s.paramsAt env ndims k
    pMasks := fun mask =>
      if mask < k ∧ s.settings env ndims mask .use ≠ 0 then (s.found env ndims mask).readMask ndims mask
      else s.pMasks mask }

variable {env : MaskEnv} {ndims : Nat}

theorem fetch_x (mask : Nat) :
    (s.fetch ndims mask).int mask .posX = toInt (s.readMask ndims mask).posX ∧
      (s.fetch ndims mask).int mask .sizeX = toInt (s.readMask ndims mask).sizeX := by
  simp only [fetch, writeBack]
  split <;> simp

theorem fetch_y (two : 1 < ndims) (mask : Nat) :
    (s.fetch ndims mask).int mask .posY = toInt (s.readMask ndims mask).posY ∧
      (s.fetch ndims mask).int mask .sizeY = toInt (s.readMask ndims mask).sizeY := by
  simp [fetch, writeBack, two]

theorem afterTurns_zero : s.afterTurns env ndims 0 = s := by
  simp [afterTurns, paramsAt]

/-- A mask that is not in use. -/
theorem afterTurns_unused {mask : Nat} (unused : s.settings env ndims mask .use = 0) :
    s.afterTurns env ndims (mask + 1) = s.afterTurns env ndims mask := by
  have params : s.paramsAt env ndims (mask + 1) = s.paramsAt env ndims mask := if_pos unused
  have masks : ∀ j, (j < mask + 1 ∧ s.settings env ndims j .use ≠ 0) ↔ j < mask ∧ s.settings env ndims j .use ≠ 0 := by
    intro j
    constructor
    · rintro ⟨lt, used⟩
      have other : j ≠ mask := by
        rintro rfl
        exact used unused
      exact ⟨by omega, used⟩
    · rintro ⟨lt, used⟩
      exact ⟨by omega, used⟩
  simp only [afterTurns, params, masks]

theorem readMask_afterTurns (mask : Nat) :
    (s.afterTurns env ndims mask).readMask ndims mask = (s.found env ndims mask).readMask ndims mask := by
  have untouched : (s.afterTurns env ndims mask).pMasks mask = s.pMasks mask := if_neg fun h => by omega
  simp only [readMask, untouched]
  rfl

/-- A mask that is in use. -/
theorem afterTurns_used {mask : Nat} (used : s.settings env ndims mask .use ≠ 0) :
    s.afterTurns env ndims (mask + 1) =
      { (s.afterTurns env ndims mask).fetch ndims mask with
        int := env.others mask ((s.afterTurns env ndims mask).fetch ndims mask).int } := by
  have params : s.paramsAt env ndims (mask + 1) =
      env.others mask ((s.found env ndims mask).fetch ndims mask).int := if_neg used
  have int : ((s.afterTurns env ndims mask).fetch ndims mask).int = ((s.found env ndims mask).fetch ndims mask).int := by
    simp only [fetch, readMask_afterTurns]
    rfl
  have masks : (s.afterTurns env ndims (mask + 1)).pMasks =
      ((s.afterTurns env ndims mask).fetch ndims mask).pMasks := by
    funext j
    simp only [fetch, readMask_afterTurns]
    by_cases this : j = mask
    · subst this
      rw [Function.update_self]
      exact if_pos ⟨by omega, used⟩
    · rw [Function.update_of_ne this]
      have before : (j < mask + 1 ∧ s.settings env ndims j .use ≠ 0) ↔ j < mask ∧ s.settings env ndims j .use ≠ 0 := by
        constructor <;> rintro ⟨lt, usedJ⟩ <;> exact ⟨by omega, usedJ⟩
      simp only [afterTurns, before]
  calc s.afterTurns env ndims (mask + 1)
      = { s with
          int := s.paramsAt env ndims (mask + 1)
          pMasks := (s.afterTurns env ndims (mask + 1)).pMasks } := rfl
    _ = _ := by
      rw [params, masks, ← int]
      rfl

theorem Ready.afterTurns (ready : s.Ready a) (k : Nat) : (s.afterTurns env ndims k).Ready a :=
  ⟨ready.info, ready.fits, ready.nonempty, ready.extents⟩

/-- The turn of `mask` writes over the cell `j`. -/
def TurnHits (s : NDPluginMask) (env : MaskEnv) (a : NDArray) (mask j : Nat) : Prop :=
  s.settings env a.ndims mask .use ≠ 0 ∧ j < a.cells ∧
    ((s.found env a.ndims mask).readMask a.ndims mask).Hits
      (((s.found env a.ndims mask).readMask a.ndims mask).Inside a.dims j)

instance (s : NDPluginMask) (env : MaskEnv) (a : NDArray) (mask j : Nat) : Decidable (s.TurnHits env a mask j) :=
  inferInstanceAs (Decidable (_ ∧ _ ∧ _))

/-- One turn. -/
theorem turn_afterTurns (ready : s.Ready a) (mem : Arrays) (pOutput mask : Nat) (pData : Vector a.dataType.Cell a.size) :
    ∃ out, turn env a.ndims pOutput mask
        (s.afterTurns env a.ndims mask, Function.update mem pOutput { a with pData := pData }) =
          some (s.afterTurns env a.ndims (mask + 1), Function.update mem pOutput { a with pData := out }) ∧
      ∀ cast, a.dataType.staticCast = some cast →
        Wrote (cast (ofInt (s.settings env a.ndims mask .val))) (s.TurnHits env a mask) pData out := by
  by_cases unused : s.settings env a.ndims mask .use = 0
  · refine ⟨pData, ?_, fun cast _ => .nothing fun j hits => hits.1 unused⟩
    rw [afterTurns_unused unused]
    exact if_pos unused
  · have placed : ((s.found env a.ndims mask).readMask a.ndims mask).Placed a.dims := by
      have := readMask_placed (@Ready.afterTurns s a env a.ndims ready mask) mask
      rwa [readMask_afterTurns] at this
    have fetched : ((s.afterTurns env a.ndims mask).fetch a.ndims mask).Ready a :=
      ⟨ready.info, ready.fits, ready.nonempty, ready.extents⟩
    obtain ⟨out, status, done, wrote⟩ := maskArray_placed fetched placed pData
    refine ⟨out, ?_, fun cast typed => (wrote cast typed).congr fun j _ => ?_⟩
    · have stored : ((s.afterTurns env a.ndims mask).fetch a.ndims mask).pMasks mask =
          (s.found env a.ndims mask).readMask a.ndims mask := by
        rw [← readMask_afterTurns]
        exact Function.update_self ..
      have used : ¬ (s.afterTurns env a.ndims mask).int mask .use = 0 := unused
      simp only [turn, if_neg used, stored, doMask, Function.update_self]
      rw [done, afterTurns_used unused]
      simp
    · exact ⟨fun hits => ⟨unused, hits⟩, And.right⟩

/-- The whole loop: each cell has the value of the last mask that applies to it. -/
theorem turns_afterTurns (ready : s.Ready a) (mem : Arrays) (pOutput k : Nat) :
    ∃ out, forLoop 0 k (turn env a.ndims pOutput) (s, Function.update mem pOutput a) =
        some (s.afterTurns env a.ndims k, Function.update mem pOutput { a with pData := out }) ∧
      ∀ cast, a.dataType.staticCast = some cast → ∀ j (h : j < a.size),
        out[j] = (Stores.lastBelow (fun mask => s.TurnHits env a mask j) k).elim a.pData[j]
          fun mask => cast (ofInt (s.settings env a.ndims mask .val)) := by
  obtain ⟨⟨s', mem'⟩, done, after⟩ := @Stores.forLoop_invariant _ 0 k (turn env a.ndims pOutput)
    (s, Function.update mem pOutput a)
    (fun k r => r.1 = s.afterTurns env a.ndims k ∧ ∃ out : Vector a.dataType.Cell a.size,
      r.2 = Function.update mem pOutput { a with pData := out } ∧
      ∀ cast, a.dataType.staticCast = some cast → ∀ j (h : j < a.size),
        out[j] = (Stores.lastBelow (fun mask => s.TurnHits env a mask j) k).elim a.pData[j]
          fun mask => cast (ofInt (s.settings env a.ndims mask .val)))
    ⟨afterTurns_zero.symm, a.pData, rfl, fun _ _ _ _ => rfl⟩ (by
      rintro mask ⟨s', mem'⟩ - - ⟨rfl, pData, rfl, cells⟩
      obtain ⟨out, done, wrote⟩ := @turn_afterTurns s a env ready mem pOutput mask pData
      refine ⟨_, done, rfl, out, rfl, fun cast typed j h => ?_⟩
      rw [Stores.lastBelow_succ]
      by_cases hits : s.TurnHits env a mask j
      · rw [(wrote cast typed).here j h hits]
        simp [hits]
      · rw [(wrote cast typed).elsewhere j h hits, cells cast typed j h]
        simp [hits])
  rw [Nat.zero_max] at after
  obtain ⟨rfl, out, rfl, cells⟩ := after
  exact ⟨out, done, cells⟩

/-! ## `processCallbacks` -/

/-- Extents of 32 bits survive the way through `int`. -/
theorem setUp_ready (pOutput : Nat) {info : NDArrayInfo} (shape : a.ndims = 1 ∨ a.ndims = 2) (rowMajor : RowMajor a info)
    (fits : a.Fits) (extents : ∀ x ∈ a.dims, 1 ≤ x.size.toNat ∧ x.size.toNat < 2 ^ 32) :
    (s.setUp pOutput info).Ready a := by
  refine ⟨rowMajor, fits, fun x mem => (extents x mem).1, ?_⟩
  rcases shape with one | two
  · obtain ⟨x, dims⟩ := List.length_eq_one_iff.1 one
    refine .inl ⟨x, dims, ?_⟩
    show (toInt info.xSize).toUInt32.toNat = x.size.toNat
    rw [(rowMajor.one x dims).1, SizeT.toNat_toInt (extents x (by simp [dims])).2]
  · obtain ⟨x, y, dims⟩ := List.length_eq_two.1 two
    obtain ⟨xSize, ySize, -, -⟩ := rowMajor.two x y dims
    refine .inr ⟨x, y, dims, ?_, ?_⟩
    · show (toInt info.xSize).toUInt32.toNat = x.size.toNat
      rw [xSize, SizeT.toNat_toInt (extents x (by simp [dims])).2]
    · show (toInt info.ySize).toUInt32.toNat = y.size.toNat
      rw [ySize, SizeT.toNat_toInt (extents y (by simp [dims])).2]

theorem processCallbacks_eq (s : NDPluginMask) {env : MaskEnv} {mem : Arrays} {src dst : Nat} (copied : env.copy = some dst)
    (shape : (mem src).ndims = 1 ∨ (mem src).ndims = 2) (rowMajor : RowMajor (mem src) (env.getInfo (mem src)))
    (fits : (mem src).Fits) (extents : ∀ x ∈ (mem src).dims, 1 ≤ x.size.toNat ∧ x.size.toNat < 2 ^ 32) :
    let start := s.setUp dst (env.getInfo (mem src))
    ∃ out, s.processCallbacks env mem src =
        some (start.afterTurns env (mem src).ndims s.maxMasks.toInt.toNat,
          Function.update mem dst { mem src with pData := out }) ∧
      ∀ cast, (mem src).dataType.staticCast = some cast → ∀ j (h : j < (mem src).size),
        out[j] = (Stores.lastBelow (fun mask => start.TurnHits env (mem src) mask j) s.maxMasks.toInt.toNat).elim
          (mem src).pData[j] fun mask => cast (ofInt (start.settings env (mem src).ndims mask .val)) := by
  intro start
  obtain ⟨out, done, cells⟩ := @turns_afterTurns start _ env (setUp_ready dst shape rowMajor fits extents) mem dst
    s.maxMasks.toInt.toNat
  refine ⟨out, ?_, cells⟩
  rw [processCallbacks, copied]
  exact done

/-- A plugin with these masks that has not seen an array yet. -/
def withMasks (masks : List (MaskParam → Int32)) : NDPluginMask where
  maxMasks := Int32.ofNat masks.length
  int := fun mask => masks.getD mask fun _ => 0
  pMasks := fun _ => ⟨0, 0, 0, 0, 0, 0⟩
  arrayInfo := ⟨0, 0, 0, 0⟩
  xArrayMax := 0
  yArrayMax := 0
  pArrays := none

/-- The parameters of a mask in use. -/
def rectangle (posX sizeX posY sizeY val type : Int32) : MaskParam → Int32
  | .use => 1
  | .posX => posX
  | .sizeX => sizeX
  | .posY => posY
  | .sizeY => sizeY
  | .val => val
  | .type => type
  | .maxSizeX | .maxSizeY => 0

end NDPluginMask

/-- `NDArray::getInfo`, for one or two dimensions. -/
def NDArray.info (a : NDArray) : NDArrayInfo :=
  match a.dims with
  | [x] => ⟨x.size, 0, 1, 0⟩
  | [x, y] => ⟨x.size, y.size, 1, x.size⟩
  | _ => ⟨0, 0, 0, 0⟩

theorem NDArray.rowMajor_info (a : NDArray) : RowMajor a a.info := by
  constructor
  · intro x dims
    simp [info, dims]
  · intro x y dims
    simp [info, dims]

/-- The copy is at `dst`, and nobody else writes parameters. -/
def MaskEnv.alone (dst : Nat) : MaskEnv := ⟨NDArray.info, some dst, fun _ int => int⟩

/-- Two rows of three cells. -/
def twoRows (pData : Vector UInt8 6) : NDArray := ⟨.uint8, [⟨3, 0, 1⟩, ⟨2, 0, 1⟩], 6, pData, by decide⟩

def sixCells : NDArray := twoRows #v[1, 2, 3, 4, 5, 6]

end ADnED
