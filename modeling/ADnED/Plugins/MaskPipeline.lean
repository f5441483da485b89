import ADnED.Plugins.MaskClip

/-!
# What the mask plugin passes on

In the array that `processCallbacks` passes on, a cell has the value of the last mask that applies to it,
or its own if there is none. The extents of the array go through `int`, so this is so for every list of
masks exactly if they have 32 bits (`mask_pipeline_iff`): of a larger array the plugin never gets at the last
cell (`last_unseen`), not even with a mask that lets nothing pass.
-/

namespace ADnED

open SizeT (ofInt toInt minOf)
open Stores (forLoop_keeps forLoop_other store_other ite_store_other)

/-- Along one axis, `x` is in the clipped rectangle. -/
def Covers (extent : Nat) (pos size : Int32) (x : Nat) : Prop :=
  clampPos extent pos.toInt ≤ x ∧ (x : Int) < clampPos extent pos.toInt + clampSize extent pos.toInt size.toInt

instance (extent : Nat) (pos size : Int32) (x : Nat) : Decidable (Covers extent pos size x) :=
  inferInstanceAs (Decidable (_ ∧ _))

/-- The cell of the index `j` is in the clipped rectangle of a mask with these parameters. -/
def InRectangle (m : MaskParam → Int32) (dims : List NDDimension) (j : Nat) : Prop :=
  match dims with
  | [x] => Covers x.size.toNat (m .posX) (m .sizeX) j
  | [x, y] =>
    Covers x.size.toNat (m .posX) (m .sizeX) (j % x.size.toNat) ∧
      Covers y.size.toNat (m .posY) (m .sizeY) (j / x.size.toNat)
  | _ => False

instance (m : MaskParam → Int32) (dims : List NDDimension) (j : Nat) : Decidable (InRectangle m dims j) :=
  match dims with
  | [] => instDecidableFalse
  | [_] => inferInstanceAs (Decidable (Covers _ _ _ _))
  | [_, _] => inferInstanceAs (Decidable (_ ∧ _))
  | _ :: _ :: _ :: _ => instDecidableFalse

/-- A mask in use applies to a cell: type 0 rejects what is inside of the rectangle, type 1 lets only
that pass, and every other type does nothing. -/
def Applies (m : MaskParam → Int32) (dims : List NDDimension) (j : Nat) : Prop :=
  m .use ≠ 0 ∧ (m .type = 0 ∧ InRectangle m dims j ∨ m .type = 1 ∧ ¬ InRectangle m dims j)

instance (m : MaskParam → Int32) (dims : List NDDimension) (j : Nat) : Decidable (Applies m dims j) :=
  inferInstanceAs (Decidable (_ ∧ _))

namespace NDPluginMask

variable {s : NDPluginMask} {env : MaskEnv} {a : NDArray}

/-- The rectangle along one axis, for values that are not negative. -/
theorem clip_covers {extent : UInt32} (nonempty : 1 ≤ extent.toNat) {pos size : Int32} (posNonneg : 0 ≤ pos.toInt)
    (sizeNonneg : 0 ≤ size.toInt) (x : Nat) :
    ((clipPos extent pos).toNat ≤ x ∧
        x < (clipPos extent pos).toNat + (clipSize extent (clipPos extent pos) size).toNat) ↔
      Covers extent.toNat pos size x := by
  have inside := clipPos_lt nonempty pos
  have first := (clipPos_eq_iff nonempty pos).2 (.inl posNonneg)
  have count := (clipSize_eq_iff inside size).2 sizeNonneg
  rw [first, ← clampSize] at count
  rw [Covers, ← first, ← count]
  omega

/-- The parameters that `mask` is read from are not negative. -/
def NonNeg (m : MaskParam → Int32) : Prop :=
  0 ≤ (m .posX).toInt ∧ 0 ≤ (m .sizeX).toInt ∧ 0 ≤ (m .posY).toInt ∧ 0 ≤ (m .sizeY).toInt

instance (m : MaskParam → Int32) : Decidable (NonNeg m) := inferInstanceAs (Decidable (_ ∧ _))

theorem inside_iff (ready : s.Ready a) {mask : Nat} (nonneg : NonNeg (s.settings env a.ndims mask)) (j : Nat) :
    ((s.found env a.ndims mask).readMask a.ndims mask).Inside a.dims j ↔
      InRectangle (s.settings env a.ndims mask) a.dims j := by
  obtain ⟨posX, sizeX, posY, sizeY⟩ := nonneg
  rcases ready.extents with ⟨x, dims, xMax⟩ | ⟨x, y, dims, xMax, yMax⟩
  · have nonempty := ready.nonempty x (by simp [dims])
    rw [← xMax] at nonempty
    rw [dims]
    show _ ↔ Covers x.size.toNat _ _ j
    rw [← xMax]
    exact clip_covers nonempty posX sizeX j
  · have nonemptyX := ready.nonempty x (by simp [dims])
    have nonemptyY := ready.nonempty y (by simp [dims])
    have two : 1 < a.ndims := by simp [NDArray.ndims, dims]
    rw [← xMax] at nonemptyX
    rw [← yMax] at nonemptyY
    rw [dims]
    show _ ∧ _ ↔ Covers x.size.toNat _ _ _ ∧ Covers y.size.toNat _ _ _
    apply and_congr
    · rw [← xMax]
      exact clip_covers nonemptyX posX sizeX _
    · rw [← yMax]
      simp only [NDMask.InY, readMask, if_pos two]
      exact clip_covers nonemptyY posY sizeY _

theorem turnHits_iff (ready : s.Ready a) {mask : Nat} (nonneg : NonNeg (s.settings env a.ndims mask)) (j : Nat) :
    s.TurnHits env a mask j ↔ j < a.cells ∧ Applies (s.settings env a.ndims mask) a.dims j := by
  have reject : ((s.found env a.ndims mask).readMask a.ndims mask).maskType = maskTypeReject ↔
      s.settings env a.ndims mask .type = 0 := SizeT.ofInt_inj (y := 0)
  have pass : ((s.found env a.ndims mask).readMask a.ndims mask).maskType = maskTypePass ↔
      s.settings env a.ndims mask .type = 1 := SizeT.ofInt_inj (y := 1)
  rw [TurnHits, Applies, NDMask.Hits, reject, pass, inside_iff ready nonneg]
  exact and_left_comm

/-- Each cell of the array that is passed on has the value of the last mask that applies to it, and the
input's if there is none. No other array changes. -/
def PassesOn (s : NDPluginMask) (env : MaskEnv) (mem : Arrays) (src dst : Nat)
    (wrap : Int → (mem src).dataType.Cell) : Prop :=
  ∃ s' mem' out, s.processCallbacks env mem src = some (s', mem') ∧ s'.pArrays = some dst ∧
    mem' dst = { mem src with pData := out } ∧
    (∀ j (h : j < (mem src).size),
      let masks := fun mask => (s.setUp dst (env.getInfo (mem src))).settings env (mem src).ndims mask
      out[j] = (Stores.lastBelow (fun mask => j < (mem src).cells ∧ Applies (masks mask) (mem src).dims j)
        s.maxMasks.toInt.toNat).elim (mem src).pData[j] fun mask => wrap (masks mask .val).toInt) ∧
    mem' src = mem src ∧ ∀ p, p ≠ dst → mem' p = mem p

theorem passesOn_of_small (s : NDPluginMask) {env : MaskEnv} {mem : Arrays} {src dst : Nat} (copied : env.copy = some dst)
    (independent : dst ≠ src) (shape : (mem src).ndims = 1 ∨ (mem src).ndims = 2)
    (rowMajor : RowMajor (mem src) (env.getInfo (mem src))) (fits : (mem src).Fits)
    {wrap : Int → (mem src).dataType.Cell} (integer : (mem src).dataType.wrap = some wrap)
    (nonneg : ∀ mask < s.maxMasks.toInt.toNat,
      NonNeg ((s.setUp dst (env.getInfo (mem src))).settings env (mem src).ndims mask))
    (extents : ∀ x ∈ (mem src).dims, 1 ≤ x.size.toNat ∧ x.size.toNat < 2 ^ 32) : s.PassesOn env mem src dst wrap := by
  obtain ⟨cast, typed, value⟩ := NDDataType.staticCast_of_wrap integer
  obtain ⟨out, done, cells⟩ := processCallbacks_eq s copied shape rowMajor fits extents
  have ready : (s.setUp dst (env.getInfo (mem src))).Ready (mem src) := setUp_ready dst shape rowMajor fits extents
  refine ⟨_, _, out, done, rfl, Function.update_self .., ?_, ?_, ?_⟩
  · intro j h masks
    have same : ∀ mask < s.maxMasks.toInt.toNat,
        decide ((s.setUp dst (env.getInfo (mem src))).TurnHits env (mem src) mask j) =
          decide (j < (mem src).cells ∧ Applies (masks mask) (mem src).dims j) := by
      intro mask below
      rw [decide_eq_decide]
      exact turnHits_iff ready (nonneg mask below) j
    rw [cells cast typed j h, Stores.lastBelow_congr same]
    simp only [value, masks]
  · exact Function.update_of_ne independent.symm ..
  · intro p other
    exact Function.update_of_ne other ..

/-! ## What the plugin cannot get at -/

section Unseen

variable {s : NDPluginMask} {α : Type} {n ndims j : Nat} {cast : UInt64 → α} {pData out : Vector α n} {m : NDMask}

/-- The plugin can get at the cell `j`: the extents that it has stored reach it. -/
def Sees (s : NDPluginMask) (ndims j : Nat) : Prop :=
  ∃ ix < s.xArrayMax.toNat, (ndims = 1 ∧ (UInt64.ofNat ix * s.arrayInfo.xStride).toNat = j) ∨
    ndims = 2 ∧ ∃ iy < s.yArrayMax.toNat,
      (UInt64.ofNat iy * s.arrayInfo.yStride).toNat + (UInt64.ofNat ix * s.arrayInfo.xStride).toNat = j

theorem toNat_minOf_le (a : UInt64) (b : UInt32) : (minOf a b.toUInt64).toNat ≤ b.toNat := by
  rw [SizeT.toNat_minOf, UInt32.toNat_toUInt64]
  exact Nat.min_le_right _ _

theorem doMaskT_unseen (unseen : ¬ s.Sees ndims j) (h : j < n) (done : s.doMaskT cast ndims pData m = some out) :
    out[j] = pData[j] := by
  have xBound := toNat_minOf_le (m.posX + m.sizeX) s.xArrayMax
  have yBound := toNat_minOf_le (m.posY + m.sizeY) s.yArrayMax
  simp only [doMaskT] at done
  by_cases one : ndims = 1
  · have column : ∀ ix < s.xArrayMax.toNat, (UInt64.ofNat ix * s.arrayInfo.xStride).toNat ≠ j :=
      fun ix lt hit => unseen ⟨ix, lt, .inl ⟨one, hit⟩⟩
    rw [if_pos one] at done
    split_ifs at done
    · apply forLoop_other h done
      intro ix b b' _ lt stored
      exact store_other stored h (column ix (by omega))
    · apply forLoop_other h done
      intro ix b b' _ lt stored
      exact ite_store_other stored h (column ix lt)
    · cases done
      rfl
  rw [if_neg one] at done
  by_cases two : ndims = 2
  · have cell : ∀ ix < s.xArrayMax.toNat, ∀ iy < s.yArrayMax.toNat,
        (UInt64.ofNat iy * s.arrayInfo.yStride).toNat + (UInt64.ofNat ix * s.arrayInfo.xStride).toNat ≠ j :=
      fun ix ltX iy ltY hit => unseen ⟨ix, ltX, .inr ⟨two, iy, ltY, hit⟩⟩
    rw [if_pos two] at done
    split_ifs at done
    · apply forLoop_other h done
      intro iy b b' _ ltY row
      apply forLoop_other h row
      intro ix b b' _ ltX stored
      exact store_other stored h (cell ix (by omega) iy (by omega))
    · apply forLoop_other h done
      intro iy b b' _ ltY row
      apply forLoop_other h row
      intro ix b b' _ ltX stored
      exact ite_store_other stored h (cell ix ltX iy ltY)
    · cases done
      rfl
  · rw [if_neg two] at done
    cases done
    rfl

/-- In the loop over the masks: the extents stay what they are, and the cell `j` of the copy what it was. -/
def Keeps (start : NDPluginMask) (mem : Arrays) (pOutput : Nat) (a : NDArray) (j : Nat) (h : j < a.size)
    (r : NDPluginMask × Arrays) : Prop :=
  r.1.xArrayMax = start.xArrayMax ∧ r.1.yArrayMax = start.yArrayMax ∧ r.1.arrayInfo = start.arrayInfo ∧
    ∃ out : Vector a.dataType.Cell a.size, r.2 = Function.update mem pOutput { a with pData := out } ∧ out[j] = a.pData[j]

theorem turn_keeps {start : NDPluginMask} {env : MaskEnv} {mem : Arrays} {pOutput mask : Nat} {a : NDArray}
    (h : j < a.size) (unseen : ¬ start.Sees a.ndims j) {r r' : NDPluginMask × Arrays}
    (done : turn env a.ndims pOutput mask r = some r') (kept : start.Keeps mem pOutput a j h r) :
    start.Keeps mem pOutput a j h r' := by
  obtain ⟨s, mem'⟩ := r
  obtain ⟨xMax, yMax, info, pData, rfl, same⟩ := kept
  have hidden : ¬ (s.fetch a.ndims mask).Sees a.ndims j := by
    rw [Sees, show (s.fetch a.ndims mask).xArrayMax = start.xArrayMax from xMax,
      show (s.fetch a.ndims mask).yArrayMax = start.yArrayMax from yMax,
      show (s.fetch a.ndims mask).arrayInfo = start.arrayInfo from info]
    exact unseen
  simp only [turn] at done
  split_ifs at done
  · cases done
    exact ⟨xMax, yMax, info, pData, rfl, same⟩
  · obtain ⟨⟨mem', status⟩, masked, rfl⟩ := Option.map_eq_some_iff.1 done
    obtain ⟨⟨array, status⟩, applied, stored⟩ := Option.map_eq_some_iff.1 masked
    cases stored
    refine ⟨xMax, yMax, info, ?_⟩
    rw [Function.update_self] at applied
    simp only [maskArray] at applied
    cases typed : a.dataType.staticCast with
    | none =>
      simp only [typed] at applied
      cases applied
      exact ⟨pData, by simp, same⟩
    | some cast =>
      simp only [typed] at applied
      obtain ⟨out, written, made⟩ := Option.map_eq_some_iff.1 applied
      cases made
      exact ⟨out, by simp, (doMaskT_unseen hidden h written).trans same⟩

/-- A cell that the plugin cannot get at is passed on as it is. -/
theorem processCallbacks_unseen {s s' : NDPluginMask} {env : MaskEnv} {mem mem' : Arrays} {src dst : Nat}
    (copied : env.copy = some dst) (h : j < (mem src).size)
    (unseen : ¬ (s.setUp dst (env.getInfo (mem src))).Sees (mem src).ndims j)
    (done : s.processCallbacks env mem src = some (s', mem')) :
    ∃ out, mem' dst = { mem src with pData := out } ∧ out[j] = (mem src).pData[j] := by
  rw [processCallbacks, copied] at done
  have kept := forLoop_keeps (P := (s.setUp dst (env.getInfo (mem src))).Keeps mem dst (mem src) j h)
    (fun mask r r' _ _ taken => turn_keeps h unseen taken) done ⟨rfl, rfl, rfl, (mem src).pData, rfl, rfl⟩
  obtain ⟨-, -, -, out, arrays, same⟩ := kept
  refine ⟨out, ?_, same⟩
  have arrays : mem' = _ := arrays
  rw [arrays, Function.update_self]

end Unseen

section LastCell

variable {s : NDPluginMask} {a : NDArray} {info : NDArrayInfo}

/-- The last cell of an array with an extent of more than 32 bits is out of reach. -/
theorem last_unseen (pOutput : Nat) (shape : a.ndims = 1 ∨ a.ndims = 2) (rowMajor : RowMajor a info) (fits : a.Fits)
    {x : NDDimension} (mem : x ∈ a.dims) (large : 2 ^ 32 ≤ x.size.toNat) :
    ¬ (s.setUp pOutput info).Sees a.ndims (a.cells - 1) := by
  have extent : ∀ x : UInt64, (toInt x).toUInt32.toNat = x.toNat % 2 ^ 32 := UInt64.toNat_toUInt32
  rintro ⟨ix, ltX, hit⟩
  have ltX : ix < (toInt info.xSize).toUInt32.toNat := ltX
  have small := (toInt info.xSize).toUInt32.toNat_lt
  rcases shape with one | two
  · obtain ⟨y, dims⟩ := List.length_eq_one_iff.1 one
    obtain ⟨xSize, xStride⟩ := rowMajor.one y dims
    obtain rfl : x = y := by simpa [dims] using mem
    rcases hit with ⟨-, hit⟩ | ⟨two, -⟩
    · have column : (UInt64.ofNat ix * info.xStride).toNat = ix := toNat_column (s := s.setUp pOutput info) xStride (by omega)
      have hit : (UInt64.ofNat ix * info.xStride).toNat = a.cells - 1 := hit
      rw [column, NDArray.cells_one dims] at hit
      omega
    · omega
  · obtain ⟨u, v, dims⟩ := List.length_eq_two.1 two
    obtain ⟨xSize, ySize, xStride, yStride⟩ := rowMajor.two u v dims
    rcases hit with ⟨one, -⟩ | ⟨-, iy, ltY, hit⟩
    · omega
    · have ltY : iy < (toInt info.ySize).toUInt32.toNat := ltY
      have smallY := (toInt info.ySize).toUInt32.toNat_lt
      rw [extent, xSize] at ltX
      rw [extent, ySize] at ltY
      have room : u.size.toNat * v.size.toNat ≤ a.size := by
        rw [← NDArray.cells_two dims]
        exact fits
      have leX : u.size.toNat % 2 ^ 32 ≤ u.size.toNat := Nat.mod_le _ _
      have leY : v.size.toNat % 2 ^ 32 ≤ v.size.toNat := Nat.mod_le _ _
      have cell : (UInt64.ofNat iy * info.yStride).toNat + (UInt64.ofNat ix * info.xStride).toNat =
          iy * u.size.toNat + ix :=
        (@toNat_cell _ (s.setUp pOutput info) u.size.toNat v.size.toNat ix iy xStride (congrArg UInt64.toNat yStride)
          (by omega) (by omega) room a.addressable).1
      have hit : (UInt64.ofNat iy * info.yStride).toNat + (UInt64.ofNat ix * info.xStride).toNat = a.cells - 1 := hit
      rw [cell, NDArray.cells_two dims] at hit
      obtain ⟨column, row⟩ := Stores.grid_last (by omega) (by omega) hit
      have dim : x = u ∨ x = v := by simpa [dims] using mem
      rcases dim with rfl | rfl <;> omega

end LastCell

/-- A plugin with one mask, which lets nothing pass. -/
def passNothing (val : Int32) : NDPluginMask := withMasks [rectangle 0 0 0 0 val 1]

theorem not_covers_zero (extent : Nat) (x : Nat) : ¬ Covers extent 0 0 x := by
  rintro ⟨first, last⟩
  have pos : clampPos extent (0 : Int32).toInt ≤ 0 := Int.min_le_left _ _
  have size : clampSize extent (0 : Int32).toInt (0 : Int32).toInt ≤ 0 := Int.min_le_left _ _
  omega

section PassNothing

variable (val : Int32) (dst : Nat) (info : NDArrayInfo) (env : MaskEnv) (ndims : Nat)

theorem passNothing_settings {p : MaskParam} (notX : p ≠ .maxSizeX) (notY : p ≠ .maxSizeY) :
    ((passNothing val).setUp dst info).settings env ndims 0 p = rectangle 0 0 0 0 val 1 p := by
  show (((passNothing val).int.set 0 .maxSizeX _).set 0 .maxSizeY _) 0 p = _
  rw [Store.set_other_param _ _ _ _ _ notY, Store.set_other_param _ _ _ _ _ notX]
  rfl

theorem passNothing_applies (dims : List NDDimension) (j : Nat) :
    Applies (((passNothing val).setUp dst info).settings env ndims 0) dims j := by
  have setting : ∀ {p : MaskParam}, p ≠ .maxSizeX → p ≠ .maxSizeY →
      ((passNothing val).setUp dst info).settings env ndims 0 p = rectangle 0 0 0 0 val 1 p :=
    passNothing_settings val dst info env ndims
  refine ⟨?_, .inr ⟨?_, ?_⟩⟩
  · rw [setting (by decide) (by decide)]
    show (1 : Int32) ≠ 0
    decide
  · exact setting (by decide) (by decide)
  · rcases dims with _ | ⟨x, _ | ⟨y, _ | _⟩⟩
    · exact id
    · rw [InRectangle, setting (by decide) (by decide), setting (by decide) (by decide)]
      exact not_covers_zero _ _
    · rw [InRectangle, setting (by decide) (by decide), setting (by decide) (by decide)]
      exact fun inside => not_covers_zero _ _ inside.1
    · exact id

theorem passNothing_nonNeg : ∀ mask < (passNothing val).maxMasks.toInt.toNat,
    NonNeg (((passNothing val).setUp dst info).settings env ndims mask) := by
  intro mask below
  have first : mask = 0 := by
    have one : (passNothing val).maxMasks.toInt.toNat = 1 := rfl
    omega
  subst first
  rw [NonNeg, passNothing_settings val dst info env ndims (by decide) (by decide),
    passNothing_settings val dst info env ndims (by decide) (by decide),
    passNothing_settings val dst info env ndims (by decide) (by decide),
    passNothing_settings val dst info env ndims (by decide) (by decide)]
  exact ⟨Int.le_refl 0, Int.le_refl 0, Int.le_refl 0, Int.le_refl 0⟩

end PassNothing

/-- A plugin that lets nothing pass does not get at the last cell of an array that is too large. -/
theorem passNothing_last {env : MaskEnv} {mem : Arrays} {src dst : Nat} (copied : env.copy = some dst)
    (shape : (mem src).ndims = 1 ∨ (mem src).ndims = 2) (rowMajor : RowMajor (mem src) (env.getInfo (mem src)))
    (fits : (mem src).Fits) (nonempty : ∀ x ∈ (mem src).dims, 1 ≤ x.size.toNat)
    {wrap : Int → (mem src).dataType.Cell} {x : NDDimension} (listed : x ∈ (mem src).dims)
    (large : 2 ^ 32 ≤ x.size.toNat) (val : Int32) (law : (passNothing val).PassesOn env mem src dst wrap)
    (h : (mem src).cells - 1 < (mem src).size) : wrap val.toInt = (mem src).pData[(mem src).cells - 1] := by
  obtain ⟨s', mem', out, done, -, published, values, -⟩ := law
  have unseen := @last_unseen (passNothing val) _ _ dst shape rowMajor fits x listed large
  obtain ⟨out', published', same⟩ := processCallbacks_unseen copied h unseen done
  have outs : out = out' := by
    have arrays := published.symm.trans published'
    simpa using arrays
  have last : (mem src).cells - 1 < (mem src).cells := Nat.sub_one_lt_of_lt (NDArray.cells_pos shape nonempty)
  have value := values _ h
  rw [← outs] at same
  rw [← same, value]
  have applies := passNothing_applies val dst (env.getInfo (mem src)) env (mem src).ndims (mem src).dims ((mem src).cells - 1)
  have only : Stores.lastBelow (fun mask => (mem src).cells - 1 < (mem src).cells ∧
      Applies (((passNothing val).setUp dst (env.getInfo (mem src))).settings env (mem src).ndims mask)
        (mem src).dims ((mem src).cells - 1)) (passNothing val).maxMasks.toInt.toNat = some 0 := by
    show Stores.lastBelow _ (0 + 1) = _
    rw [Stores.lastBelow_succ, if_pos (decide_eq_true ⟨last, applies⟩)]
  rw [only]
  have setting : ((passNothing val).setUp dst (env.getInfo (mem src))).settings env (mem src).ndims 0 .val = val :=
    passNothing_settings val dst _ env _ (by decide) (by decide)
  exact congrArg (fun v : Int32 => wrap v.toInt) setting.symm

/-- **The masks on an array.** Whatever the masks are, the array that is passed on is the input with the masks
applied one after the other, exactly if the extents of the input have 32 bits. -/
theorem mask_pipeline_iff {getInfo : NDArray → NDArrayInfo} {mem : Arrays} {src dst : Nat} (independent : dst ≠ src)
    (shape : (mem src).ndims = 1 ∨ (mem src).ndims = 2) (rowMajor : RowMajor (mem src) (getInfo (mem src)))
    (fits : (mem src).Fits) (nonempty : ∀ x ∈ (mem src).dims, 1 ≤ x.size.toNat)
    {wrap : Int → (mem src).dataType.Cell} (integer : (mem src).dataType.wrap = some wrap) :
    (∀ (s : NDPluginMask) (others : Nat → Store MaskParam Int32 → Store MaskParam Int32),
        let env : MaskEnv := ⟨getInfo, some dst, others⟩
        (∀ mask < s.maxMasks.toInt.toNat,
          NonNeg ((s.setUp dst (getInfo (mem src))).settings env (mem src).ndims mask)) →
        s.PassesOn env mem src dst wrap) ↔
      ∀ x ∈ (mem src).dims, x.size.toNat < 2 ^ 32 := by
  constructor
  · intro law x listed
    by_contra large
    have inside : (mem src).cells - 1 < (mem src).size :=
      Nat.lt_of_lt_of_le (Nat.sub_one_lt_of_lt (NDArray.cells_pos shape nonempty)) fits
    have kept : ∀ val : Int32, wrap val.toInt = (mem src).pData[(mem src).cells - 1] := by
      intro val
      have nonneg := passNothing_nonNeg val dst (getInfo (mem src)) ⟨getInfo, some dst, fun _ int => int⟩ (mem src).ndims
      exact passNothing_last rfl shape rowMajor fits nonempty listed (by omega) val (law _ _ nonneg) inside
    exact NDDataType.wrap_ne integer ((kept 0).trans (kept 1).symm)
  · intro small s others env nonneg
    have extents : ∀ x ∈ (mem src).dims, 1 ≤ x.size.toNat ∧ x.size.toNat < 2 ^ 32 :=
      fun x mem => ⟨nonempty x mem, small x mem⟩
    exact passesOn_of_small s rfl independent shape rowMajor fits integer nonneg extents

/-- Three masks on two rows of three cells: one rejects the column in the middle, the next one lets only
the first row pass, and the last one is cut off to the cell at the end. -/
theorem mask_pipeline_threeMasks : ∃ s' mem',
    (withMasks [rectangle 1 1 0 9 20 0, rectangle 0 3 0 1 300 1, rectangle 5 2 1 1 7 0]).processCallbacks (.alone 1)
        (fun _ => sixCells) 0 = some (s', mem') ∧
      mem' 1 = twoRows #v[1, 20, 3, 44, 44, 7] ∧ mem' 0 = sixCells := by
  obtain ⟨s', mem', out, done, -, published, cells, unchanged, -⟩ :=
    (@mask_pipeline_iff NDArray.info (fun _ => sixCells) 0 1 (by decide) (.inr rfl) (NDArray.rowMajor_info _) (by decide)
      (by decide) _ rfl).2 (by decide) (withMasks [rectangle 1 1 0 9 20 0, rectangle 0 3 0 1 300 1, rectangle 5 2 1 1 7 0])
      (fun _ int => int) (by decide)
  refine ⟨s', mem', done, ?_, unchanged⟩
  have values : out = (#v[1, 20, 3, 44, 44, 7] : Vector UInt8 6) := by
    apply Vector.ext
    intro j h
    rw [cells j h]
    have six : j < 6 := h
    rcases j with _ | _ | _ | _ | _ | _ | j
    all_goals rfl
  rw [published, values]
  rfl

/-- An array of `2^32` zeros. -/
def manyCells : NDArray := ⟨.uint8, [⟨4294967296, 0, 1⟩], 4294967296, Vector.replicate 4294967296 0, by decide⟩

/-- A mask that lets nothing pass applies to every cell of it, but all of them keep their value. -/
theorem mask_pipeline_truncated : ∃ s' mem',
    (withMasks [rectangle 0 0 0 0 7 1]).processCallbacks (.alone 1) (fun _ => manyCells) 0 = some (s', mem') ∧
      mem' 1 = manyCells ∧ ∀ j (h : j < manyCells.size),
        Applies (rectangle 0 0 0 0 7 1) manyCells.dims j ∧ manyCells.pData[j] = (0 : UInt8) := by
  refine ⟨_, _, rfl, rfl, ?_⟩
  intro j h
  have outside : ¬ InRectangle (rectangle 0 0 0 0 7 1) manyCells.dims j := by
    rintro ⟨first, last⟩
    have empty : clampPos (2 ^ 32) 0 + clampSize (2 ^ 32) 0 0 = 0 := by decide
    have negative : (j : Int) < clampPos (2 ^ 32) 0 + clampSize (2 ^ 32) 0 0 := last
    omega
  exact ⟨⟨by decide, .inr ⟨rfl, outside⟩⟩, Vector.getElem_replicate h⟩

end NDPluginMask

end ADnED
