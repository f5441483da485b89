import ADnED.Plugins.MaskRuns
import ADnED.Lib.Runs

/-!
# The masks that are written back

`processCallbacks` writes the clipped positions and sizes back to the parameters (`ADnEDPluginMask.cpp:231-236`), where
the next array finds them. The plugin is compared here with one that does not write back, so that its parameters
are only what has been asked for. The two pass on the same arrays, whatever is written to the other parameters
meanwhile, as long as the arrays are of one kind and no mask is moved: what has been clipped once is not changed by
clipping it again.
-/

namespace ADnED

open SizeT (ofInt toInt)
open Stores (forLoop forLoop_rel)
open Runs (run run_rel rel_mono map_eq_of_rel)

namespace NDPluginMask

/-! ## Clipping twice -/

theorem clipPos_clipPos {extent : UInt32} (pos : Int32) :
    clipPos extent (toInt (clipPos extent pos)) = clipPos extent pos := by
  have bound : (extent - 1).toUInt64.toNat < 2 ^ 32 := by
    rw [UInt32.toNat_toUInt64]
    exact (extent - 1).toNat_lt
  simp only [clipPos, SizeT.maxOf_zero]
  exact SizeT.minOf_ofInt_toInt bound pos

theorem clipSize_clipSize {extent : UInt32} (nonempty : 1 ≤ extent.toNat) (pos size : Int32) :
    clipSize extent (clipPos extent pos) (toInt (clipSize extent (clipPos extent pos) size)) =
      clipSize extent (clipPos extent pos) size := by
  have bound : (extent.toUInt64 - clipPos extent pos).toNat < 2 ^ 32 := by
    have inside := clipPos_lt nonempty pos
    have extentBound := extent.toNat_lt
    rw [UInt64.toNat_sub_of_le _ _ (UInt64.le_iff_toNat_le.2 (by simpa using Nat.le_of_lt inside)),
      UInt32.toNat_toUInt64]
    omega
  simp only [clipSize, SizeT.maxOf_zero]
  exact SizeT.minOf_ofInt_toInt bound size

/-- What the loop over the masks looks at. -/
structure View where
  maxMasks : Int32
  arrayInfo : NDArrayInfo
  xArrayMax : UInt32
  yArrayMax : UInt32
  use : Nat → Int32
  masks : Nat → NDMask

def view (s : NDPluginMask) (ndims : Nat) : View where
  maxMasks := s.maxMasks
  arrayInfo := s.arrayInfo
  xArrayMax := s.xArrayMax
  yArrayMax := s.yArrayMax
  use mask := s.int mask .use
  masks := s.readMask ndims

/-- There are cells in every direction in which masks are clipped. -/
structure HasCells (s : NDPluginMask) (ndims : Nat) : Prop where
  x : 1 ≤ s.xArrayMax.toNat
  y : 1 < ndims → 1 ≤ s.yArrayMax.toNat

section Fetch

variable {s : NDPluginMask} {ndims : Nat}

theorem fetch_cell (mask : Nat) :
    (s.fetch ndims mask).int mask .val = s.int mask .val ∧ (s.fetch ndims mask).int mask .type = s.int mask .type := by
  simp only [fetch, writeBack]
  split <;> simp

theorem fetch_use (mask other : Nat) : (s.fetch ndims mask).int other .use = s.int other .use := by
  simp only [fetch, writeBack]
  split <;> simp

theorem readMask_fetch_other {mask other : Nat} (ne : other ≠ mask) :
    (s.fetch ndims mask).readMask ndims other = s.readMask ndims other := by
  have params : ∀ p, (s.fetch ndims mask).int other p = s.int other p := by
    intro p
    simp only [fetch, writeBack]
    split <;> simp [ne]
  have stored : (s.fetch ndims mask).pMasks other = s.pMasks other := Function.update_of_ne ne ..
  simp only [readMask, params, stored]
  rfl

/-- A mask that has been written back is read as it was. -/
theorem readMask_fetch_same (cells : s.HasCells ndims) (mask : Nat) :
    (s.fetch ndims mask).readMask ndims mask = s.readMask ndims mask := by
  have stored : (s.fetch ndims mask).pMasks mask = s.readMask ndims mask := Function.update_self ..
  have xMax : (s.fetch ndims mask).xArrayMax = s.xArrayMax := rfl
  have yMax : (s.fetch ndims mask).yArrayMax = s.yArrayMax := rfl
  obtain ⟨posX, sizeX⟩ := @fetch_x s ndims mask
  obtain ⟨val, type⟩ := @fetch_cell s ndims mask
  by_cases two : 1 < ndims
  · obtain ⟨posY, sizeY⟩ := @fetch_y s ndims two mask
    rw [readMask, posX, sizeX, posY, sizeY, val, type, xMax, yMax]
    simp only [readMask, if_pos two, clipPos_clipPos, clipSize_clipSize cells.x, clipSize_clipSize (cells.y two)]
  · -- the Y fields are those in `pMasks`, which have been read from there
    rw [readMask, posX, sizeX, val, type, xMax, stored]
    simp only [readMask, if_neg two, clipPos_clipPos, clipSize_clipSize cells.x]

theorem view_fetch (cells : s.HasCells ndims) (mask : Nat) : (s.fetch ndims mask).view ndims = s.view ndims := by
  have masks : (s.fetch ndims mask).readMask ndims = s.readMask ndims := by
    funext other
    by_cases same : other = mask
    · rw [same]
      exact readMask_fetch_same cells mask
    · exact readMask_fetch_other same
  simp only [view, fetch_use, masks]
  rfl

end Fetch

/-! ## A plugin that does not write back -/

/-- `fetch` without the write-back. -/
def keep (s : NDPluginMask) (ndims mask : Nat) : NDPluginMask :=
  { s with pMasks := Function.update s.pMasks mask (s.readMask ndims mask) }

/-- `turn` without the write-back. -/
def plainTurn (env : MaskEnv) (ndims pOutput mask : Nat) (r : NDPluginMask × Arrays) : Option (NDPluginMask × Arrays) :=
  let s := r.1
  if s.int mask .use = 0 then some r
  else
    let s := s.keep ndims mask
    (s.doMask r.2 pOutput (s.pMasks mask)).map fun done => ({ s with int := env.others mask s.int }, done.1)

/-- `processCallbacks` without the write-back. -/
def plainCallbacks (s : NDPluginMask) (env : MaskEnv) (mem : Arrays) (pArray : Nat) : Option (NDPluginMask × Arrays) :=
  match env.copy with
  | none => none
  | some pOutput =>
    let a := mem pArray
    forLoop 0 s.maxMasks.toInt.toNat (plainTurn env a.ndims pOutput)
      (s.setUp pOutput (env.getInfo a), Function.update mem pOutput a)

theorem view_keep {s : NDPluginMask} {ndims : Nat} (mask : Nat) : (s.keep ndims mask).view ndims = s.view ndims := by
  have masks : (s.keep ndims mask).readMask ndims = s.readMask ndims := by
    funext other
    by_cases same : other = mask
    · have stored : (s.keep ndims mask).pMasks other = s.readMask ndims other := by
        rw [same]
        exact Function.update_self ..
      rw [readMask, stored]
      by_cases two : 1 < ndims <;> simp only [readMask, keep, two, if_true, if_false]
    · have stored : (s.keep ndims mask).pMasks other = s.pMasks other := Function.update_of_ne same ..
      rw [readMask, stored]
      rfl
  simp only [view, masks]
  rfl

end NDPluginMask

/-! ## What is written to the parameters -/

/-- A write to a parameter of a mask. -/
structure MaskPut where
  mask : Nat
  param : MaskParam
  value : Int32

namespace MaskPut

/-- The mask is not moved. -/
def Stays (q : MaskPut) : Prop := q.param ≠ .posX ∧ q.param ≠ .posY

instance (q : MaskPut) : Decidable q.Stays := inferInstanceAs (Decidable (_ ∧ _))

def write (int : Store MaskParam Int32) (q : MaskPut) : Store MaskParam Int32 := int.set q.mask q.param q.value

end MaskPut

namespace NDPluginMask

def puts (s : NDPluginMask) (qs : List MaskPut) : NDPluginMask := { s with int := qs.foldl MaskPut.write s.int }

/-- What a write that leaves the position makes of a mask. -/
def View.put (v : View) (ndims : Nat) (m : NDMask) : MaskParam → Int32 → NDMask
  | .sizeX, value => { m with sizeX := clipSize v.xArrayMax m.posX value }
  | .sizeY, value => if 1 < ndims then { m with sizeY := clipSize v.yArrayMax m.posY value } else m
  | .val, value => { m with maskVal := ofInt value }
  | .type, value => { m with maskType := ofInt value }
  | _, _ => m

section Puts

variable {s t : NDPluginMask} {ndims : Nat}

theorem readMask_put {q : MaskPut} (stays : q.Stays) (mask : Nat) :
    (s.puts [q]).readMask ndims mask =
      if mask = q.mask then (s.view ndims).put ndims (s.readMask ndims mask) q.param q.value
      else s.readMask ndims mask := by
  obtain ⟨target, param, value⟩ := q
  by_cases here : mask = target
  · subst here
    rw [if_pos rfl]
    cases param with
    | posX => exact absurd rfl stays.1
    | posY => exact absurd rfl stays.2
    | sizeY => by_cases two : 1 < ndims <;> simp [readMask, puts, MaskPut.write, View.put, view, two]
    | use | maxSizeX | maxSizeY | sizeX | val | type => simp [readMask, puts, MaskPut.write, View.put, view]
  · rw [if_neg here]
    simp [readMask, puts, MaskPut.write, here]

theorem view_put {q : MaskPut} (stays : q.Stays) (same : s.view ndims = t.view ndims) :
    (s.puts [q]).view ndims = (t.puts [q]).view ndims := by
  have use : ∀ mask, s.int mask .use = t.int mask .use := congrFun (congrArg View.use same)
  have uses : (fun mask => (s.puts [q]).int mask .use) = fun mask => (t.puts [q]).int mask .use := by
    funext mask
    simp only [puts, List.foldl_cons, List.foldl_nil, MaskPut.write, Store.set_apply, use]
  have masks : (s.puts [q]).readMask ndims = (t.puts [q]).readMask ndims := by
    funext mask
    have read : s.readMask ndims mask = t.readMask ndims mask := congrFun (congrArg View.masks same) mask
    rw [readMask_put stays, readMask_put stays, read, same]
  calc (s.puts [q]).view ndims
      = { s.view ndims with use := fun mask => (s.puts [q]).int mask .use, masks := (s.puts [q]).readMask ndims } := rfl
    _ = { t.view ndims with use := fun mask => (t.puts [q]).int mask .use, masks := (t.puts [q]).readMask ndims } := by
      rw [same, uses, masks]
    _ = (t.puts [q]).view ndims := rfl

theorem view_puts {qs : List MaskPut} (stay : ∀ q ∈ qs, q.Stays) (same : s.view ndims = t.view ndims) :
    (s.puts qs).view ndims = (t.puts qs).view ndims := by
  induction qs generalizing s t with
  | nil => exact same
  | cons q qs ih =>
    exact ih (fun q' later => stay q' (by simp [later])) (view_put (stay q (by simp)) same)

end Puts

end NDPluginMask

/-! ## One array -/

/-- No direction in which masks are clipped is empty, also after the cast of its size to `int`. -/
structure NDArrayInfo.Solid (info : NDArrayInfo) (ndims : Nat) : Prop where
  x : 0 < info.xSize.toNat % 2 ^ 32
  y : 1 < ndims → 0 < info.ySize.toNat % 2 ^ 32

/-- The environment of a callback during which parameters are written while the masks are applied. -/
def MaskEnv.during (getInfo : NDArray → NDArrayInfo) (copy : Option Nat) (meanwhile : Nat → List MaskPut) : MaskEnv :=
  ⟨getInfo, copy, fun mask int => (meanwhile mask).foldl MaskPut.write int⟩

namespace NDPluginMask

/-- The plugin has been set up for arrays of this kind. -/
structure SetFor (s : NDPluginMask) (info : NDArrayInfo) : Prop where
  kind : s.arrayInfo = info
  xMax : s.xArrayMax = (toInt info.xSize).toUInt32
  yMax : s.yArrayMax = (toInt info.ySize).toUInt32

/-- What the loop looks at when an array of this kind comes. -/
def viewOf (s : NDPluginMask) (info : NDArrayInfo) (ndims : Nat) : View := (s.setUp 0 info).view ndims

section Loop

variable {s t : NDPluginMask} {ndims : Nat} {info : NDArrayInfo} {getInfo : NDArray → NDArrayInfo}

theorem setUp_setFor (pOutput : Nat) : (s.setUp pOutput info).SetFor info := ⟨rfl, rfl, rfl⟩

theorem SetFor.hasCells (set : s.SetFor info) (solid : info.Solid ndims) : s.HasCells ndims := by
  have extent : ∀ x : UInt64, (toInt x).toUInt32.toNat = x.toNat % 2 ^ 32 := UInt64.toNat_toUInt32
  constructor
  · rw [set.xMax, extent]
    exact solid.x
  · rw [set.yMax, extent]
    exact solid.y

theorem doMask_congr (same : s.view ndims = t.view ndims) (mem : Arrays) (pOutput : Nat) (m : NDMask) :
    s.doMask mem pOutput m = t.doMask mem pOutput m := by
  have info : s.arrayInfo = t.arrayInfo := congrArg View.arrayInfo same
  have xMax : s.xArrayMax = t.xArrayMax := congrArg View.xArrayMax same
  have yMax : s.yArrayMax = t.yArrayMax := congrArg View.yArrayMax same
  simp only [doMask, maskArray, doMaskT, info, xMax, yMax]

/-- In the loop over the masks: the two plugins look at the same, and the arrays are the same. -/
structure InStep (info : NDArrayInfo) (ndims : Nat) (r r' : NDPluginMask × Arrays) : Prop where
  set : r.1.SetFor info
  view : r.1.view ndims = r'.1.view ndims
  arrays : r.2 = r'.2

theorem turn_inStep (solid : info.Solid ndims) {copy : Option Nat} {meanwhile : Nat → List MaskPut}
    (stay : ∀ mask, ∀ q ∈ meanwhile mask, q.Stays) (pOutput mask : Nat) {r r' : NDPluginMask × Arrays}
    (inStep : InStep info ndims r r') :
    Option.Rel (InStep info ndims) (turn (.during getInfo copy meanwhile) ndims pOutput mask r)
      (plainTurn (.during getInfo copy meanwhile) ndims pOutput mask r') := by
  obtain ⟨s, mem⟩ := r
  obtain ⟨t, mem'⟩ := r'
  obtain ⟨set, same, arrays⟩ := inStep
  obtain rfl : mem = mem' := arrays
  have same : s.view ndims = t.view ndims := same
  have use : s.int mask .use = t.int mask .use := congrFun (congrArg View.use same) mask
  by_cases unused : t.int mask .use = 0
  · simp only [turn, plainTurn, use, if_pos unused]
    exact .some ⟨set, same, rfl⟩
  · have fetched : (s.fetch ndims mask).view ndims = (t.keep ndims mask).view ndims :=
      (view_fetch (set.hasCells solid) mask).trans (same.trans (view_keep mask).symm)
    have read : (s.fetch ndims mask).pMasks mask = (t.keep ndims mask).pMasks mask := by
      have masks : s.readMask ndims mask = t.readMask ndims mask := congrFun (congrArg View.masks same) mask
      simp only [fetch, keep, Function.update_self, masks]
    have applied := doMask_congr fetched mem pOutput ((t.keep ndims mask).pMasks mask)
    simp only [turn, plainTurn, use, if_neg unused, read, applied]
    cases (t.keep ndims mask).doMask mem pOutput ((t.keep ndims mask).pMasks mask) with
    | none => exact .none
    | some done => exact .some ⟨⟨set.kind, set.xMax, set.yMax⟩, view_puts (stay mask) fetched, rfl⟩

/-- Setting up for the same kind of array again changes nothing the loop looks at. -/
theorem SetFor.viewOf_eq (set : s.SetFor info) : s.viewOf info ndims = s.view ndims := by
  have masks : (s.setUp 0 info).readMask ndims = s.readMask ndims := by
    funext mask
    simp [readMask, setUp, set.xMax, set.yMax]
  simp only [viewOf, view, masks]
  simp [setUp, set.kind, set.xMax, set.yMax]

/-- The sizes of the array are not among the parameters the loop looks at. -/
theorem view_params {int : Store MaskParam Int32}
    (same : ∀ mask p, p ≠ .maxSizeX → p ≠ .maxSizeY → int mask p = s.int mask p) :
    ({ s with int := int } : NDPluginMask).view ndims = s.view ndims := by
  have masks : ({ s with int := int } : NDPluginMask).readMask ndims = s.readMask ndims := by
    funext mask
    simp [readMask, same]
  simp only [view, masks]
  simp [same]

theorem viewOf_put (q : MaskPut) : (s.puts [q]).viewOf info ndims = ((s.setUp 0 info).puts [q]).view ndims := by
  refine view_params (s := (s.setUp 0 info).puts [q]) ?_
  intro mask p notX notY
  simp [setUp, puts, MaskPut.write, Store.set_apply, notX, notY]

end Loop

end NDPluginMask

/-! ## Array after array -/

/-- What happens to the plugin: somebody writes a parameter, or an array comes. The array comes with its address and
that of the copy, and with what is written while the masks are applied. -/
inductive MaskEvent where
  | put (q : MaskPut)
  | array (pArray : Nat) (a : NDArray) (copy : Option Nat) (meanwhile : Nat → List MaskPut)

/-- The arrays are of one kind, and no mask is moved. -/
def MaskEvent.Steady (getInfo : NDArray → NDArrayInfo) (info : NDArrayInfo) (ndims : Nat) : MaskEvent → Prop
  | .put q => q.Stays
  | .array _ a _ meanwhile => getInfo a = info ∧ a.ndims = ndims ∧ ∀ mask, ∀ q ∈ meanwhile mask, q.Stays

namespace NDPluginMask

def step (getInfo : NDArray → NDArrayInfo) (r : NDPluginMask × Arrays) : MaskEvent → Option (NDPluginMask × Arrays)
  | .put q => some (r.1.puts [q], r.2)
  | .array pArray a copy meanwhile =>
    r.1.processCallbacks (.during getInfo copy meanwhile) (Function.update r.2 pArray a) pArray

/-- `step` without the write-back. -/
def plainStep (getInfo : NDArray → NDArrayInfo) (r : NDPluginMask × Arrays) : MaskEvent → Option (NDPluginMask × Arrays)
  | .put q => some (r.1.puts [q], r.2)
  | .array pArray a copy meanwhile =>
    r.1.plainCallbacks (.during getInfo copy meanwhile) (Function.update r.2 pArray a) pArray

/-- Between the events: the two plugins would look at the same if an array of this kind came. -/
structure Alike (info : NDArrayInfo) (ndims : Nat) (r r' : NDPluginMask × Arrays) : Prop where
  view : r.1.viewOf info ndims = r'.1.viewOf info ndims
  arrays : r.2 = r'.2

section Events

variable {ndims : Nat} {info : NDArrayInfo} {getInfo : NDArray → NDArrayInfo}

theorem InStep.alike {r r' : NDPluginMask × Arrays} (inStep : InStep info ndims r r') : Alike info ndims r r' := by
  have set : r'.1.SetFor info := by
    obtain ⟨kind, xMax, yMax⟩ := inStep.set
    have same := inStep.view.symm
    exact ⟨(congrArg View.arrayInfo same).trans kind, (congrArg View.xArrayMax same).trans xMax,
      (congrArg View.yArrayMax same).trans yMax⟩
  exact ⟨inStep.set.viewOf_eq.trans (inStep.view.trans set.viewOf_eq.symm), inStep.arrays⟩

theorem step_alike (solid : info.Solid ndims) {r r' : NDPluginMask × Arrays} {e : MaskEvent}
    (steady : e.Steady getInfo info ndims) (alike : Alike info ndims r r') :
    Option.Rel (Alike info ndims) (step getInfo r e) (plainStep getInfo r' e) := by
  obtain ⟨s, mem⟩ := r
  obtain ⟨t, mem'⟩ := r'
  obtain ⟨same, arrays⟩ := alike
  obtain rfl : mem = mem' := arrays
  have same : s.viewOf info ndims = t.viewOf info ndims := same
  cases e with
  | put q =>
    have after : (s.puts [q]).viewOf info ndims = (t.puts [q]).viewOf info ndims := by
      rw [viewOf_put, viewOf_put]
      exact view_put steady same
    exact .some ⟨after, rfl⟩
  | array pArray a copy meanwhile =>
    obtain ⟨kind, shape, stay⟩ := steady
    have maxMasks : s.maxMasks = t.maxMasks := congrArg View.maxMasks same
    cases copy with
    | none => exact .none
    | some pOutput =>
      simp only [step, plainStep, processCallbacks, plainCallbacks, MaskEnv.during, Function.update_self, kind, shape,
        maxMasks]
      refine rel_mono (forLoop_rel (R := InStep info ndims) ?_ ⟨setUp_setFor pOutput, same, rfl⟩) ?_
      · exact fun mask _ _ => turn_inStep solid stay pOutput mask
      · exact fun _ _ => InStep.alike

/-- As long as the arrays are of one kind and no mask is moved, the write-back does not show in the arrays that are
passed on. -/
theorem writeBack_transparent (s : NDPluginMask) (mem : Arrays) (solid : info.Solid ndims) {es : List MaskEvent}
    (steady : ∀ e ∈ es, e.Steady getInfo info ndims) :
    (run (step getInfo) (s, mem) es).map Prod.snd = (run (plainStep getInfo) (s, mem) es).map Prod.snd := by
  have both := run_rel (fun _ _ _ => step_alike solid) steady (⟨rfl, rfl⟩ : Alike info ndims (s, mem) (s, mem))
  exact map_eq_of_rel both fun _ _ alike => alike.arrays

end Events

/-- A mask at the position -1, of which the plugin makes the last column. It is made wider after the first array,
and gets another value while it is applied to the second. -/
def lastColumn : List MaskEvent :=
  [.array 0 sixCells (some 1) fun _ => [], .put ⟨0, .sizeX, 5⟩, .array 0 sixCells (some 2) fun _ => [⟨0, .val, 7⟩]]

theorem writeBack_transparent_lastColumn :
    (run (step NDArray.info) (withMasks [rectangle (-1) 2 0 2 9 0], fun _ => sixCells) lastColumn).map
        (fun r => r.1.int 0 .posX) = some 2 ∧
      (run (plainStep NDArray.info) (withMasks [rectangle (-1) 2 0 2 9 0], fun _ => sixCells) lastColumn).map
        (fun r => r.1.int 0 .posX) = some (-1) ∧
      (run (step NDArray.info) (withMasks [rectangle (-1) 2 0 2 9 0], fun _ => sixCells) lastColumn).map Prod.snd =
        (run (plainStep NDArray.info) (withMasks [rectangle (-1) 2 0 2 9 0], fun _ => sixCells) lastColumn).map
          Prod.snd := by
  refine ⟨by decide, by decide, ?_⟩
  refine @writeBack_transparent 2 sixCells.info NDArray.info _ _ ⟨by decide, by decide⟩ _ ?_
  intro e he
  simp only [lastColumn, List.mem_cons, List.not_mem_nil, or_false] at he
  rcases he with rfl | rfl | rfl
  · exact ⟨rfl, rfl, fun _ q none => absurd none List.not_mem_nil⟩
  · exact ⟨by decide, by decide⟩
  · refine ⟨rfl, rfl, fun _ q one => ?_⟩
    rw [List.mem_singleton.1 one]
    decide

-- A mask that is moved has lost what was cut off at its old place: of two columns at the end, one is left.
example :
    let moved := [.array 0 sixCells (some 1) fun _ => [], .put ⟨0, .posX, 0⟩]
    let widthOf := fun r : NDPluginMask × Arrays => ((r.1.viewOf sixCells.info 2).masks 0).sizeX
    (run (step NDArray.info) (withMasks [rectangle 2 2 0 2 9 0], fun _ => sixCells) moved).map widthOf = some 1 ∧
      (run (plainStep NDArray.info) (withMasks [rectangle 2 2 0 2 9 0], fun _ => sixCells) moved).map widthOf = some 2 := by
  decide

end NDPluginMask

end ADnED
