import ADnED.Driver.FileData
import ADnED.Driver.Freshness

/-!
# What `writeOctet` and `writeFloat64` can change

`Loaded d d'` is the frame of the two: the integer parameters, the layout and everything
that is measured stay as they are. A pixel map file touches the map of its detector only,
and whatever it contains, the map that is installed has the recorded size
(`loadPixelMap_mapOnly`).
-/

namespace ADnED

/-- `d'` is `d` after some strings and floating-point values have been written. -/
structure Loaded (d d' : Driver) : Prop where
  eq : d' = { d with
    dbl := d'.dbl, str := d'.str, transform := d'.transform, pixelMap := d'.pixelMap
    pixelMapSize := d'.pixelMapSize }

namespace Loaded

variable {d d' d'' : Driver}

theorem refl (d : Driver) : Loaded d d := ⟨rfl⟩

theorem trans (h : Loaded d d') (h' : Loaded d' d'') : Loaded d d'' := by
  constructor
  rw [h'.eq, h.eq]

theorem int (h : Loaded d d') : d'.int = d.int := by rw [h.eq]

theorem sameLayout (h : Loaded d d') : SameLayout d d' := by
  rw [h.eq]
  exact ⟨fun _ _ _ => rfl, rfl, rfl, rfl, rfl, rfl⟩

end Loaded

namespace Driver

theorem writeFloat64_loaded {d : Driver} {addr : Nat} {p : DblParam} {value : ℚ} {r : Driver × AsynStatus}
    (h : d.writeFloat64 addr p value = some r) :
    Loaded d r.1 ∧ r.1.pixelMap = d.pixelMap ∧ r.1.pixelMapSize = d.pixelMapSize := by
  simp only [writeFloat64] at h
  split at h
  · cases h
    exact ⟨.refl d, rfl, rfl⟩
  · split at h
    · split at h
      · cases h
      · split at h <;> cases h <;> exact ⟨⟨rfl⟩, rfl, rfl⟩
    · cases h
      exact ⟨⟨rfl⟩, rfl, rfl⟩

/-- `d'` is `d` up to the map of `addr`. -/
structure MapOnly (d : Driver) (addr : Nat) (d' : Driver) : Prop where
  loaded : Loaded d d'
  map : ∀ det, det ≠ addr → d'.pixelMap det = d.pixelMap det
  size : ∀ det, det ≠ addr → d'.pixelMapSize det = d.pixelMapSize det

namespace MapOnly

variable {d d' : Driver} {addr : Nat}

theorem refl (d : Driver) (addr : Nat) : MapOnly d addr d := ⟨.refl d, fun _ _ => rfl, fun _ _ => rfl⟩

theorem setMap (h : MapOnly d addr d') (map : Option (List UInt32)) : MapOnly d addr (d'.setMap addr map) where
  loaded := h.loaded.trans ⟨rfl⟩
  map := by
    intro det other
    simp [Driver.setMap, other, h.map]
  size := h.size

theorem setMapSize (h : MapOnly d addr d') (size : UInt32) : MapOnly d addr (d'.setMapSize addr size) where
  loaded := h.loaded.trans ⟨rfl⟩
  map := h.map
  size := by
    intro det other
    simp [Driver.setMapSize, other, h.size]

end MapOnly

/-- The map of `det` has the recorded size. -/
def MapSized (d : Driver) (det : Nat) : Prop := ∀ m, d.pixelMap det = some m → m.length = (d.pixelMapSize det).toNat

theorem freeMap_mapOnly (d : Driver) (addr : Nat) : MapOnly d addr (d.freeMap addr) := by
  simp only [freeMap]
  split
  · exact ((MapOnly.refl d addr).setMap none).setMapSize 0
  · exact .refl d addr

theorem putMap_mapOnly (d : Driver) (addr : Nat) (f : FileData UInt32) : MapOnly d addr (d.putMap addr f).1 := by
  have freed := freeMap_mapOnly d addr
  rcases f.cases with missing | ⟨sized, m, read⟩
  · by_cases size : f.size = 0
    · rw [putMap, if_pos size]
      cases f.read with
      | error e => exact freed.setMap none
      | ok m => exact freed
    · obtain ⟨e, error⟩ := missing.resolve_left size
      rw [putMap, if_neg size, error]
      exact (freed.setMapSize f.size).setMap none
  · rw [putMap_ok sized read]
    split
    · exact ((freed.setMapSize f.size).setMap none).setMapSize 0
    · exact (freed.setMapSize f.size).setMap (some m)

/-- A map that is there afterwards has been read, and its size is recorded. -/
theorem putMap_installed {d : Driver} {addr : Nat} {f : FileData UInt32} {m : List UInt32}
    (installed : (d.putMap addr f).1.pixelMap addr = some m) :
    f.size ≠ 0 ∧ f.read = .ok m ∧ (d.putMap addr f).1.pixelMapSize addr = f.size := by
  rcases f.cases with missing | ⟨sized, m', read⟩
  · rw [(putMap_none missing).1] at installed
    cases installed
  · rw [putMap_ok sized read] at installed ⊢
    split at installed
    · simp [setMap, setMapSize] at installed
    · rename_i small
      rw [if_neg small]
      simp only [setMap, Function.update_self, Option.some.injEq] at installed
      subst installed
      exact ⟨sized, read, by simp [setMap, setMapSize]⟩

/-- **A pixel map file.** Whatever it contains, the other maps stay, and there is no map
afterwards or one of the recorded size. -/
theorem loadPixelMap_mapOnly {env : FileEnv} {erange : Bool} {d : Driver} {addr : Nat} {value : String}
    {r : Bool × Driver × AsynStatus} (h : d.loadPixelMap env erange addr value = some r) :
    MapOnly d addr r.2.1 ∧ r.2.1.MapSized addr := by
  rw [loadPixelMap_eq] at h
  obtain ⟨f, data, rfl⟩ := Option.map_eq_some_iff.1 h
  refine ⟨putMap_mapOnly d addr f, fun m installed => ?_⟩
  obtain ⟨-, read, size⟩ := putMap_installed installed
  rw [size, ADnEDFile.data_length data read]

theorem loadTransform_loaded {env : FileEnv} {erange : Bool} {d : Driver} {addr index : Nat} {value : String}
    {r : Bool × Driver × AsynStatus} (h : d.loadTransform env erange addr index value = some r) :
    ∃ transform, r.2.1 = { d with transform := transform } := by
  rw [loadTransform_eq] at h
  obtain ⟨f, -, h⟩ := Option.bind_eq_some_iff.1 h
  obtain ⟨q, put, rfl⟩ := Option.map_eq_some_iff.1 h
  simp only [putTable] at put
  split at put
  · cases put
    exact ⟨_, rfl⟩
  · split_ifs at put
    · cases put
      exact ⟨_, rfl⟩
    · obtain ⟨t, -, rfl⟩ := Option.map_eq_some_iff.1 put
      exact ⟨_, rfl⟩

/-- The maps after a write are those before it, unless it loads one. -/
def MapsAfter (env : FileEnv) (erange : Bool) (d : Driver) (addr : Nat) (p : StrParam) (value : String)
    (d' : Driver) : Prop :=
  (d'.pixelMap = d.pixelMap ∧ d'.pixelMapSize = d.pixelMapSize) ∨
    p = .pixelMapFile ∧ ∃ q, d.loadPixelMap env erange addr value = some q ∧
      d'.pixelMap = q.2.1.pixelMap ∧ d'.pixelMapSize = q.2.1.pixelMapSize

theorem writeOctet_loaded {env : FileEnv} {erange : Bool} {d : Driver} {addr : Nat} {p : StrParam} {value : String}
    {r : Bool × Driver × AsynStatus} (h : d.writeOctet env erange addr p value = some r) :
    Loaded d r.2.1 ∧ MapsAfter env erange d addr p value r.2.1 := by
  -- the string that is stored at the end changes nothing else
  have stored : ∀ {q : Bool × Driver × AsynStatus}, Loaded d q.2.1 ∧ MapsAfter env erange d addr p value q.2.1 →
      Loaded d (storeStr addr p value q).2.1 ∧ MapsAfter env erange d addr p value (storeStr addr p value q).2.1 := by
    rintro q ⟨loaded, maps⟩
    unfold storeStr
    cases q.2.2 with
    | error => exact ⟨loaded, maps⟩
    | success => exact ⟨loaded.trans ⟨rfl⟩, maps⟩
  simp only [writeOctet] at h
  split at h
  · cases h
    exact ⟨.refl d, .inl ⟨rfl, rfl⟩⟩
  · obtain ⟨q, load, rfl⟩ := Option.map_eq_some_iff.1 h
    refine stored ?_
    cases p with
    | tofTransFile index =>
      obtain ⟨transform, same⟩ := loadTransform_loaded load
      rw [same]
      exact ⟨⟨rfl⟩, .inl ⟨rfl, rfl⟩⟩
    | pixelMapFile => exact ⟨(loadPixelMap_mapOnly load).1.loaded, .inr ⟨rfl, q, load, rfl, rfl⟩⟩
    | adStatusMessage | pvName =>
      cases load
      exact ⟨.refl d, .inl ⟨rfl, rfl⟩⟩

end Driver

end ADnED
