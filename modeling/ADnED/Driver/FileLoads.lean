import ADnED.Driver.FileFrame
import ADnED.Lib.Runs

/-!
# Failed loads and histories of loads

The range check is the only failure of a pixel map file that is reported, and every failure of a
transformation table is (`load_failure_iff`). What is read from a file depends on the loads before
it through `errno` only, and `errno` after a history only depends on its files (`run_errno`); so
two loads of a file from different histories can only differ if `errno` does (`load_independent`).
-/

namespace ADnED

/-! ## Failures -/

namespace Driver

open ADnEDFile (mapData tableData)

/-- The range check is the only error of a pixel map file. -/
theorem putMap_error_iff {d : Driver} {addr : Nat} {f : FileData UInt32} :
    (d.putMap addr f).2 = .error ↔
      f.size ≠ 0 ∧ ∃ m, f.read = .ok m ∧ ∃ x ∈ m, (d.int addr .pixelNumSize).toUInt32 < x := by
  constructor
  · intro error
    rcases f.cases with missing | ⟨sized, m, read⟩
    · cases error.symm.trans (putMap_none missing).2
    · rw [putMap_ok sized read] at error
      split at error
      · rename_i large
        exact ⟨sized, m, read, large⟩
      · cases error
  · rintro ⟨sized, m, read, large⟩
    rw [putMap_ok sized read, if_pos large]

section Failures

variable (env : FileEnv) (erange : Bool) (d : Driver) (addr : Nat) (p : StrParam) (value : String)

/-- The load of a file fails: it is not opened, sized and parsed, or it is a pixel map with an entry
that is not below the size of the detector. -/
def LoadFails : Prop :=
  match p with
  | .pixelMapFile => ¬ ∃ f m, mapData env erange value = some f ∧ f.read = .ok m ∧
      ∀ x ∈ m, x < (d.int addr .pixelNumSize).toUInt32
  | .tofTransFile _ => ¬ ∃ f table, tableData env erange value = some f ∧ f.read = .ok table
  | _ => False

/-- The driver notices: a pixel map is opened, sized and parsed, and has an entry above the size of
the detector; no line of a table that is read begins with a NUL byte. -/
def Notices : Prop :=
  match p with
  | .pixelMapFile => ∃ f m, mapData env erange value = some f ∧ f.read = .ok m ∧
      ∃ x ∈ m, (d.int addr .pixelNumSize).toUInt32 < x
  | .tofTransFile _ => tableData env erange value ≠ none
  | _ => True

/-- `writeOctet` returns `asynError`, the file name is kept, and there is no map or the tables are
those from before. -/
def Reports : Prop :=
  ∃ erange' d', d.writeOctet env erange addr p value = some (erange', d', .error) ∧ d'.str = d.str ∧
    match p with
    | .pixelMapFile => d'.pixelMap addr = none ∧ d'.pixelMapSize addr = 0
    | _ => d'.transform = d.transform

end Failures

section Reported

variable {env : FileEnv} {erange : Bool} {d : Driver} {addr : Nat} {value : String} (le : addr ≤ maxDets)
include le

theorem pixelMapFile_reports_iff :
    Reports env erange d addr .pixelMapFile value ↔ Notices env erange d addr .pixelMapFile value := by
  simp only [Reports, Notices, writeOctet_pixelMapFile env erange d value le]
  constructor
  · rintro ⟨erange', d', wrote, -, -, -⟩
    obtain ⟨f, read, stored⟩ := Option.map_eq_some_iff.1 wrote
    have status : (d.putMap addr f).2 = .error := by
      rw [← storeStr_status addr .pixelMapFile value (f.erange, d.putMap addr f), stored]
    obtain ⟨-, m, ok, large⟩ := putMap_error_iff.1 status
    exact ⟨f, m, read, ok, large⟩
  · rintro ⟨f, m, read, ok, large⟩
    have sized : f.size ≠ 0 := by
      intro zero
      have length := ADnEDFile.data_length read ok
      rw [zero] at length
      rw [List.length_eq_zero_iff.1 length] at large
      simp at large
    rw [read, Option.map_some, putMap_ok sized ok, if_pos large, storeStr_error]
    refine ⟨f.erange, _, rfl, ?_, ?_, ?_⟩
    · rw [setMapSize_str, setMap_str, setMapSize_str, freeMap_str]
    · simp [setMap, setMapSize]
    · simp [setMap, setMapSize]

theorem tofTransFile_reports_iff {index : Fin 6} (fails : LoadFails env erange d addr (.tofTransFile index) value) :
    Reports env erange d addr (.tofTransFile index) value ↔ Notices env erange d addr (.tofTransFile index) value := by
  simp only [Reports, Notices, writeOctet_tofTransFile env erange d value le]
  cases read : tableData env erange value with
  | none => simp
  | some f =>
    cases array : f.read with
    | error e => simp [putTable, array, storeStr]
    | ok table => exact absurd ⟨f, table, read, array⟩ fails

end Reported

/-- **Failed loads.** A load that fails is reported, and leaves the file name, the tables and no map of
the detector, exactly if the driver notices. -/
theorem load_failure_iff {env : FileEnv} {erange : Bool} {d : Driver} {addr : Nat} {p : StrParam} {value : String}
    (le : addr ≤ maxDets) (fails : LoadFails env erange d addr p value) :
    Reports env erange d addr p value ↔ Notices env erange d addr p value := by
  cases p with
  | pixelMapFile => exact pixelMapFile_reports_iff le
  | tofTransFile index => exact tofTransFile_reports_iff le fails
  | adStatusMessage | pvName => exact absurd fails id

/-- A file with these bytes, when memory can be allocated. `strtod` finds no number. -/
def fileOf (bytes : List UInt8) : FileEnv := ⟨.opened bytes, true, true, fun _ => none⟩

/-- A driver whose detector 1 has four pixels. -/
def fourPixels : Driver := withInts [(1, .pixelNumSize, 4)]

/-- A map with the entry 9, and a table whose only line is no number. -/
theorem load_failure_noticed :
    Reports (fileOf [49, 10, 57, 10]) false fourPixels 1 .pixelMapFile "map" ∧
      Reports (fileOf [49, 10, 120, 10]) false fourPixels 1 (.tofTransFile 0) "table" := by
  have map : mapData (fileOf [49, 10, 57, 10]) false "map" = some ⟨false, 1, .ok [9]⟩ := by rfl
  have table : tableData (fileOf [49, 10, 120, 10]) false "table" = some ⟨false, 1, .error .badLine⟩ := by rfl
  constructor
  · refine (load_failure_iff (by decide) ?_).2 ⟨_, _, map, rfl, 9, by simp, by decide⟩
    rintro ⟨f, m, read, ok, small⟩
    rw [map] at read
    cases read
    cases ok
    exact absurd (small 9 (by simp)) (by decide)
  · refine (load_failure_iff (by decide) ?_).2 (by rw [Notices, table]; simp)
    rintro ⟨f, t, read, ok⟩
    rw [table] at read
    cases read
    cases ok

/-- A pixel map whose first line is no number, one with a line that is none, and one with an entry that
is equal to the size: `asynSuccess`, and the name is stored. The second one leaves its size, and the third
one is installed. -/
theorem load_failure_unnoticed :
    (LoadFails (fileOf [120, 10]) false fourPixels 1 .pixelMapFile "map" ∧
        (writeOctet (fileOf [120, 10]) false fourPixels 1 .pixelMapFile "map").map
          (fun r => (r.2.2, r.2.1.str 1 .pixelMapFile)) = some (.success, "map")) ∧
      (LoadFails (fileOf [50, 10, 49, 10, 120, 10]) false fourPixels 1 .pixelMapFile "map" ∧
        (writeOctet (fileOf [50, 10, 49, 10, 120, 10]) false fourPixels 1 .pixelMapFile "map").map
          (fun r => (r.2.2, r.2.1.str 1 .pixelMapFile, r.2.1.pixelMap 1, r.2.1.pixelMapSize 1)) =
            some (.success, "map", none, 2)) ∧
      (LoadFails (fileOf [49, 10, 52, 10]) false fourPixels 1 .pixelMapFile "map" ∧
        (writeOctet (fileOf [49, 10, 52, 10]) false fourPixels 1 .pixelMapFile "map").map
          (fun r => (r.2.2, r.2.1.str 1 .pixelMapFile, r.2.1.pixelMap 1)) = some (.success, "map", some [4])) := by
  have noSize : mapData (fileOf [120, 10]) false "map" = some ⟨false, 0, .error .noSize⟩ := by rfl
  have badLine : mapData (fileOf [50, 10, 49, 10, 120, 10]) false "map" = some ⟨false, 2, .error .badLine⟩ := by rfl
  have equal : mapData (fileOf [49, 10, 52, 10]) false "map" = some ⟨false, 1, .ok [4]⟩ := by rfl
  refine ⟨⟨?_, by decide +kernel⟩, ⟨?_, by decide +kernel⟩, ⟨?_, by decide +kernel⟩⟩
  · rintro ⟨f, m, read, ok, -⟩
    rw [noSize] at read
    cases read
    cases ok
  · rintro ⟨f, m, read, ok, -⟩
    rw [badLine] at read
    cases read
    cases ok
  · rintro ⟨f, m, read, ok, small⟩
    rw [equal] at read
    cases read
    cases ok
    exact absurd (small 4 (by simp)) (by decide)

end Driver

/-! ## Histories -/

/-- A write of a file name. -/
structure Load where
  env : FileEnv
  addr : Nat
  param : StrParam
  value : String

namespace Load

open ADnEDFile (mapData tableData)

/-- The write, with whether `errno` is `ERANGE` in front of the driver. -/
def write (s : Bool × Driver) (l : Load) : Option (Bool × Driver × AsynStatus) :=
  s.2.writeOctet l.env s.1 l.addr l.param l.value

/-- One load of a history. -/
def step (s : Bool × Driver) (l : Load) : Option (Bool × Driver) := (write s l).map fun r => (r.1, r.2.1)

/-- Whether `errno` is `ERANGE` after a load: nothing of the driver goes into it. -/
def errno (erange : Bool) (l : Load) : Bool :=
  if maxDets < l.addr then erange
  else
    match l.param with
    | .pixelMapFile => ((mapData l.env erange l.value).map FileData.erange).getD erange
    | .tofTransFile _ => ((tableData l.env erange l.value).map FileData.erange).getD erange
    | _ => erange

/-- The two writes do the same with the file: they have the same status, and they leave the same map,
or they store the same table, or none. There are no maps above the last detector. -/
def Same (l : Load) (d₁ d₂ : Driver) (r₁ r₂ : Bool × Driver × AsynStatus) : Prop :=
  r₁.2.2 = r₂.2.2 ∧
    match l.param with
    | .pixelMapFile => l.addr ≤ maxDets → r₁.2.1.pixelMap l.addr = r₂.2.1.pixelMap l.addr
    | .tofTransFile index =>
      (r₁.2.1.transform = d₁.transform ∧ r₂.2.1.transform = d₂.transform) ∨
        ∃ array, (r₁.2.1.transform l.addr).array index = some array ∧
          (r₂.2.1.transform l.addr).array index = some array
    | _ => True

theorem write_errno {s : Bool × Driver} {l : Load} {r : Bool × Driver × AsynStatus} (h : write s l = some r) :
    r.1 = l.errno s.1 := by
  obtain ⟨env, addr, param, value⟩ := l
  by_cases le : addr ≤ maxDets
  · cases param with
    | pixelMapFile =>
      rw [write, Driver.writeOctet_pixelMapFile _ _ _ _ le] at h
      obtain ⟨f, read, rfl⟩ := Option.map_eq_some_iff.1 h
      simp [errno, Nat.not_lt.2 le, read]
    | tofTransFile index =>
      rw [write, Driver.writeOctet_tofTransFile _ _ _ _ le] at h
      obtain ⟨f, read, h⟩ := Option.bind_eq_some_iff.1 h
      obtain ⟨q, -, rfl⟩ := Option.map_eq_some_iff.1 h
      simp [errno, Nat.not_lt.2 le, read]
    | adStatusMessage | pvName =>
      simp only [write, Driver.writeOctet, if_neg (Nat.not_lt.2 le), Option.map_some, Option.some.injEq] at h
      rw [← h, Driver.storeStr_erange]
      simp [errno]
  · simp only [write, Driver.writeOctet, if_pos (Nat.lt_of_not_le le), Option.some.injEq] at h
    rw [← h]
    simp [errno, Nat.lt_of_not_le le]

/-- `errno` after a history. -/
theorem run_errno {s s' : Bool × Driver} {ls : List Load} (h : Runs.run step s ls = some s') :
    s'.1 = ls.foldl errno s.1 := by
  induction ls generalizing s with
  | nil =>
    cases h
    rfl
  | cons l ls ih =>
    obtain ⟨t, first, rest⟩ := Runs.run_cons_some h
    obtain ⟨r, wrote, rfl⟩ := Option.map_eq_some_iff.1 first
    rw [ih rest, List.foldl_cons, write_errno wrote]

/-- The map that a file leaves depends on the driver through the size of the detector only. -/
theorem putMap_same {d₁ d₂ : Driver} {addr : Nat}
    (size : d₁.int addr .pixelNumSize = d₂.int addr .pixelNumSize) (f : FileData UInt32) :
    (d₁.putMap addr f).2 = (d₂.putMap addr f).2 ∧
      (d₁.putMap addr f).1.pixelMap addr = (d₂.putMap addr f).1.pixelMap addr := by
  rcases f.cases with missing | ⟨sized, m, read⟩
  · have nothing : ∀ d : Driver, (d.putMap addr f).1.pixelMap addr = none ∧ (d.putMap addr f).2 = .success :=
      fun _ => Driver.putMap_none missing
    rw [(nothing d₁).1, (nothing d₁).2, (nothing d₂).1, (nothing d₂).2]
    exact ⟨rfl, rfl⟩
  · rw [Driver.putMap_ok sized read, Driver.putMap_ok sized read, size]
    split <;> simp [Driver.setMap, Driver.setMapSize]

/-- A table that is put into the driver does not depend on it. -/
theorem putTable_same (d₁ d₂ : Driver) (addr index : Nat) (copyOk : Bool) (f : FileData ℚ) :
    Option.Rel (fun r₁ r₂ => r₁.2 = r₂.2 ∧
        ((r₁.1.transform = d₁.transform ∧ r₂.1.transform = d₂.transform) ∨
          ∃ array, (r₁.1.transform addr).array index = some array ∧ (r₂.1.transform addr).array index = some array))
      (d₁.putTable addr index copyOk f) (d₂.putTable addr index copyOk f) := by
  simp only [Driver.putTable]
  cases f.read with
  | error e => exact .some ⟨rfl, .inl ⟨rfl, rfl⟩⟩
  | ok array =>
    simp only
    split_ifs
    · exact .some ⟨rfl, .inl ⟨rfl, rfl⟩⟩
    · exact .none
    · simp only [Transform.setDoubleArray]
      split_ifs
      · exact .some ⟨rfl, .inl ⟨Function.update_eq_self .., Function.update_eq_self ..⟩⟩
      · exact .some ⟨rfl, .inr ⟨array.take f.size.toNat, by simp, by simp⟩⟩
      · exact .none

/-- Two writes of a file from the same `errno` and for the same size of the detector. -/
theorem write_same {s₁ s₂ : Bool × Driver} (l : Load) (errno : s₁.1 = s₂.1)
    (size : s₁.2.int l.addr .pixelNumSize = s₂.2.int l.addr .pixelNumSize) :
    Option.Rel (l.Same s₁.2 s₂.2) (write s₁ l) (write s₂ l) := by
  obtain ⟨env, addr, param, value⟩ := l
  by_cases le : addr ≤ maxDets
  · cases param with
    | pixelMapFile =>
      simp only [write, Driver.writeOctet_pixelMapFile _ _ _ _ le, errno]
      cases mapData env s₂.1 value with
      | none => exact .none
      | some f =>
        have same := putMap_same size f
        exact .some (by simpa [Same, le] using same)
    | tofTransFile index =>
      simp only [write, Driver.writeOctet_tofTransFile _ _ _ _ le, errno]
      cases tableData env s₂.1 value with
      | none => exact .none
      | some f =>
        refine Runs.rel_map (putTable_same s₁.2 s₂.2 addr index env.copyOk f) fun r₁ r₂ _ _ same => ?_
        simpa [Same] using same
    | adStatusMessage | pvName =>
      simp only [write, Driver.writeOctet, if_neg (Nat.not_lt.2 le), Option.map_some]
      exact .some ⟨rfl, trivial⟩
  · simp only [write, Driver.writeOctet, if_pos (Nat.lt_of_not_le le)]
    refine .some ⟨rfl, ?_⟩
    cases param with
    | pixelMapFile => exact fun le' => absurd le' le
    | tofTransFile index => exact .inl ⟨rfl, rfl⟩
    | adStatusMessage | pvName => trivial

/-- Loads leave the integer parameters alone. -/
theorem run_int {s s' : Bool × Driver} {ls : List Load} (h : Runs.run step s ls = some s') : s'.2.int = s.2.int := by
  refine Runs.run_invariant (fun t => t.2.int = s.2.int) (fun t l t' same next => ?_) h rfl
  obtain ⟨r, wrote, rfl⟩ := Option.map_eq_some_iff.1 next
  exact (Driver.writeOctet_loaded wrote).1.int.trans same

/-- **Histories of loads.** If `errno` is not `ERANGE` after the loads before it, what becomes of a
file only depends on the file and on the size of the detector. -/
theorem load_independent {s₁ s₁' s₂ s₂' : Bool × Driver} {before₁ before₂ : List Load}
    (reached₁ : Runs.run step s₁ before₁ = some s₁') (reached₂ : Runs.run step s₂ before₂ = some s₂')
    (clear₁ : before₁.foldl errno s₁.1 = false) (clear₂ : before₂.foldl errno s₂.1 = false) (l : Load)
    (size : s₁.2.int l.addr .pixelNumSize = s₂.2.int l.addr .pixelNumSize) :
    Option.Rel (l.Same s₁'.2 s₂'.2) (write s₁' l) (write s₂' l) := by
  apply write_same
  · rw [run_errno reached₁, run_errno reached₂, clear₁, clear₂]
  · rw [run_int reached₁, run_int reached₂, size]

/-- A pixel map file for detector 1. -/
def mapFile (bytes : List UInt8) : Load := ⟨Driver.fileOf bytes, 1, .pixelMapFile, "map"⟩

/-- A file whose size does not fit into a `long`. -/
def tooLarge : Load := mapFile (List.replicate 20 57 ++ [10])

/-- A file that is not there. -/
def absent : Load := ⟨⟨.unreadable, true, true, fun _ => none⟩, 1, .pixelMapFile, "map"⟩

/-- The file with the lines `1` and `0`. -/
def oneEntry : Load := mapFile [49, 10, 48, 10]

/-- The failed `access` puts another value into `errno`. -/
theorem load_independent_absent :
    ∃ s, Runs.run step (false, Driver.fourPixels) [tooLarge, absent] = some s ∧
      ∃ r, write s oneEntry = some r ∧ r.2.1.pixelMap 1 = some [0] := by
  have reached : (Runs.run step (false, Driver.fourPixels) [tooLarge, absent]).isSome := by
    decide +kernel
  obtain ⟨s, reached⟩ := Option.isSome_iff_exists.1 reached
  have alone : (write (false, Driver.fourPixels) oneEntry).map (·.2.1.pixelMap 1) =
      some (some [0]) := by decide +kernel
  obtain ⟨r, wrote, map⟩ := Option.map_eq_some_iff.1 alone
  have same := load_independent reached
    (Runs.run_nil (false, Driver.fourPixels)) (by decide +kernel) rfl oneEntry rfl
  rw [wrote] at same
  cases written : write s oneEntry with
  | none =>
    rw [written] at same
    cases same
  | some r' =>
    rw [written] at same
    cases same with
    | some related => exact ⟨s, reached, r', written, (related.2 (by decide)).trans map⟩

/-- A number out of range makes the next file fail. -/
theorem load_depends :
    (write (false, Driver.fourPixels) oneEntry).map (·.2.1.pixelMap 1) = some (some [0]) ∧
      ((Runs.run step (false, Driver.fourPixels) [tooLarge]).bind (write · oneEntry)).map
        (·.2.1.pixelMap 1) = some none := by
  decide +kernel

end Load

end ADnED
