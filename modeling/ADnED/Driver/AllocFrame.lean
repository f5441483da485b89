import ADnED.Driver.Alloc

/-!
# What `allocArray` can change

`Relaid d d'` says that `d'` differs from `d` at most in the members that hold the
layout: the integer parameters, the allocation flags and the buffer. It is the frame
of `allocArray`, whatever its outcome.
-/

namespace ADnED

/-- `d'` is `d` up to the layout. -/
structure Relaid (d d' : Driver) : Prop where
  eq : d' = { d with
    int := d'.int, allocSpaceStatus := d'.allocSpaceStatus, pData := d'.pData
    dataAlloc := d'.dataAlloc, dataMaxSize := d'.dataMaxSize
    bufferMaxSize := d'.bufferMaxSize, tofMax := d'.tofMax }

namespace Relaid

variable {d d' d'' : Driver}

theorem refl (d : Driver) : Relaid d d := ⟨rfl⟩

theorem trans (h : Relaid d d') (h' : Relaid d' d'') : Relaid d d'' := by
  constructor
  rw [h'.eq, h.eq]

theorem str (h : Relaid d d') : d'.str = d.str := by rw [h.eq]

theorem adStatus (h : Relaid d d') : d'.adStatus = d.adStatus := by rw [h.eq]

end Relaid

namespace Driver

theorem allocPixels_relaid (ds : List Nat) (d : Driver) : Relaid d (allocPixels ds d).1 := by
  induction ds generalizing d with
  | nil => exact .refl d
  | cons det ds ih =>
    simp only [allocPixels]
    split
    · exact Relaid.trans ⟨rfl⟩ (ih (d.publishPixels det))
    · exact ⟨rfl⟩

theorem allocTOF_relaid (tofMax : Int32) (ds : List Nat) (tofStart : UInt32) (d : Driver) :
    Relaid d (allocTOF tofMax ds tofStart d) := by
  induction ds generalizing tofStart d with
  | nil => exact .refl d
  | cons det ds ih => exact Relaid.trans ⟨rfl⟩ (ih _ _)

theorem allocBuffer_relaid (callocOk : Bool) (numDet tofMax : Int32) (d : Driver) :
    Relaid d (allocBuffer callocOk numDet tofMax d) := by
  unfold allocBuffer
  split <;> exact ⟨rfl⟩

theorem allocFinish_relaid (d : Driver) : Relaid d (allocFinish d).1 := by
  unfold allocFinish
  split <;> exact ⟨rfl⟩

theorem allocArray_relaid (callocOk : Bool) (d : Driver) : Relaid d (d.allocArray callocOk).1 := by
  simp only [allocArray]
  split
  · exact .refl d
  · split
    · exact ⟨rfl⟩
    · have pixels := allocPixels_relaid (dets (d.int 0 .numDet))
        { d with tofMax := (d.int 0 .tofMax).toUInt32, dataMaxSize := 0 }
      split
      · rename_i e he
        rw [he] at pixels
        exact Relaid.trans ⟨rfl⟩ pixels
      · rename_i e he
        rw [he] at pixels
        exact Relaid.trans ⟨rfl⟩ (pixels.trans ((allocTOF_relaid _ _ _ _).trans
          ((allocBuffer_relaid _ _ _ _).trans (allocFinish_relaid _))))

end Driver

end ADnED
