import InodeVolume.Layout.Position
import Mathlib

/-!
# Extents of writes

What a write is to do to the bytes of a file, and how many of the bytes there is
room for.
-/

namespace InodeVolume

/-- The bytes `old` with `new` put in from an offset on; zeros fill a gap before it. -/
def overlay (old : List UInt8) (offset : Nat) (new : List UInt8) : List UInt8 :=
  if new = [] then old
  else (List.range (max old.length (offset + new.length))).map fun k =>
    if offset ≤ k ∧ k < offset + new.length then new.getD (k - offset) 0 else old.getD k 0

theorem List.eq_of_getD {a b : List UInt8} (length : a.length = b.length)
    (same : ∀ k, a.getD k 0 = b.getD k 0) : a = b := by
  refine List.ext_getElem length fun k left right => ?_
  have here := same k
  rwa [List.getD_eq_getElem _ _ left, List.getD_eq_getElem _ _ right] at here

variable {old new : List UInt8} {offset : Nat}

@[simp] theorem overlay_nil : overlay old offset [] = old := if_pos rfl

theorem length_overlay (nonempty : new ≠ []) :
    (overlay old offset new).length = max old.length (offset + new.length) := by
  simp [overlay, nonempty]

theorem getD_overlay (k : Nat) : (overlay old offset new).getD k 0 =
    if offset ≤ k ∧ k < offset + new.length then new.getD (k - offset) 0 else old.getD k 0 := by
  by_cases nothing : new = []
  · have outside : ¬ (offset ≤ k ∧ k < offset + new.length) := by
      simp [nothing]
    rw [if_neg outside, nothing, overlay_nil]
  by_cases inside : k < max old.length (offset + new.length)
  · simp [overlay, nothing, inside, List.getD_eq_getElem?_getD]
  · have past : old.length ≤ k ∧ offset + new.length ≤ k := by omega
    rw [if_neg (by omega), List.getD_eq_default _ _ past.1, List.getD_eq_default]
    rw [length_overlay nothing]
    omega

theorem overlay_overlay (more : List UInt8) :
    overlay (overlay old offset new) (offset + new.length) more = overlay old offset (new ++ more) := by
  by_cases nothing : new = []
  · simp [nothing]
  by_cases finished : more = []
  · simp [finished]
  refine List.eq_of_getD ?_ fun k => ?_
  · rw [length_overlay finished, length_overlay nothing, length_overlay (by simp [nothing]),
      List.length_append]
    omega
  · simp only [getD_overlay, List.length_append]
    by_cases early : k < offset + new.length
    · have no_more : ¬ (offset + new.length ≤ k ∧ k < offset + new.length + more.length) := by omega
      rw [if_neg no_more]
      by_cases inside : offset ≤ k
      · rw [if_pos ⟨inside, early⟩, if_pos (by omega), List.getD_append _ _ _ _ (by omega)]
      · rw [if_neg (by omega), if_neg (by omega)]
    · by_cases late : k < offset + new.length + more.length
      · rw [if_pos (by omega), if_pos (by omega), List.getD_append_right _ _ _ _ (by omega)]
        congr 1
        omega
      · rw [if_neg (by omega), if_neg (by omega), if_neg (by omega)]

theorem overlay_past (past : old.length ≤ offset) (nonempty : new ≠ []) :
    overlay old offset new = old ++ List.replicate (offset - old.length) 0 ++ new := by
  refine List.eq_of_getD ?_ fun k => ?_
  · rw [length_overlay nonempty, List.length_append, List.length_append, List.length_replicate]
    omega
  rw [getD_overlay]
  by_cases inside : k < old.length
  · rw [if_neg (by omega), List.append_assoc, List.getD_append _ _ _ _ inside]
  have beyond : old.length ≤ k := Nat.le_of_not_lt inside
  rw [List.getD_eq_default old _ beyond]
  by_cases gap : k < offset
  · rw [if_neg (by omega), List.append_assoc, List.getD_append_right _ _ _ _ beyond,
      List.getD_append _ _ _ _ (by simp; omega)]
    simp [List.getD_eq_getElem?_getD, List.getElem?_replicate]
    split <;> rfl
  · have shift : k - (old ++ List.replicate (offset - old.length) 0).length = k - offset := by
      simp
      omega
    rw [List.getD_append_right _ _ _ _ (by simp; omega), shift]
    by_cases written : k < offset + new.length
    · rw [if_pos ⟨Nat.le_of_not_lt gap, written⟩]
    · rw [if_neg (by omega), List.getD_eq_default _ _ (by omega)]

theorem drop_overlay_past (past : old.length ≤ offset) (nonempty : new ≠ []) :
    (overlay old offset new).drop offset = new := by
  rw [overlay_past past nonempty]
  apply List.drop_left'
  rw [List.length_append, List.length_replicate]
  exact Nat.add_sub_cancel' past

theorem overlay_append_zeros {n : Nat} (nonempty : new ≠ [])
    (short : old.length + n ≤ max old.length (offset + new.length)) :
    overlay (old ++ List.replicate n 0) offset new = overlay old offset new := by
  refine List.eq_of_getD ?_ fun k => ?_
  · rw [length_overlay nonempty, length_overlay nonempty, List.length_append, List.length_replicate]
    omega
  · have zeros : (old ++ List.replicate n 0).getD k 0 = old.getD k 0 := by
      by_cases inside : k < old.length
      · rw [List.getD_append _ _ _ _ inside]
      · have past : old.length ≤ k := Nat.le_of_not_lt inside
        rw [List.getD_append_right _ _ _ _ past, List.getD_eq_default old _ past]
        simp [List.getD_eq_getElem?_getD, List.getElem?_replicate]
        split <;> rfl
    rw [getD_overlay, getD_overlay, zeros]

namespace Layout

theorem dataSectors_mono {m n : Nat} (shorter : m ≤ n) : dataSectors m ≤ dataSectors n := by
  simp only [dataSectors, blockSize]
  omega

theorem footprint_mono {m n : Nat} (shorter : m ≤ n) : footprint m ≤ footprint n := by
  have sectors := dataSectors_mono shorter
  simp only [footprint, tablesNeeded, directCount, tableEntries]
  omega

/-- Where the first part of a write ends, which lies in one sector. -/
def reach (offset count : Nat) : Nat := offset + min count (blockSize - offset % blockSize)

/-- The size of a file after its sector at an offset was asked for. -/
def sizeFor (size offset count : Nat) : Nat := if offset < size then size else reach offset count

/-- How many of `count` bytes from an offset are written to its sector: a file that has the first
of them does not grow for the others. -/
def piece (size offset count : Nat) : Nat :=
  min count (if offset < size then min (size - offset) (blockSize - offset % blockSize)
    else blockSize - offset % blockSize)

def Room (size free length : Nat) : Prop :=
  length ≤ maxLength ∧ footprint (max size length) ≤ footprint size + free

instance (size free length : Nat) : Decidable (Room size free length) := by
  unfold Room
  infer_instance

/-- A file that ends before an offset can grow into the sector of the offset. -/
def Extensible (size free offset count : Nat) : Prop :=
  (0 < count ∨ 0 < offset % blockSize) ∧ Room size free (reach offset count)

instance (size free offset count : Nat) : Decidable (Extensible size free offset count) := by
  unfold Extensible
  infer_instance

/-- How many of `count` bytes there is room for. -/
def writable (size free offset count : Nat) : Nat :=
  Nat.findGreatest (fun n => Room size free (offset + n)) count

variable {size free count : Nat}

/-- Besides none at all, as many bytes can be written as there is room for, and no more. -/
theorem isGreatest_writable (size free offset count : Nat) :
    IsGreatest {n | n ≤ count ∧ (n = 0 ∨ offset + n ≤ maxLength ∧
      footprint (max size (offset + n)) - footprint size ≤ free)}
      (writable size free offset count) := by
  constructor
  · refine ⟨Nat.findGreatest_le count, ?_⟩
    rcases Nat.eq_zero_or_pos (writable size free offset count) with nothing | some_bytes
    · exact .inl nothing
    · obtain ⟨short, fits⟩ := Nat.findGreatest_of_ne_zero rfl (Nat.ne_of_gt some_bytes)
      exact .inr ⟨short, Nat.sub_le_iff_le_add'.mpr fits⟩
  · rintro n ⟨inside, rfl | ⟨short, fits⟩⟩
    · exact Nat.zero_le _
    · exact Nat.le_findGreatest inside ⟨short, Nat.sub_le_iff_le_add'.mp fits⟩

theorem isGreatest_writable_new (free count : Nat) :
    IsGreatest {n | n ≤ min count maxLength ∧ footprint n ≤ free} (writable 0 free 0 count) := by
  have needed (n : Nat) : footprint (max 0 (0 + n)) - footprint 0 = footprint n := by
    rw [Nat.zero_add, Nat.zero_max]
    rfl
  obtain ⟨member, greatest⟩ := isGreatest_writable 0 free 0 count
  constructor
  · obtain ⟨inside, nothing | ⟨short, fits⟩⟩ := member
    · rw [nothing]
      exact ⟨Nat.zero_le _, Nat.zero_le _⟩
    · rw [needed] at fits
      rw [Nat.zero_add] at short
      exact ⟨le_min inside short, fits⟩
  · rintro n ⟨inside, fits⟩
    refine greatest ⟨inside.trans (min_le_left _ _), .inr ⟨?_, needed n ▸ fits⟩⟩
    rw [Nat.zero_add]
    exact inside.trans (min_le_right _ _)

theorem lt_dataSectors_reach :
    offset / blockSize < dataSectors (reach offset count) ↔ 0 < count ∨ 0 < offset % blockSize := by
  simp only [dataSectors, reach, blockSize]
  omega

theorem dataSectors_reach (positive : 0 < count ∨ 0 < offset % blockSize) :
    dataSectors (reach offset count) = offset / blockSize + 1 := by
  simp only [dataSectors, reach, blockSize] at positive ⊢
  omega

theorem reach_le_maxLength (positive : 0 < count ∨ 0 < offset % blockSize) :
    reach offset count ≤ maxLength ↔ offset / blockSize < maxSectors := by
  simp only [maxLength, maxSectors, directCount, tabledSectors, tableCount, tableEntries, reach,
    blockSize] at positive ⊢
  omega

theorem Extensible.near {size free : Nat} (h : Extensible size free offset count) :
    offset / blockSize < maxSectors ∧ offset / blockSize < dataSectors (reach offset count) :=
  ⟨(reach_le_maxLength h.1).mp h.2.1, lt_dataSectors_reach.mpr h.1⟩

/-- Room for one byte is room for all that lies in its sector. -/
theorem extensible_of_room (past : size ≤ offset) (positive : 0 < count)
    (room : Room size free (offset + 1)) : Extensible size free offset count := by
  have one : dataSectors (offset + 1) = offset / blockSize + 1 := by
    simp only [dataSectors, blockSize]
    omega
  have longer : size ≤ reach offset count := Nat.le_trans past (Nat.le_add_right _ _)
  obtain ⟨short, fits⟩ := room
  refine ⟨.inl positive, ?_, ?_⟩
  · rw [reach_le_maxLength (.inl positive)]
    simp only [maxLength, maxSectors, directCount, tabledSectors, tableCount, tableEntries,
      blockSize] at short ⊢
    omega
  · rw [max_eq_right longer, footprint, dataSectors_reach (.inl positive), ← one]
    rwa [max_eq_right (Nat.le_succ_of_le past)] at fits

theorem writable_eq_zero (past : size ≤ offset) (positive : 0 < count)
    (stuck : ¬ Extensible size free offset count) (total : Nat) :
    writable size free offset total = 0 := by
  refine Nat.findGreatest_eq_zero_iff.mpr fun {n} some_bytes _ ⟨short, fits⟩ => ?_
  refine stuck (extensible_of_room past positive ⟨by omega, Nat.le_trans ?_ fits⟩)
  exact footprint_mono (max_le_max_left _ (by omega))

theorem room_iff {size' free' length : Nat} (longer : max size offset = size')
    (total : footprint size' + free' = footprint size + free) (above : offset ≤ length) :
    Room size free length ↔ Room size' free' length := by
  have same : max size length = max size' length := by omega
  rw [Room, Room, same, total]

/-- After the first bytes there is room for as many of the others as before. -/
theorem writable_add {size' free' first : Nat} (longer : max size (offset + first) = size')
    (total : footprint size' + free' = footprint size + free) (bound : size' ≤ maxLength)
    (rest : Nat) : writable size free offset (first + rest) =
      first + writable size' free' (offset + first) rest := by
  have room : Room size free (offset + first) := by
    rw [room_iff longer total (Nat.le_refl _)]
    refine ⟨by omega, ?_⟩
    rw [max_eq_left (by omega)]
    exact Nat.le_add_right _ _
  simp only [writable]
  induction rest with
  | zero =>
    cases first with
    | zero => rfl
    | succ first => exact Nat.findGreatest_eq room
  | succ rest ih =>
    have index : offset + (first + rest + 1) = offset + first + (rest + 1) := by omega
    have same : Room size free (offset + first + (rest + 1)) ↔
        Room size' free' (offset + first + (rest + 1)) := room_iff longer total (by omega)
    rw [← Nat.add_assoc, Nat.findGreatest_succ, Nat.findGreatest_succ, ih, index]
    by_cases more : Room size' free' (offset + first + (rest + 1))
    · rw [if_pos more, if_pos (same.mpr more), Nat.add_assoc]
    · rw [if_neg more, if_neg (mt same.mp more)]

end Layout

end InodeVolume
