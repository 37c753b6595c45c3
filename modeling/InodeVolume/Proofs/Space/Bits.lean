import InodeVolume.Space.SpaceMap
import Mathlib

/-!
# Bits of a space map

`test` is the view of a space map: setting and clearing change it at one sector,
and the lowest free sector is the least one at which it is false.
-/

namespace InodeVolume

namespace SpaceMap

theorem mask_toBitVec (s : Nat) : (mask s).toBitVec = BitVec.twoPow 64 (s % 64) := by
  have small : s % 64 < 2 ^ 64 := Nat.lt_of_lt_of_le (Nat.mod_lt s (by decide)) (by decide)
  have shift : ((s % 64).toUInt64.toBitVec % (64 : BitVec 64)).toNat = s % 64 := by
    rw [BitVec.toNat_umod, UInt64.toNat_toBitVec, Nat.toUInt64_eq, UInt64.toNat_ofNat_of_lt' small]
    exact Nat.mod_mod s 64
  rw [mask, groupBits, UInt64.toBitVec_shiftLeft, BitVec.twoPow_eq, BitVec.shiftLeft_eq', shift]
  rfl

theorem and_mask (w : UInt64) (s : Nat) :
    (w &&& mask s != 0) = w.toBitVec.getLsbD (s % 64) := by
  have inside : s % 64 < 64 := Nat.mod_lt s (by decide)
  have cleared : (w &&& mask s = 0) ↔ w.toBitVec.getLsbD (s % 64) = false := by
    rw [← UInt64.toBitVec_inj, UInt64.toBitVec_and, mask_toBitVec, BitVec.and_twoPow]
    cases bit : w.toBitVec.getLsbD (s % 64) with
    | false => simp
    | true =>
      simp only [if_true, Bool.true_eq_false, iff_false]
      intro zero
      have one := congrArg (·.getLsbD (s % 64)) zero
      simp [inside] at one
  cases bit : w.toBitVec.getLsbD (s % 64) with
  | false => simp [cleared.mpr bit]
  | true =>
    have apart : w &&& mask s ≠ 0 := fun zero => by simp [cleared.mp zero] at bit
    simpa using apart

theorem test_eq (m : SpaceMap) (s : Nat) :
    m.test s = (m.groups.getD (s / 64) 0).toBitVec.getLsbD (s % 64) := and_mask _ s

@[simp] theorem size_set (m : SpaceMap) (s : Nat) : (m.set s).groups.size = m.groups.size := by
  simp [set]

@[simp] theorem capacity_set (m : SpaceMap) (s : Nat) : (m.set s).capacity = m.capacity := rfl

@[simp] theorem size_clear (m : SpaceMap) (s : Nat) :
    (m.clear s).groups.size = m.groups.size := by
  simp [clear]

theorem same_bit {s t : Nat} (group : s / 64 = t / 64) : s % 64 = t % 64 ↔ t = s := by omega

theorem test_set (m : SpaceMap) {s : Nat} (inside : s < m.groups.size * 64) (t : Nat) :
    (m.set s).test t = (m.test t || t == s) := by
  have group_inside : s / 64 < m.groups.size := by omega
  simp only [test_eq, set, groupBits, Array.getD_eq_getD_getElem?, Array.getElem?_modify]
  by_cases group : s / 64 = t / 64
  · rw [group] at group_inside
    have found : m.groups[t / 64]? = some m.groups[t / 64] := Array.getElem?_eq_getElem group_inside
    simp only [group, if_true, found, Option.map_some, Option.getD_some, UInt64.toBitVec_or,
      mask_toBitVec, BitVec.getLsbD_or, BitVec.getLsbD_twoPow, same_bit group]
    simp [Nat.mod_lt, Bool.beq_eq_decide_eq]
  · have apart : t ≠ s := fun same => group (by rw [same])
    simp [group, apart]

theorem test_clear (m : SpaceMap) (s t : Nat) :
    (m.clear s).test t = (m.test t && t != s) := by
  simp only [test_eq, clear, groupBits, Array.getD_eq_getD_getElem?, Array.getElem?_modify]
  by_cases group : s / 64 = t / 64
  · cases found : m.groups[t / 64]? with
    | none => simp [group]
    | some w =>
      simp only [group, if_true, Option.map_some, Option.getD_some, UInt64.toBitVec_and,
        UInt64.toBitVec_not, mask_toBitVec, BitVec.getLsbD_and, BitVec.getLsbD_not,
        BitVec.getLsbD_twoPow, same_bit group]
      simp [Nat.mod_lt, bne, Bool.beq_eq_decide_eq]
  · have apart : t ≠ s := fun same => group (by rw [same])
    simp [group, apart]

@[simp] theorem size_setRun (m : SpaceMap) (s : Nat) (count : Nat) :
    (m.setRun s count).groups.size = m.groups.size := by
  induction count generalizing m s with
  | zero => rfl
  | succ count ih => rw [setRun, ih, size_set]

@[simp] theorem capacity_setRun (m : SpaceMap) (s : Nat) (count : Nat) :
    (m.setRun s count).capacity = m.capacity := by
  induction count generalizing m s with
  | zero => rfl
  | succ count ih => rw [setRun, ih, capacity_set]

@[simp] theorem free_setRun (m : SpaceMap) (s : Nat) (count : Nat) :
    (m.setRun s count).free = m.free := by
  induction count generalizing m s with
  | zero => rfl
  | succ count ih =>
    rw [setRun, ih]
    rfl

theorem test_setRun (m : SpaceMap) {s : Nat} {count : Nat}
    (inside : s + count ≤ m.groups.size * 64) (t : Nat) :
    (m.setRun s count).test t = (m.test t || decide (s ≤ t ∧ t < s + count)) := by
  induction count generalizing m s with
  | zero => simp [setRun]
  | succ count ih =>
    rw [setRun, ih _ (by rw [size_set]; omega), test_set m (by omega), Bool.or_assoc]
    congr 1
    rw [Bool.eq_iff_iff]
    simp only [Bool.or_eq_true, beq_iff_eq, decide_eq_true_eq]
    omega

theorem getLsbD_full {i : Nat} (inside : i < 64) :
    (~~~0 : UInt64).toBitVec.getLsbD i = true := by
  have full : (~~~0 : UInt64).toBitVec = BitVec.allOnes 64 := rfl
  rw [full, BitVec.getLsbD_allOnes]
  exact decide_eq_true inside

theorem trailingOnes_spec {w : UInt64} (hole : w ≠ ~~~0) :
    trailingOnes w < 64 ∧ w.toBitVec.getLsbD (trailingOnes w) = false ∧
      ∀ i < trailingOnes w, w.toBitVec.getLsbD i = true := by
  have bit (i : Nat) (inside : i < 64) : (w &&& mask i == 0) = !w.toBitVec.getLsbD i := by
    have view := and_mask w i
    rw [Nat.mod_eq_of_lt inside] at view
    rw [← view, bne, Bool.not_not]
  have clear : ∃ i < 64, w.toBitVec.getLsbD i = false := by
    by_contra full
    simp only [not_exists, not_and, Bool.not_eq_false] at full
    apply hole
    rw [← UInt64.toBitVec_inj]
    refine BitVec.eq_of_getLsbD_eq fun i inside => ?_
    rw [full i inside, getLsbD_full inside]
  cases found : (List.range groupBits).find? fun i => w &&& mask i == 0 with
  | none =>
    obtain ⟨i, inside, zero⟩ := clear
    have full := List.find?_eq_none.mp found i (List.mem_range.mpr inside)
    simp [bit i inside, zero] at full
  | some first =>
    obtain ⟨zero, inside, before⟩ := List.find?_range_eq_some.mp found
    have inside : first < 64 := List.mem_range.mp inside
    rw [trailingOnes, found, Option.getD_some]
    refine ⟨inside, by simpa [bit first inside] using zero, ?_⟩
    intro i below
    have one := before i below
    rw [bit i (Nat.lt_trans below inside)] at one
    simpa using one

theorem lowestFree_some {m : SpaceMap} {s : Nat} (found : m.lowestFree = some s) :
    s < m.groups.size * 64 ∧ m.test s = false ∧ ∀ t < s, m.test t = true := by
  rw [lowestFree] at found
  split at found
  next g first =>
    obtain ⟨inside, hole, before⟩ := Array.findIdx?_eq_some_iff_getElem.mp first
    have word : m.groups.getD g 0 = m.groups[g] := by
      simp [Array.getD_eq_getD_getElem?, inside]
    obtain ⟨small, zero, ones⟩ := trailingOnes_spec (bne_iff_ne.mp hole)
    simp only [word, groupBits, Option.some.injEq] at found
    subst found
    have group : (g * 64 + trailingOnes m.groups[g]) / 64 = g := by omega
    have bit : (g * 64 + trailingOnes m.groups[g]) % 64 = trailingOnes m.groups[g] := by omega
    refine ⟨by omega, by rw [test_eq, group, bit, word, zero], ?_⟩
    intro t below
    by_cases same : t / 64 = g
    · rw [test_eq, same, word]
      exact ones _ (by omega)
    · have earlier : t / 64 < g := by omega
      have full := before _ earlier
      have value : m.groups.getD (t / 64) 0 = ~~~0 := by
        simpa [Array.getD_eq_getD_getElem?, Nat.lt_trans earlier inside] using full
      rw [test_eq, value, getLsbD_full (Nat.mod_lt t (by decide))]
  next => cases found

theorem lowestFree_none {m : SpaceMap} (full : m.lowestFree = none) {s : Nat}
    (inside : s < m.groups.size * 64) : m.test s = true := by
  rw [lowestFree] at full
  split at full
  next => cases full
  next none =>
    have group_inside : s / 64 < m.groups.size := by omega
    have group_full := Array.findIdx?_eq_none_iff.mp none _ (Array.getElem_mem group_inside)
    have value : m.groups.getD (s / 64) 0 = ~~~0 := by
      simpa [Array.getD_eq_getD_getElem?, group_inside] using group_full
    rw [test_eq, value, getLsbD_full (Nat.mod_lt s (by decide))]

end SpaceMap

end InodeVolume
