import InodeVolume.Proofs.Space.Bits

/-!
# Searches in a space map

A run of sectors is vacant when it lies in the map and no bit of it is set. The
search by groups and the search by bits both answer with the lowest vacant run,
so for a single sector they agree.
-/

namespace InodeVolume

/-- The answer to a search for the lowest number with a property. -/
def Lowest (p : Nat → Prop) : Option Nat → Prop
  | some s => p s ∧ ∀ t, p t → s ≤ t
  | none => ∀ s, ¬ p s

namespace Lowest

variable {p : Nat → Prop} {answer answer' : Option Nat}

theorem unique (h : Lowest p answer) (h' : Lowest p answer') : answer = answer' := by
  cases answer with
  | none =>
    cases answer' with
    | none => rfl
    | some s => exact absurd h'.1 (h s)
  | some s =>
    cases answer' with
    | none => exact absurd h.1 (h' s)
    | some t => exact congrArg some (Nat.le_antisymm (h.2 t h'.1) (h'.2 s h.1))

end Lowest

namespace SpaceMap

structure Vacant (m : SpaceMap) (count s : Nat) : Prop where
  inside : s + count ≤ m.capacity
  clear {t : Nat} : s ≤ t → t < s + count → m.test t = false

theorem vacant_one {m : SpaceMap} {s : Nat} :
    m.Vacant 1 s ↔ s < m.capacity ∧ m.test s = false := by
  constructor
  · intro vacant
    exact ⟨vacant.inside, vacant.clear (Nat.le_refl s) (Nat.lt_succ_self s)⟩
  · rintro ⟨inside, clear⟩
    refine ⟨inside, fun {t} above below => ?_⟩
    obtain rfl : s = t := by omega
    exact clear

/-- Where the bits past the end are set, the group with the first clear bit has the first
free sector. -/
theorem lowest_lowestFree {m : SpaceMap} (bound : m.capacity ≤ m.groups.size * 64)
    (padding : ∀ s, m.capacity ≤ s → s < m.groups.size * 64 → m.test s = true) :
    Lowest (m.Vacant 1) m.lowestFree := by
  cases found : m.lowestFree with
  | none =>
    intro s vacant
    obtain ⟨inside, clear⟩ := vacant_one.mp vacant
    have set := lowestFree_none found (Nat.lt_of_lt_of_le inside bound)
    rw [clear] at set
    cases set
  | some s =>
    obtain ⟨below, clear, before⟩ := lowestFree_some found
    constructor
    · apply vacant_one.mpr
      refine ⟨?_, clear⟩
      by_contra past
      have set := padding s (Nat.le_of_not_lt past) below
      rw [clear] at set
      cases set
    · intro t vacant
      by_contra earlier
      have set := before t (Nat.lt_of_not_le earlier)
      rw [(vacant_one.mp vacant).2] at set
      cases set

/-- The search by bits goes on from sector `s`, with `run` clear bits directly before it
and no vacant run that starts before these. -/
theorem lowest_lowestRunFrom {m : SpaceMap} {count left s run : Nat}
    (whole : s + left = m.capacity) (short : run < count) (within : run ≤ s)
    (clear : ∀ t, s - run ≤ t → t < s → m.test t = false)
    (earliest : ∀ t, m.Vacant count t → s - run ≤ t) :
    Lowest (m.Vacant count) (m.lowestRunFrom count left s run) := by
  induction left generalizing s run with
  | zero =>
    intro t vacant
    have above := earliest t vacant
    have inside := vacant.inside
    omega
  | succ left ih =>
    unfold lowestRunFrom
    cases bit : m.test s with
    | true =>
      apply ih
      · omega
      · omega
      · omega
      · intro t above below
        omega
      · intro t vacant
        have above := earliest t vacant
        -- a run from `t ≤ s` would have to contain the sector `s`
        by_contra early
        have hit := vacant.clear (t := s) (by omega) (by omega)
        rw [bit] at hit
        cases hit
    | false =>
      have longer : ∀ t, s - run ≤ t → t < s + 1 → m.test t = false := by
        intro t above below
        rcases Nat.lt_succ_iff_lt_or_eq.mp below with before | rfl
        · exact clear t above before
        · exact bit
      by_cases full : run + 1 = count
      · simp only [Bool.false_eq_true, if_false, if_pos full]
        constructor
        · refine ⟨by omega, fun {t} above below => ?_⟩
          apply longer <;> omega
        · intro t vacant
          have above := earliest t vacant
          omega
      · simp only [Bool.false_eq_true, if_false, if_neg full]
        apply ih
        · omega
        · omega
        · omega
        · intro t above below
          apply longer <;> omega
        · intro t vacant
          have above := earliest t vacant
          omega

theorem lowest_lowestRun {m : SpaceMap} {count : Nat} (positive : 0 < count) :
    Lowest (m.Vacant count) (m.lowestRun count) := by
  apply lowest_lowestRunFrom
  · exact Nat.zero_add _
  · exact positive
  · exact Nat.le_refl 0
  · intro t _ below
    exact absurd below (Nat.not_lt_zero t)
  · intro t _
    exact Nat.zero_le t

end SpaceMap

end InodeVolume
