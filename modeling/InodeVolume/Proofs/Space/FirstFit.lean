import InodeVolume.Proofs.Space.Search

/-!
# First fit

A sound space map counts its unused sectors and keeps the bits past its end set.
It hands out the lowest vacant run of the length that is asked for, and takes back
every run that is in use. The file layer takes one sector at a time.
-/

namespace InodeVolume

namespace SpaceMap

def unused (m : SpaceMap) : Finset Nat :=
  (Finset.range m.capacity).filter fun s => m.isAllocated s = false

structure Sound (m : SpaceMap) : Prop where
  size : m.groups.size = (m.capacity + 63) / 64
  padding {s : Nat} : m.capacity ≤ s → s < m.groups.size * 64 → m.test s = true
  free : m.free = m.unused.card

theorem isAllocated_iff {m : SpaceMap} {s : Nat} :
    m.isAllocated s = true ↔ s < m.capacity ∧ m.test s = true := by
  simp [isAllocated]

@[simp] theorem mem_unused {m : SpaceMap} {s : Nat} :
    s ∈ m.unused ↔ s < m.capacity ∧ m.isAllocated s = false := by
  simp [unused]

theorem Sound.capacity_le {m : SpaceMap} (h : m.Sound) : m.capacity ≤ m.groups.size * 64 := by
  have size := h.size
  omega

/-- A sound map is known by the sectors in use. -/
theorem Sound.ext {m m' : SpaceMap} (h : m.Sound) (h' : m'.Sound)
    (capacity : m'.capacity = m.capacity) (same : ∀ s, m'.isAllocated s = m.isAllocated s) :
    m' = m := by
  have size : m'.groups.size = m.groups.size := by rw [h'.size, h.size, capacity]
  have test {s : Nat} (inside : s < m.groups.size * 64) : m'.test s = m.test s := by
    by_cases small : s < m.capacity
    · have at_s := same s
      simpa [isAllocated, capacity, small] using at_s
    · have past : m.capacity ≤ s := Nat.le_of_not_lt small
      rw [h.padding past inside, h'.padding (capacity.le.trans past) (size ▸ inside)]
  have groups : m'.groups = m.groups := by
    refine Array.ext size fun g inside' inside => UInt64.toBitVec_inj.mp ?_
    refine BitVec.eq_of_getLsbD_eq fun i small => ?_
    have bit := test (s := g * 64 + i) (by omega)
    have place : (g * 64 + i) / 64 = g ∧ (g * 64 + i) % 64 = i := by omega
    simpa [test_eq, place, Array.getD, inside, inside'] using bit
  have unused : m'.unused = m.unused := by
    ext s
    rw [mem_unused, mem_unused, capacity, same]
  have free : m'.free = m.free := by rw [h'.free, h.free, unused]
  cases m
  cases m'
  simp_all

structure TakenRun (m m' : SpaceMap) (count s : Nat) : Prop where
  sound : m'.Sound
  capacity : m'.capacity = m.capacity
  isAllocated (t : Nat) :
    m'.isAllocated t = true ↔ m.isAllocated t = true ∨ s ≤ t ∧ t < s + count
  free : m'.free + count = m.free

structure GivenRun (m m' : SpaceMap) (count s : Nat) : Prop where
  sound : m'.Sound
  capacity : m'.capacity = m.capacity
  isAllocated (t : Nat) :
    m'.isAllocated t = true ↔ m.isAllocated t = true ∧ ¬ (s ≤ t ∧ t < s + count)
  free : m'.free = m.free + count

structure Taken (m m' : SpaceMap) (s : Nat) : Prop where
  sound : m'.Sound
  capacity : m'.capacity = m.capacity
  isAllocated (t : Nat) : m'.isAllocated t = true ↔ m.isAllocated t = true ∨ t = s
  free : m'.free + 1 = m.free

structure GivenBack (m m' : SpaceMap) (s : Nat) : Prop where
  sound : m'.Sound
  capacity : m'.capacity = m.capacity
  isAllocated (t : Nat) : m'.isAllocated t = true ↔ m.isAllocated t = true ∧ t ≠ s
  free : m'.free = m.free + 1

variable {m : SpaceMap} {count s : Nat}

theorem Vacant.isAllocated (vacant : m.Vacant count s) {t : Nat} (above : s ≤ t)
    (below : t < s + count) : m.isAllocated t = false := by
  simp [SpaceMap.isAllocated, vacant.clear above below]

theorem isAllocated_setRun (inside : s + count ≤ m.capacity) (bound : m.capacity ≤ m.groups.size * 64)
    (t : Nat) : (m.setRun s count).isAllocated t = true ↔
      m.isAllocated t = true ∨ s ≤ t ∧ t < s + count := by
  rw [isAllocated_iff, isAllocated_iff, capacity_setRun, test_setRun m (Nat.le_trans inside bound)]
  simp only [Bool.or_eq_true, decide_eq_true_eq]
  constructor
  · rintro ⟨below, set | taken⟩
    · exact .inl ⟨below, set⟩
    · exact .inr taken
  · rintro (⟨below, set⟩ | taken)
    · exact ⟨below, .inl set⟩
    · exact ⟨by omega, .inr taken⟩

theorem unused_setRun (vacant : m.Vacant count s) (bound : m.capacity ≤ m.groups.size * 64) :
    (m.setRun s count).unused.card + count = m.unused.card := by
  have taken : (m.setRun s count).unused = m.unused \ Finset.Ico s (s + count) := by
    ext t
    rw [mem_unused, Finset.mem_sdiff, mem_unused, Finset.mem_Ico, capacity_setRun, ← Bool.not_eq_true,
      isAllocated_setRun vacant.inside bound, not_or, Bool.not_eq_true, and_assoc]
  have among : Finset.Ico s (s + count) ⊆ m.unused := by
    intro t member
    obtain ⟨above, below⟩ := Finset.mem_Ico.mp member
    exact mem_unused.mpr ⟨Nat.lt_of_lt_of_le below vacant.inside, vacant.isAllocated above below⟩
  have counted := Finset.card_le_card among
  have left := Finset.card_sdiff_of_subset among
  rw [Nat.card_Ico, Nat.add_sub_cancel_left] at counted left
  rw [taken]
  omega

theorem takenRun_setRun (h : m.Sound) (vacant : m.Vacant count s) :
    TakenRun m { m.setRun s count with free := m.free - count } count s := by
  have bound := h.capacity_le
  have counted := unused_setRun vacant bound
  have total := h.free
  refine ⟨⟨?_, ?_, ?_⟩, capacity_setRun m s count, isAllocated_setRun vacant.inside bound, ?_⟩
  · change (m.setRun s count).groups.size = ((m.setRun s count).capacity + 63) / 64
    rw [size_setRun, capacity_setRun]
    exact h.size
  · intro t past below
    change (m.setRun s count).test t = true
    change (m.setRun s count).capacity ≤ t at past
    change t < (m.setRun s count).groups.size * 64 at below
    rw [capacity_setRun] at past
    rw [size_setRun] at below
    rw [test_setRun m (Nat.le_trans vacant.inside bound), h.padding past below, Bool.true_or]
  · change m.free - count = (m.setRun s count).unused.card
    omega
  · change m.free - count + count = m.free
    omega

theorem Sound.lowest_search (h : m.Sound) (positive : 0 < count) :
    Lowest (m.Vacant count) (if count = 1 then m.lowestFree else m.lowestRun count) := by
  split
  next one =>
    subst one
    exact lowest_lowestFree h.capacity_le fun _ past below => h.padding past below
  next => exact lowest_lowestRun positive

/-- A run is handed out unless none is vacant, and then it is the lowest vacant one. -/
theorem allocate_eq (h : m.Sound) (positive : 0 < count) :
    (m.allocate count = .ok (none, m) ∧ ∀ s, ¬ m.Vacant count s) ∨
      ∃ s m', m.allocate count = .ok (some s, m') ∧ m.Vacant count s ∧
        (∀ t, m.Vacant count t → s ≤ t) ∧ TakenRun m m' count s := by
  have answered := h.lowest_search positive
  cases found : if count = 1 then m.lowestFree else m.lowestRun count with
  | none =>
    rw [found] at answered
    left
    refine ⟨?_, answered⟩
    simp only [allocate, if_neg (Nat.ne_of_gt positive), found]
  | some s =>
    rw [found] at answered
    right
    refine ⟨s, { m.setRun s count with free := m.free - count }, ?_, answered.1, answered.2,
      takenRun_setRun h answered.1⟩
    simp only [allocate, if_neg (Nat.ne_of_gt positive), found]

theorem allocate_one (h : m.Sound) :
    (m.free = 0 ∧ m.allocate 1 = .ok (none, m)) ∨
      ∃ s m', m.allocate 1 = .ok (some s, m') ∧ s < m.capacity ∧ m.isAllocated s = false ∧
        (∀ t < s, m.isAllocated t = true) ∧ Taken m m' s := by
  have vacant_iff (t : Nat) : m.Vacant 1 t ↔ t < m.capacity ∧ m.isAllocated t = false := by
    rw [vacant_one, and_congr_right_iff]
    intro inside
    simp [isAllocated, inside]
  rcases allocate_eq h Nat.one_pos with ⟨done, full⟩ | ⟨s, m', done, vacant, lowest, taken⟩
  · left
    refine ⟨?_, done⟩
    rw [h.free, Finset.card_eq_zero, Finset.eq_empty_iff_forall_notMem]
    intro t member
    exact full t ((vacant_iff t).mpr (mem_unused.mp member))
  · right
    obtain ⟨inside, unused⟩ := (vacant_iff s).mp vacant
    refine ⟨s, m', done, inside, unused, ?_, taken.sound, taken.capacity, ?_, taken.free⟩
    · intro t earlier
      by_contra clear
      have vacant' := (vacant_iff t).mpr
        ⟨Nat.lt_trans earlier inside, Bool.eq_false_of_not_eq_true clear⟩
      exact Nat.not_le.mpr earlier (lowest t vacant')
    · intro t
      rw [taken.isAllocated]
      apply or_congr_right
      omega

theorem clearRun_eq (m : SpaceMap) (s count : Nat) :
    (∃ t : Nat, s ≤ t ∧ t < s + count ∧ m.test t = false ∧ m.clearRun s count = .error (.doubleRelease t)) ∨
      (∀ t : Nat, s ≤ t → t < s + count → m.test t = true) ∧ ∃ m', m.clearRun s count = .ok m' ∧
        m'.groups.size = m.groups.size ∧ m'.capacity = m.capacity ∧ m'.free = m.free ∧
        ∀ t : Nat, m'.test t = (m.test t && !decide (s ≤ t ∧ t < s + count)) := by
  induction count generalizing m s with
  | zero =>
    right
    refine ⟨fun t above below => by omega, m, rfl, rfl, rfl, rfl, fun t => ?_⟩
    have outside : ¬ (s ≤ t ∧ t < s + 0) := by omega
    rw [decide_eq_false outside, Bool.not_false, Bool.and_true]
  | succ count ih =>
    cases bit : m.test s with
    | false =>
      left
      refine ⟨s, Nat.le_refl s, by omega, bit, ?_⟩
      rw [clearRun, if_neg (by rw [bit]; exact Bool.false_ne_true)]
    | true =>
      -- The bit at `s` goes first; the run behind it does not see that.
      have opened : m.clearRun s (count + 1) = (m.clear s).clearRun (s + 1) count := if_pos bit
      have untouched {t : Nat} (above : s + 1 ≤ t) : (m.clear s).test t = m.test t := by
        have apart : (t != s) = true := bne_iff_ne.mpr (by omega)
        rw [test_clear, apart, Bool.and_true]
      rw [opened]
      rcases ih (m.clear s) (s + 1) with ⟨t, above, below, clear, failed⟩ | ⟨set, m', done, size,
        capacity, free, test⟩
      · left
        rw [untouched above] at clear
        exact ⟨t, by omega, by omega, clear, failed⟩
      · right
        refine ⟨?_, m', done, size.trans (size_clear m s), capacity, free, fun t => ?_⟩
        · intro t above below
          rcases Nat.eq_or_lt_of_le above with rfl | later
          · exact bit
          · rw [← untouched later]
            exact set t later (by omega)
        · rw [test, test_clear, Bool.and_assoc]
          congr 1
          rw [Bool.eq_iff_iff]
          simp only [Bool.and_eq_true, bne_iff_ne, Bool.not_eq_true', decide_eq_false_iff_not]
          omega

/-- The causes for which a run is not taken back. -/
def Unreleasable (m : SpaceMap) (s count : Nat) : Prop :=
  Sector.limit ≤ s + count ∨ m.capacity < s + count ∨
    ∃ t : Nat, s ≤ t ∧ t < s + count ∧ m.isAllocated t = false

theorem givenRun_of_test (h : m.Sound) (inside : s + count ≤ m.capacity)
    (used : ∀ t : Nat, s ≤ t → t < s + count → m.test t = true) {m' : SpaceMap}
    (size : m'.groups.size = m.groups.size) (capacity : m'.capacity = m.capacity)
    (test : ∀ t : Nat, m'.test t = (m.test t && !decide (s ≤ t ∧ t < s + count))) :
    GivenRun m { m' with free := m.free + count } count s := by
  have isAllocated (t : Nat) : m'.isAllocated t = true ↔
      m.isAllocated t = true ∧ ¬ (s ≤ t ∧ t < s + count) := by
    rw [isAllocated_iff, isAllocated_iff, capacity, test]
    simp only [Bool.and_eq_true, Bool.not_eq_true', decide_eq_false_iff_not, and_assoc]
  have given : m'.unused = m.unused ∪ Finset.Ico s (s + count) := by
    ext t
    rw [mem_unused, Finset.mem_union, mem_unused, Finset.mem_Ico, capacity, ← Bool.not_eq_true,
      isAllocated, not_and_or, not_not, Bool.not_eq_true]
    constructor
    · rintro ⟨below, free | run⟩
      · exact .inl ⟨below, free⟩
      · exact .inr run
    · rintro (⟨below, free⟩ | run)
      · exact ⟨below, .inl free⟩
      · exact ⟨by omega, .inr run⟩
  have beside : Disjoint m.unused (Finset.Ico s (s + count)) := by
    refine Finset.disjoint_left.mpr fun t member run => ?_
    obtain ⟨above, below⟩ := Finset.mem_Ico.mp run
    obtain ⟨in_map, free⟩ := mem_unused.mp member
    rw [isAllocated_iff.mpr ⟨in_map, used t above below⟩] at free
    cases free
  refine ⟨⟨?_, ?_, ?_⟩, capacity, isAllocated, rfl⟩
  · change m'.groups.size = (m'.capacity + 63) / 64
    rw [size, capacity]
    exact h.size
  · intro t past below
    change m'.test t = true
    change m'.capacity ≤ t at past
    change t < m'.groups.size * 64 at below
    rw [capacity] at past
    rw [size] at below
    have outside : ¬ (s ≤ t ∧ t < s + count) := by omega
    rw [test, h.padding past below, decide_eq_false outside]
    rfl
  · change m.free + count = m'.unused.card
    rw [given, Finset.card_union_of_disjoint beside, Nat.card_Ico, Nat.add_sub_cancel_left, h.free]

/-- A run is taken back unless it leaves the map or has a sector that is not in use. -/
theorem release_eq (h : m.Sound) (s count : Nat) :
    (m.Unreleasable s count ∧ ∃ f, m.release s count = .error f) ∨
      ¬ m.Unreleasable s count ∧ ∃ m', m.release s count = .ok m' ∧ GivenRun m m' count s := by
  by_cases beyond : Sector.limit ≤ s + count
  · left
    exact ⟨.inl beyond, .overflow, if_pos beyond⟩
  by_cases past : m.capacity < s + count
  · left
    refine ⟨.inr (.inl past), .releaseOutOfRange, ?_⟩
    rw [release, if_neg beyond, if_pos past]
  have inside : s + count ≤ m.capacity := Nat.le_of_not_lt past
  have opened : m.release s count = (do
      let m ← m.clearRun s count
      return { m with free := m.free + count }) := by
    rw [release, if_neg beyond, if_neg past]
  have allocated_iff {t : Nat} (below : t < s + count) : m.isAllocated t = m.test t := by
    have in_map : t < m.capacity := Nat.lt_of_lt_of_le below inside
    simp [isAllocated, in_map]
  rcases clearRun_eq m s count with ⟨t, above, below, clear, failed⟩ | ⟨set, m', done, size, capacity,
    free, test⟩
  · left
    refine ⟨.inr (.inr ⟨t, above, below, ?_⟩), .doubleRelease t, ?_⟩
    · rw [allocated_iff below, clear]
    · rw [opened, failed]
      rfl
  · right
    refine ⟨?_, { m' with free := m.free + count }, ?_,
      givenRun_of_test h inside set size capacity test⟩
    · rintro (beyond' | past' | ⟨t, above, below, unused⟩)
      · exact beyond beyond'
      · exact past past'
      · rw [allocated_iff below, set t above below] at unused
        cases unused
    · rw [opened, done, ← free]
      rfl

theorem release_one (h : m.Sound) (used : m.isAllocated s = true)
    (bounded : m.capacity < Sector.limit) :
    ∃ m', m.release s 1 = .ok m' ∧ GivenBack m m' s := by
  have inside : s < m.capacity := (isAllocated_iff.mp used).1
  rcases release_eq h s 1 with ⟨unreleasable, _⟩ | ⟨_, m', done, given⟩
  · rcases unreleasable with beyond | past | ⟨t, above, below, unused⟩
    · omega
    · omega
    · obtain rfl : s = t := by omega
      rw [used] at unused
      cases unused
  · refine ⟨m', done, given.sound, given.capacity, ?_, given.free⟩
    intro t
    rw [given.isAllocated]
    apply and_congr_right'
    omega

theorem bounds_of_new {m : SpaceMap} {total reserved : Nat} (made : new total reserved = .ok m) :
    0 < reserved ∧ reserved ≤ total := by
  unfold new at made
  split at made
  · cases made
  next positive =>
    split at made
    · cases made
    next fits => exact ⟨Nat.pos_of_ne_zero positive, Nat.le_of_not_lt fits⟩

/-- A new map has its reserved sectors in use and no others. -/
theorem new_eq {total reserved : Nat} (positive : 0 < reserved) (fits : reserved ≤ total) :
    ∃ m, new total reserved = .ok m ∧ m.Sound ∧ m.capacity = total ∧
      ∀ s, m.isAllocated s = true ↔ s < reserved := by
  let blank : SpaceMap := ⟨Array.replicate ((total + 63) / 64) 0, total, total - reserved⟩
  let m := (blank.setRun total ((total + 63) / 64 * 64 - total)).setRun (0 : Nat) reserved
  have size : m.groups.size = (total + 63) / 64 := by simp [m, blank]
  have capacity : m.capacity = total := by simp [m, blank]
  have bound : total ≤ (total + 63) / 64 * 64 := by omega
  have test (s : Nat) : m.test s =
      (decide (total ≤ s ∧ s < (total + 63) / 64 * 64) || decide (s < reserved)) := by
    have zero : blank.test s = false := by
      have word : blank.groups.getD (s / 64) 0 = 0 := by
        simp only [blank, Array.getD_eq_getD_getElem?, Array.getElem?_replicate]
        split <;> rfl
      rw [test_eq, word]
      simp
    rw [test_setRun _ (by simp [blank]; omega), test_setRun _ (by simp [blank]; omega), zero]
    rw [Bool.eq_iff_iff]
    simp only [Bool.or_eq_true, decide_eq_true_eq, Bool.false_eq_true, Nat.zero_le, Nat.zero_add,
      true_and, false_or, Nat.add_sub_cancel' bound]
  have isAllocated (s : Nat) : m.isAllocated s = true ↔ s < reserved := by
    rw [isAllocated_iff, test, capacity]
    simp only [Bool.or_eq_true, decide_eq_true_eq]
    omega
  have unused_eq : m.unused = Finset.range total \ Finset.range reserved := by
    ext s
    rw [mem_unused, ← Bool.not_eq_true, isAllocated, capacity]
    simp
  refine ⟨m, ?_, ⟨?_, ?_, ?_⟩, capacity, isAllocated⟩
  · simp only [new, if_neg (Nat.ne_of_gt positive), if_neg (Nat.not_lt.mpr fits)]
    rfl
  · rw [size, capacity]
  · intro s past below
    rw [capacity] at past
    rw [size] at below
    rw [test]
    simp [past, below]
  · rw [unused_eq, Finset.card_sdiff_of_subset (Finset.range_subset_range.mpr fits)]
    simp [m, blank]

end SpaceMap

end InodeVolume
