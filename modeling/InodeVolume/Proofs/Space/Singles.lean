import InodeVolume.Proofs.Space.History

/-!
# Sectors one at a time

Those who take sectors one at a time get sectors that were not in use, each of them once, and
may give them back in the same way.
-/

namespace InodeVolume

/-- The calls of a volume on which sectors were given back, one at a time. -/
def releases (sectors : List Sector) : List AllocatorCall := (sectors.map (.released · 1)).reverse

def takings (sectors : List Sector) : List AllocatorCall :=
  (sectors.map fun s => .allocated (some s) 1).reverse

@[simp] theorem takings_nil : takings [] = [] := rfl

theorem takings_append (sectors more : List Sector) :
    takings (sectors ++ more) = takings more ++ takings sectors := by
  simp [takings]

theorem takings_concat (sectors : List Sector) (s : Sector) :
    takings (sectors ++ [s]) = .allocated (some s) 1 :: takings sectors :=
  takings_append sectors [s]

/-- The calls of those who take sectors until none is left, and give them all back. -/
def fruitless (held : List Sector) : List AllocatorCall :=
  releases held ++ .allocated none 1 :: takings held

namespace SpaceMap

variable {m m' m'' : SpaceMap} {sectors : List Sector}

theorem History.append {calls later : List AllocatorCall} (h : History m calls m')
    (h' : History m' later m'') : History m (later ++ calls) m'' := by
  induction h' with
  | start => exact h
  | allocate _ done ih => exact ih.allocate done
  | release _ done ih => exact ih.release done

theorem History.split {calls later : List AllocatorCall} (h : History m (later ++ calls) m'') :
    ∃ m', History m calls m' ∧ History m' later m'' := by
  induction later generalizing m'' with
  | nil => exact ⟨m'', h, .start⟩
  | cons call later ih =>
    cases h with
    | allocate before done =>
      obtain ⟨m', first, rest⟩ := ih before
      exact ⟨m', first, rest.allocate done⟩
    | release before done =>
      obtain ⟨m', first, rest⟩ := ih before
      exact ⟨m', first, rest.release done⟩

/-- The map `m'` has the sectors in use that `m` has, and those of `sectors` besides. -/
structure Took (m : SpaceMap) (sectors : List Sector) (m' : SpaceMap) : Prop where
  sound : m'.Sound
  capacity : m'.capacity = m.capacity
  nodup : sectors.Nodup
  fresh {s : Sector} : s ∈ sectors → m.isAllocated s = false
  isAllocated (s : Sector) : m'.isAllocated s = true ↔ m.isAllocated s = true ∨ s ∈ sectors

theorem History.took (h : History m (takings sectors) m') (sound : m.Sound) :
    m.Took sectors m' := by
  induction sectors using List.reverseRecOn generalizing m' with
  | nil =>
    cases h
    exact ⟨sound, rfl, List.nodup_nil, by simp, by simp⟩
  | append_singleton sectors s ih =>
    rw [takings_concat] at h
    cases h with
    | allocate before done =>
      have took := ih before
      rcases allocate_one took.sound with ⟨_, none_left⟩ | ⟨t, m₁, one, inside, unused, _, taken⟩
      · rw [done] at none_left
        cases none_left
      rw [done] at one
      cases one
      have new : s ∉ sectors := by
        intro member
        rw [(took.isAllocated s).mpr (.inr member)] at unused
        cases unused
      refine ⟨taken.sound, taken.capacity.trans took.capacity, ?_, ?_, fun t => ?_⟩
      · exact List.nodup_append.mpr ⟨took.nodup, List.nodup_singleton s, by
          rintro t member _ single rfl
          exact new (List.mem_singleton.mp single ▸ member)⟩
      · intro t member
        rcases List.mem_append.mp member with old | here
        · exact took.fresh old
        · obtain rfl := List.mem_singleton.mp here
          by_contra used
          have still := (took.isAllocated t).mpr (.inl (Bool.eq_true_of_not_eq_false used))
          rw [still] at unused
          cases unused
      · rw [taken.isAllocated, took.isAllocated, List.mem_append, List.mem_singleton, or_assoc]

structure Gave (m : SpaceMap) (sectors : List Sector) (m' : SpaceMap) : Prop where
  sound : m'.Sound
  capacity : m'.capacity = m.capacity
  isAllocated (s : Sector) : m'.isAllocated s = true ↔ m.isAllocated s = true ∧ s ∉ sectors

theorem History.gave (h : History m (releases sectors) m') (sound : m.Sound) :
    m.Gave sectors m' := by
  induction sectors generalizing m with
  | nil =>
    cases h
    exact ⟨sound, rfl, by simp⟩
  | cons s sectors ih =>
    have calls : releases (s :: sectors) = releases sectors ++ [.released s 1] := by
      simp [releases]
    rw [calls] at h
    obtain ⟨m₁, first, rest⟩ := h.split
    cases first with
    | release before done =>
      cases before
      -- The call was recorded because it returned, so the sector was in use.
      rcases release_eq sound s 1 with ⟨_, f, failed⟩ | ⟨_, m₂, released, given⟩
      · rw [failed] at done
        cases done
      rw [released] at done
      cases done
      have gave := ih rest given.sound
      refine ⟨gave.sound, gave.capacity.trans given.capacity, fun t => ?_⟩
      rw [gave.isAllocated, given.isAllocated, List.mem_cons, not_or, and_assoc]
      have here : ¬ (s ≤ t ∧ t < s + 1) ↔ ¬ t = s :=
        not_congr ⟨fun h => Nat.le_antisymm (Nat.le_of_lt_succ h.2) h.1,
          by rintro rfl; exact ⟨Nat.le_refl _, Nat.lt_succ_self _⟩⟩
      rw [here]

/-- Sectors taken in vain leave the map as it was. -/
theorem History.fruitless (h : History m (fruitless sectors) m') (sound : m.Sound) :
    m' = m ∧ ∀ s ∈ sectors, m.isAllocated s = false := by
  obtain ⟨m₁, before, back⟩ := h.split
  obtain ⟨m₂, taking, none_left⟩ : ∃ m₂, History m (takings sectors) m₂ ∧
      History m₂ [.allocated none 1] m₁ := History.split before
  have took := taking.took sound
  obtain rfl : m₁ = m₂ := by
    cases none_left with
    | allocate nothing done =>
      cases nothing
      rcases allocate_one took.sound with ⟨_, answered⟩ | ⟨s, _, answered, _⟩
      · rw [done] at answered
        cases answered
        rfl
      · rw [done] at answered
        cases answered
  have gave := back.gave took.sound
  refine ⟨sound.ext gave.sound (gave.capacity.trans took.capacity) fun s => ?_, fun s => took.fresh⟩
  rw [Bool.eq_iff_iff, gave.isAllocated, took.isAllocated]
  constructor
  · rintro ⟨used | member, outside⟩
    · exact used
    · exact absurd member outside
  · intro used
    refine ⟨.inl used, fun member => ?_⟩
    rw [took.fresh member] at used
    cases used

end SpaceMap

end InodeVolume
