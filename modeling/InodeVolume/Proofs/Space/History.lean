import InodeVolume.Proofs.Space.FirstFit
import InodeVolume.Space.Allocator

/-!
# Histories of a space map

The calls that a space map has answered tell which sectors are in use. After any
history the map says the same, has counted what is left, and serves the next call
first-fit: it hands out the lowest run that fits and takes back just the runs that
are in use.
-/

namespace InodeVolume

namespace SpaceMap

/-- The sectors in use after some calls, the newest of them first, where the first
`reserved` sectors were in use from the start. -/
def inUse (reserved : Nat) : List AllocatorCall → Finset Nat
  | [] => Finset.range reserved
  | .allocated (some s) count :: earlier => inUse reserved earlier ∪ Finset.Ico s (s + count)
  | .allocated none _ :: earlier => inUse reserved earlier
  | .released s count :: earlier => inUse reserved earlier \ Finset.Ico s (s + count)

/-- The map `m` is what `m₀` becomes by calls that all returned, the newest of them first. -/
inductive History (m₀ : SpaceMap) : List AllocatorCall → SpaceMap → Prop where
  | start : History m₀ [] m₀
  | allocate {calls : List AllocatorCall} {m m' : SpaceMap} {count : Nat} {s : Option Sector} :
      History m₀ calls m → m.allocate count = .ok (s, m') →
        History m₀ (.allocated s count :: calls) m'
  | release {calls : List AllocatorCall} {m m' : SpaceMap} {s : Sector} {count : Nat} :
      History m₀ calls m → m.release s count = .ok m' →
        History m₀ (.released s count :: calls) m'

/-- The map has the sectors of `used` in use, of `total` sectors altogether. -/
structure Records (m : SpaceMap) (total : Nat) (used : Finset Nat) : Prop where
  sound : m.Sound
  capacity : m.capacity = total
  isAllocated (s : Nat) : m.isAllocated s = true ↔ s ∈ used

def Fits (total : Nat) (used : Finset Nat) (count s : Nat) : Prop :=
  s + count ≤ total ∧ Disjoint (Finset.Ico s (s + count)) used

/-- The map serves those who need sectors below `total` that are not in `used`. -/
structure ServesFirstFit (m : SpaceMap) (total : Nat) (used : Finset Nat) : Prop where
  isAllocated (s : Nat) : m.isAllocated s = true ↔ s ∈ used
  inside : used ⊆ Finset.range total
  counted : m.free + used.card = total
  groups : m.groups.size = (total + 63) / 64
  padding {s : Nat} : total ≤ s → s < m.groups.size * 64 → m.test s = true
  /-- A request is answered with the lowest run that fits; if there is none, nothing changes. -/
  allocate {count : Nat} : 0 < count → ∃ answer m', m.allocate count = .ok (answer, m') ∧
    Lowest (Fits total used count) answer ∧ (answer = none → m' = m)
  /-- The search by groups finds the sector that the search by bits finds. -/
  searches : m.lowestFree = m.lowestRun 1
  release (s count : Nat) : (∃ f, m.release s count = .error f) ↔
    Sector.limit ≤ s + count ∨ total < s + count ∨ ∃ t ∈ Finset.Ico s (s + count), t ∉ used

namespace Records

variable {m m' : SpaceMap} {total count s : Nat} {used : Finset Nat}

theorem vacant_iff (h : m.Records total used) (count s : Nat) :
    m.Vacant count s ↔ Fits total used count s := by
  constructor
  · intro vacant
    refine ⟨h.capacity ▸ vacant.inside, Finset.disjoint_left.mpr fun t run member => ?_⟩
    obtain ⟨above, below⟩ := Finset.mem_Ico.mp run
    have free := vacant.isAllocated above below
    rw [(h.isAllocated t).mpr member] at free
    cases free
  · rintro ⟨inside, apart⟩
    refine ⟨h.capacity ▸ inside, fun {t} above below => ?_⟩
    have unused : t ∉ used := Finset.disjoint_left.mp apart (Finset.mem_Ico.mpr ⟨above, below⟩)
    have below_capacity : t < m.capacity := by
      rw [h.capacity]
      exact Nat.lt_of_lt_of_le below inside
    by_contra set
    apply unused
    apply (h.isAllocated t).mp
    exact isAllocated_iff.mpr ⟨below_capacity, Bool.eq_true_of_not_eq_false set⟩

theorem unreleasable_iff (h : m.Records total used) (s count : Nat) :
    m.Unreleasable s count ↔ Sector.limit ≤ s + count ∨ total < s + count ∨
      ∃ t ∈ Finset.Ico s (s + count), t ∉ used := by
  have unused_iff (t : Nat) : m.isAllocated t = false ↔ t ∉ used := by
    rw [← h.isAllocated, Bool.not_eq_true]
  simp only [Unreleasable, h.capacity, unused_iff, Finset.mem_Ico, and_assoc]

theorem taken (h : m.Records total used) (taken : TakenRun m m' count s) :
    m'.Records total (used ∪ Finset.Ico s (s + count)) where
  sound := taken.sound
  capacity := taken.capacity.trans h.capacity
  isAllocated t := by
    rw [taken.isAllocated, h.isAllocated, Finset.mem_union, Finset.mem_Ico]

theorem given (h : m.Records total used) (given : GivenRun m m' count s) :
    m'.Records total (used \ Finset.Ico s (s + count)) where
  sound := given.sound
  capacity := given.capacity.trans h.capacity
  isAllocated t := by
    rw [given.isAllocated, h.isAllocated, Finset.mem_sdiff, Finset.mem_Ico]

theorem inside (h : m.Records total used) : used ⊆ Finset.range total := by
  intro s member
  have below := (isAllocated_iff.mp ((h.isAllocated s).mpr member)).1
  exact Finset.mem_range.mpr (h.capacity ▸ below)

theorem allocate_ok (h : m.Records total used) {answer : Option Sector}
    (done : m.allocate count = .ok (answer, m')) :
    answer = none ∧ m' = m ∨ ∃ s, answer = some s ∧ TakenRun m m' count s := by
  have positive : 0 < count := by
    by_contra zero
    rw [allocate, if_pos (by omega)] at done
    cases done
  rcases allocate_eq h.sound positive with ⟨answered, _⟩ | ⟨s, m'', answered, _, _, taken⟩
  · rw [answered] at done
    cases done
    exact .inl ⟨rfl, rfl⟩
  · rw [answered] at done
    cases done
    exact .inr ⟨s, rfl, taken⟩

theorem release_ok (h : m.Records total used) (done : m.release s count = .ok m') :
    m'.Records total (used \ Finset.Ico s (s + count)) := by
  rcases release_eq h.sound s count with ⟨_, f, failed⟩ | ⟨_, m'', released, given⟩
  · rw [failed] at done
    cases done
  · rw [released] at done
    cases done
    exact h.given given

theorem servesFirstFit (h : m.Records total used) : m.ServesFirstFit total used where
  isAllocated := h.isAllocated
  inside := h.inside
  counted := by
    have unused : m.unused = Finset.range total \ used := by
      ext s
      rw [mem_unused, h.capacity, Finset.mem_sdiff, Finset.mem_range, ← h.isAllocated,
        Bool.not_eq_true]
    have bound := Finset.card_le_card h.inside
    have left := Finset.card_sdiff_of_subset h.inside
    rw [Finset.card_range] at bound left
    rw [h.sound.free, unused]
    omega
  groups := h.capacity ▸ h.sound.size
  padding past below := h.sound.padding (h.capacity ▸ past) below
  allocate {count} positive := by
    rcases allocate_eq h.sound positive with ⟨done, full⟩ | ⟨s, m', done, vacant, lowest, _⟩
    · refine ⟨none, m, done, ?_, fun _ => rfl⟩
      exact fun s fits => full s ((h.vacant_iff count s).mpr fits)
    · refine ⟨some s, m', done, ⟨(h.vacant_iff count s).mp vacant, fun t fits => ?_⟩, nofun⟩
      exact lowest t ((h.vacant_iff count t).mpr fits)
  searches := by
    have byGroups := lowest_lowestFree h.sound.capacity_le fun _ past below => h.sound.padding past below
    exact byGroups.unique (lowest_lowestRun Nat.one_pos)
  release s count := by
    rw [← h.unreleasable_iff]
    rcases release_eq h.sound s count with ⟨unreleasable, f, failed⟩ | ⟨releasable, m', done, _⟩
    · exact iff_of_true ⟨f, failed⟩ unreleasable
    · refine iff_of_false ?_ releasable
      rintro ⟨f, failed⟩
      rw [done] at failed
      cases failed

end Records

theorem History.records {m₀ m : SpaceMap} {calls : List AllocatorCall} {total reserved : Nat}
    (history : History m₀ calls m) (start : m₀.Records total (Finset.range reserved)) :
    m.Records total (inUse reserved calls) := by
  induction history with
  | start => exact start
  | allocate _ done ih =>
    rcases ih.allocate_ok done with ⟨rfl, rfl⟩ | ⟨s, rfl, taken⟩
    · exact ih
    · exact ih.taken taken
  | release _ done ih => exact ih.release_ok done

/-- After any history of a new map, it serves first-fit from the sectors that the history
leaves unused. -/
theorem first_fit {total reserved : Nat} (positive : 1 ≤ reserved) (fits : reserved ≤ total) :
    ∃ m₀, new total reserved = .ok m₀ ∧ ∀ calls m, History m₀ calls m →
      m.ServesFirstFit total (inUse reserved calls) := by
  obtain ⟨m₀, made, sound, capacity, isAllocated⟩ := new_eq positive fits
  have start : m₀.Records total (Finset.range reserved) := by
    refine ⟨sound, capacity, fun s => ?_⟩
    rw [isAllocated, Finset.mem_range]
  refine ⟨m₀, made, fun calls m history => ?_⟩
  exact (history.records start).servesFirstFit

theorem Fits.lowest {total count s : Nat} {used : Finset Nat} (fits : Fits total used count s)
    (hit : ∀ t < s, ∃ x ∈ used, t ≤ x ∧ x < t + count) : Lowest (Fits total used count) (some s) := by
  refine ⟨fits, fun t earlier => ?_⟩
  by_contra before
  obtain ⟨x, member, above, below⟩ := hit t (Nat.lt_of_not_le before)
  exact Finset.disjoint_left.mp earlier.2 (Finset.mem_Ico.mpr ⟨above, below⟩) member

theorem ServesFirstFit.allocate_eq {m : SpaceMap} {total : Nat} {used : Finset Nat}
    (h : m.ServesFirstFit total used) (count s : Nat) (positive : 0 < count)
    (lowest : Lowest (Fits total used count) (some s)) : ∃ m', m.allocate count = .ok (some s, m') := by
  obtain ⟨answer, m', done, found, _⟩ := h.allocate positive
  rw [found.unique lowest] at done
  exact ⟨m', done⟩

theorem ServesFirstFit.release_eq {m : SpaceMap} {total : Nat} {used : Finset Nat}
    (h : m.ServesFirstFit total used) (s count : Nat) (short : s + count < Sector.limit)
    (inside : s + count ≤ total) (taken : Finset.Ico s (s + count) ⊆ used) :
    ∃ m', m.release s count = .ok m' := by
  cases released : m.release s count with
  | ok m' => exact ⟨m', rfl⟩
  | error f =>
    rcases (h.release s count).mp ⟨f, released⟩ with long | past | ⟨t, run, unused⟩
    · exact absurd short (Nat.not_lt.mpr long)
    · exact absurd inside (Nat.not_le.mpr past)
    · exact absurd (taken run) unused

/-- The three sectors before the one in use leave too little room for four: these come from
behind it. -/
theorem first_fit_behind_hole : 1 ≤ 1 ∧ 1 ≤ 70 ∧ ∃ m₀ m m', new 70 1 = .ok m₀ ∧
    History m₀ [.released 1 3, .allocated (some 4) 1, .allocated (some 1) 3] m ∧
    m.free = 68 ∧ m.allocate 4 = .ok (some 5, m') := by
  obtain ⟨m₀, made, serves⟩ := first_fit (Nat.le_refl 1) (by decide : 1 ≤ 70)
  obtain ⟨m₁, first⟩ := (serves [] m₀ .start).allocate_eq 3 1 (by decide)
    (Fits.lowest ⟨by decide, by decide⟩ (by decide))
  have history := History.start.allocate first
  obtain ⟨m₂, second⟩ := (serves _ m₁ history).allocate_eq 1 4 (by decide)
    (Fits.lowest ⟨by decide, by decide⟩ (by decide))
  have history := history.allocate second
  obtain ⟨m, third⟩ := (serves _ m₂ history).release_eq 1 3 (by decide) (by decide) (by decide)
  have history := history.release third
  have served := serves _ m history
  obtain ⟨m', fourth⟩ := served.allocate_eq 4 5 (by decide)
    (Fits.lowest ⟨by decide, by decide⟩ (by decide))
  have counted := served.counted
  have used : (inUse 1 [.released 1 3, .allocated (some 4) 1, .allocated (some 1) 3]).card = 2 := by
    decide
  rw [used] at counted
  exact ⟨Nat.le_refl 1, by decide, m₀, m, m', made, history, by omega, fourth⟩

end SpaceMap

end InodeVolume
