import InodeVolume.Proofs.Space.History

/-!
# The reserved prefix

The first sectors of a new map are in use from the start, and only a release changes
that: as long as nobody releases them, none of them is handed out. To the map they are
sectors in use like all others, so a release that reaches into the prefix is obeyed,
and what it gives back is handed out again, the null sector too.
-/

namespace InodeVolume

namespace SpaceMap

/-- One of the calls gave the sector back. -/
def Released (calls : List AllocatorCall) (t : Sector) : Prop :=
  ∃ s count, .released s count ∈ calls ∧ s ≤ t ∧ t < s + count

theorem Released.cons {calls : List AllocatorCall} {t : Sector} (h : Released calls t)
    (call : AllocatorCall) : Released (call :: calls) t := by
  obtain ⟨s, count, member, run⟩ := h
  exact ⟨s, count, List.mem_cons_of_mem call member, run⟩

/-- A reserved sector that was never given back is in use. -/
theorem mem_inUse_of_reserved {reserved : Nat} {calls : List AllocatorCall} {t : Sector}
    (low : t < reserved) (held : ¬ Released calls t) : t ∈ inUse reserved calls := by
  induction calls with
  | nil => exact Finset.mem_range.mpr low
  | cons call earlier ih =>
    have before : t ∈ inUse reserved earlier := ih fun released => held (released.cons call)
    match call with
    | .allocated none _ => exact before
    | .allocated (some _) _ => exact Finset.mem_union_left _ before
    | .released s count =>
      refine Finset.mem_sdiff.mpr ⟨before, fun run => held ?_⟩
      exact ⟨s, count, List.mem_cons_self, Finset.mem_Ico.mp run⟩

theorem Records.notMem_of_allocate {m m' : SpaceMap} {total count s t : Nat} {used : Finset Nat}
    (h : m.Records total used) (done : m.allocate count = .ok (some s, m')) (above : s ≤ t)
    (below : t < s + count) : t ∉ used := by
  have positive : 0 < count := by omega
  rcases allocate_eq h.sound positive with ⟨answered, _⟩ | ⟨s', m'', answered, vacant, _, _⟩
  · rw [answered] at done
    cases done
  · rw [answered] at done
    cases done
    have fits := (h.vacant_iff count s).mp vacant
    exact Finset.disjoint_left.mp fits.2 (Finset.mem_Ico.mpr ⟨above, below⟩)

theorem exists_records {total reserved : Nat} (positive : 1 ≤ reserved) (fits : reserved ≤ total) :
    ∃ m₀, new total reserved = .ok m₀ ∧ ∀ calls m, History m₀ calls m →
      m.Records total (inUse reserved calls) := by
  obtain ⟨m₀, made, sound, capacity, isAllocated⟩ := new_eq positive fits
  refine ⟨m₀, made, fun calls m history => history.records ⟨sound, capacity, fun s => ?_⟩⟩
  rw [isAllocated, Finset.mem_range]

/-- In every history of a new map, a reserved sector is handed out only after it was given
back. While nobody gives one back, all runs start past the prefix. -/
theorem prefix_handed_out_after_release {total reserved : Nat} (positive : 1 ≤ reserved)
    (fits : reserved ≤ total) :
    ∃ m₀, new total reserved = .ok m₀ ∧ ∀ calls m, History m₀ calls m →
      ∀ count s m', m.allocate count = .ok (some s, m') →
        (∀ t, s ≤ t → t < s + count → t < reserved → Released calls t) ∧
        ((∀ t < reserved, ¬ Released calls t) → reserved ≤ s ∧ s ≠ Sector.null) := by
  obtain ⟨m₀, made, records⟩ := exists_records positive fits
  refine ⟨m₀, made, fun calls m history count s m' done => ?_⟩
  have released (t : Sector) (above : s ≤ t) (below : t < s + count) (low : t < reserved) :
      Released calls t := by
    by_contra held
    have taken := mem_inUse_of_reserved low held
    exact (records calls m history).notMem_of_allocate done above below taken
  refine ⟨released, fun kept => ?_⟩
  have some_sectors : 0 < count := by
    by_contra none
    rw [allocate, if_pos (by omega)] at done
    cases done
  have past : reserved ≤ s := by
    by_contra low
    have low := Nat.lt_of_not_le low
    exact kept s low (released s (Nat.le_refl s) (Nat.lt_add_of_pos_right some_sectors) low)
  refine ⟨past, ?_⟩
  rintro rfl
  exact absurd past (Nat.not_le.mpr positive)

/-- The run next to a prefix of three sectors is given back, and handed out again. -/
theorem prefix_handed_out_after_release_held : 1 ≤ 3 ∧ 3 ≤ 8 ∧ ∃ m₀ m m', new 8 3 = .ok m₀ ∧
    History m₀ [.released 3 2, .allocated (some 3) 2] m ∧ m.allocate 2 = .ok (some 3, m') ∧
    3 ≤ (3 : Sector) ∧ (3 : Sector) ≠ Sector.null := by
  obtain ⟨m₀, made, records⟩ := exists_records (by decide : 1 ≤ 3) (by decide : 3 ≤ 8)
  obtain ⟨m₁, taken⟩ := (records [] m₀ .start).servesFirstFit.allocate_eq 2 3 (by decide)
    (Fits.lowest ⟨by decide, by decide⟩ (by decide))
  have history := History.start.allocate taken
  obtain ⟨m, given⟩ := (records _ m₁ history).servesFirstFit.release_eq 3 2 (by decide) (by decide)
    (by decide)
  have history := history.release given
  obtain ⟨m', again⟩ := (records _ m history).servesFirstFit.allocate_eq 2 3 (by decide)
    (Fits.lowest ⟨by decide, by decide⟩ (by decide))
  obtain ⟨m₀', made', handed⟩ :=
    prefix_handed_out_after_release (by decide : 1 ≤ 3) (by decide : 3 ≤ 8)
  rw [made] at made'
  cases made'
  have untouched (t : Sector) (low : t < 3) :
      ¬ Released [.released 3 2, .allocated (some 3) 2] t := by
    rintro ⟨s, count, member, above, _⟩
    simp only [List.mem_cons, AllocatorCall.released.injEq, reduceCtorEq, List.not_mem_nil,
      or_false] at member
    obtain ⟨rfl, _⟩ := member
    exact Nat.not_le.mpr low above
  have past := (handed _ m history 2 3 m' again).2 untouched
  exact ⟨by decide, by decide, m₀, m, m', made, history, again, past⟩

/-- The reserved prefix is not safe from those who give it back: the null sector itself is
handed out. -/
theorem reserved_handed_out : ¬ ∀ total reserved : Nat, 1 ≤ reserved → reserved ≤ total →
    total ≤ UInt32.size → ∀ m₀ calls m, new total reserved = .ok m₀ → History m₀ calls m →
      ∀ count s m', m.allocate count = .ok (some s, m') → reserved ≤ s ∧ s ≠ Sector.null := by
  intro never
  obtain ⟨m₀, made, records⟩ := exists_records (by decide : 1 ≤ 1) (by decide : 1 ≤ 8)
  obtain ⟨m, given⟩ := (records [] m₀ .start).servesFirstFit.release_eq Sector.null 1 (by decide)
    (by decide) (by decide)
  have history := History.start.release given
  obtain ⟨m', handed⟩ := (records _ m history).servesFirstFit.allocate_eq 1 Sector.null (by decide)
    (Fits.lowest ⟨by decide, by decide⟩ (by decide))
  have past := never 8 1 (by decide) (by decide) (by decide) m₀ _ m made history 1 _ m' handed
  exact past.2 rfl

end SpaceMap

end InodeVolume
