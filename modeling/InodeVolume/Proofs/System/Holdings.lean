import InodeVolume.Proofs.File.Lifetime
import InodeVolume.Proofs.System.Archive

/-!
# Holdings

Every sector in use is reserved or held for one home sector: a sector handed out
is held for itself, those of a file for its home. Whatever is done for one home
leaves the holdings of the others, and so the count of free sectors follows from
the sizes of the files.
-/

namespace InodeVolume

namespace Flat

variable {α : Type} {v w : Flat α} {a a' : Archive} {home s : Sector}

def recordAt (v : Flat α) (home : Sector) : Record := .decode (v.content home)

def ownedAt (v : Flat α) (home : Sector) : List Sector := (v.recordAt home).owned v.content home

def holding (v : Flat α) (a : Archive) (home : Sector) : List Sector :=
  if home ∈ a.live then v.ownedAt home else if home ∈ a.granted then [home] else []

theorem home_mem_ownedAt (v : Flat α) (home : Sector) : home ∈ v.ownedAt home := by
  rw [ownedAt, Record.owned_eq]
  exact List.mem_cons_self

theorem holding_live (live : home ∈ a.live) : v.holding a home = v.ownedAt home := if_pos live

theorem holding_granted (dead : home ∉ a.live) (granted : home ∈ a.granted) :
    v.holding a home = [home] := by
  rw [holding, if_neg dead, if_pos granted]

theorem holding_none (dead : home ∉ a.live) (denied : home ∉ a.granted) : v.holding a home = [] := by
  rw [holding, if_neg dead, if_neg denied]

theorem mem_holding_self : home ∈ v.holding a home ↔ home ∈ a.live ∨ home ∈ a.granted := by
  by_cases live : home ∈ a.live
  · simp [holding_live live, home_mem_ownedAt, live]
  · by_cases granted : home ∈ a.granted
    · simp [holding_granted live granted, granted]
    · simp [holding_none live granted, live, granted]

def held (v : Flat α) (a : Archive) : Finset Sector :=
  (a.live ∪ a.granted).biUnion fun home => (v.holding a home).toFinset

theorem mem_held : s ∈ held v a ↔ ∃ home, s ∈ v.holding a home := by
  simp only [held, Finset.mem_biUnion, List.mem_toFinset]
  constructor
  · rintro ⟨home, _, member⟩
    exact ⟨home, member⟩
  · rintro ⟨home, member⟩
    refine ⟨home, ?_, member⟩
    by_contra absent
    rw [Finset.mem_union, not_or] at absent
    rw [holding_none absent.1 absent.2] at member
    cases member

variable [Allocator α] [MappedAllocator α]

/-- The file in sector `home`, for those who see only kinds and bytes. -/
structure Shows (v : Flat α) (home : Sector) (f : File) : Prop where
  stores : v.Stores home (v.recordAt home)
  tag : (v.recordAt home).tag = f.kind.tag
  bytes : (v.recordAt home).bytes v.content = f.bytes

namespace Shows

variable {f : File}

theorem size (h : v.Shows home f) : (v.recordAt home).size = f.size := by
  rw [File.size, ← h.bytes, Record.length_bytes]

theorem length_ownedAt (h : v.Shows home f) : (v.ownedAt home).length = f.sectorCount := by
  rw [ownedAt, h.stores.sound.length_owned, h.size, File.sectorCount]

theorem of_stores {r : Record} (h : v.Stores home r) (tag : r.tag = f.kind.tag)
    (bytes : r.bytes v.content = f.bytes) : v.Shows home f := by
  obtain rfl := h.record
  exact ⟨h, tag, bytes⟩

end Shows

/-- The volume is what the archive is to look like: it shows the files, and its sectors
in use are those reserved and those held. -/
structure Keeps (v : Flat α) (a : Archive) : Prop where
  ready : v.Ready
  capacity : v.map.capacity = a.total
  positive : 0 < a.reserved
  reserved_le : a.reserved ≤ a.total
  disjoint : Disjoint a.granted a.live
  files {home : Sector} : home ∈ a.live → v.Shows home (a.file home)
  apart {home home' : Sector} : home ≠ home' → (v.holding a home).Disjoint (v.holding a home')
  above {home s : Sector} : s ∈ v.holding a home → a.reserved ≤ s
  isAllocated (s : Sector) :
    v.map.isAllocated s = true ↔ s < a.reserved ∨ ∃ home, s ∈ v.holding a home

namespace Keeps

theorem empty {v : Flat α} {total reserved : Nat} (sound : v.map.Sound)
    (capacity : v.map.capacity = total) (enough : total ≤ v.limit) (small : total ≤ UInt32.size)
    (positive : 0 < reserved) (fits : reserved ≤ total)
    (isAllocated : ∀ s, v.map.isAllocated s = true ↔ s < reserved) :
    v.Keeps { total, reserved } := by
  have unheld (home : Sector) : v.holding { total, reserved } home = [] :=
    holding_none (Finset.notMem_empty _) (Finset.notMem_empty _)
  refine ⟨⟨sound, (isAllocated _).mpr positive, ?_, ?_⟩, capacity, positive, fits,
    Finset.disjoint_empty_left _, ?_, ?_, ?_, ?_⟩
  · exact capacity ▸ enough
  · exact capacity ▸ small
  · intro home live
    exact absurd live (Finset.notMem_empty _)
  · intro home home' _
    rw [unheld]
    exact List.disjoint_nil_left _
  · intro home s member
    rw [unheld] at member
    cases member
  · intro s
    simp [isAllocated, unheld]

theorem of_new {v : Flat α} {total reserved : Nat} (made : SpaceMap.new total reserved = .ok v.map)
    (enough : total ≤ v.limit) (small : total ≤ UInt32.size) : v.Keeps { total, reserved } := by
  obtain ⟨positive, fits⟩ := SpaceMap.bounds_of_new made
  obtain ⟨m, made', sound, capacity, isAllocated⟩ := SpaceMap.new_eq positive fits
  rw [made] at made'
  cases made'
  exact .empty sound capacity enough small positive fits isAllocated

theorem withOpenings (h : v.Keeps a) (openings : InodeId → Option Opening) :
    v.Keeps { a with openings } :=
  ⟨h.ready, h.capacity, h.positive, h.reserved_le, h.disjoint, h.files, h.apart, h.above,
    h.isAllocated⟩

theorem used (h : v.Keeps a) (member : s ∈ v.holding a home) : v.map.isAllocated s = true :=
  (h.isAllocated s).mpr (.inr ⟨home, member⟩)

theorem ne_null (h : v.Keeps a) (member : s ∈ v.holding a home) : s ≠ Sector.null := by
  rintro rfl
  exact absurd (h.above member) (Nat.not_le.mpr h.positive)

theorem null_unheld (h : v.Keeps a) (w : Flat α) : w.holding a Sector.null = [] := by
  have unnamed : Sector.null ∉ v.holding a Sector.null := fun member => h.ne_null member rfl
  rw [mem_holding_self, not_or] at unnamed
  exact holding_none unnamed.1 unnamed.2

theorem nodup_holding (h : v.Keeps a) (home : Sector) : (v.holding a home).Nodup := by
  by_cases live : home ∈ a.live
  · rw [holding_live live]
    exact (h.files live).stores.sound.nodup
  · rw [holding, if_neg live]
    split <;> simp

section Frame

variable (h : v.Keeps a) (exchanged : v.Exchanged (v.holding a home) w (w.holding a' home))

include h exchanged

theorem frame {s : Sector} (live : s ∈ a.live) (other : s ≠ home) :
    w.Shows s (a.file s) ∧ w.recordAt s = v.recordAt s ∧ w.ownedAt s = v.ownedAt s := by
  have stores := (h.files live).stores
  have apart (t : Sector) (member : t ∈ (v.recordAt s).owned v.content s) :
      t ∉ v.holding a home := by
    rw [← ownedAt, ← holding_live live] at member
    exact h.apart other member
  have same : w.recordAt s = v.recordAt s := (stores.frame exchanged apart).record
  refine ⟨⟨?_, ?_, ?_⟩, same, ?_⟩
  · rw [same]
    exact stores.frame exchanged apart
  · rw [same, (h.files live).tag]
  · rw [same, stores.bytes_eq exchanged apart, (h.files live).bytes]
  · rw [ownedAt, same, stores.owned_eq exchanged apart, ownedAt]

variable (same : a.SameBut home a')

include same

theorem holding_of_ne {s : Sector} (other : s ≠ home) : w.holding a' s = v.holding a s := by
  by_cases live : s ∈ a.live
  · have live' : s ∈ a'.live := (same.live other).mpr live
    rw [holding_live live, holding_live live', (h.frame exchanged live other).2.2]
  · simp only [holding, same.live other, same.granted other, if_neg live]

theorem apart_exchanged {s t : Sector} (differ : s ≠ t) :
    (w.holding a' s).Disjoint (w.holding a' t) := by
  have beside {s x : Sector} (other : s ≠ home) (member : x ∈ v.holding a s) :
      x ∉ w.holding a' home := exchanged.notMem (h.used member) (h.apart other member)
  intro x left right
  by_cases first : s = home
  · subst first
    rw [h.holding_of_ne exchanged same (Ne.symm differ)] at right
    exact beside (Ne.symm differ) right left
  · rw [h.holding_of_ne exchanged same first] at left
    by_cases second : t = home
    · subst second
      exact beside differ left right
    · rw [h.holding_of_ne exchanged same second] at right
      exact h.apart differ left right

theorem above_exchanged {s x : Sector} (member : x ∈ w.holding a' s) : a.reserved ≤ x := by
  by_cases at_home : s = home
  · subst at_home
    rcases exchanged.fresh member with old | unused
    · exact h.above old
    · by_contra low
      rw [(h.isAllocated x).mpr (.inl (Nat.lt_of_not_le low))] at unused
      cases unused
  · rw [h.holding_of_ne exchanged same at_home] at member
    exact h.above member

theorem isAllocated_exchanged (x : Sector) :
    w.map.isAllocated x = true ↔ x < a.reserved ∨ ∃ s, x ∈ w.holding a' s := by
  rw [exchanged.isAllocated, h.isAllocated]
  constructor
  · rintro (⟨low | ⟨s, member⟩, outside⟩ | member)
    · exact .inl low
    · have other : s ≠ home := by
        rintro rfl
        exact outside member
      rw [← h.holding_of_ne exchanged same other] at member
      exact .inr ⟨s, member⟩
    · exact .inr ⟨home, member⟩
  · rintro (low | ⟨s, member⟩)
    · exact .inl ⟨.inl low, fun member => Nat.not_le.mpr low (h.above member)⟩
    · by_cases at_home : s = home
      · exact .inr (at_home ▸ member)
      · rw [h.holding_of_ne exchanged same at_home] at member
        exact .inl ⟨.inr ⟨s, member⟩, h.apart at_home member⟩

/-- What is done for one home sector has to be right only there. -/
theorem exchange (disjoint : Disjoint a'.granted a'.live)
    (here : home ∈ a'.live → w.Shows home (a'.file home)) : w.Keeps a' where
  ready := exchanged.ready h.ready fun member => h.ne_null member rfl
  capacity := by rw [exchanged.capacity, h.capacity, same.total]
  positive := same.reserved ▸ h.positive
  reserved_le := by
    rw [same.reserved, same.total]
    exact h.reserved_le
  disjoint := disjoint
  files {s} live := by
    by_cases at_home : s = home
    · subst at_home
      exact here live
    · rw [same.file at_home]
      exact (h.frame exchanged ((same.live at_home).mp live) at_home).1
  apart := h.apart_exchanged exchanged same
  above member := by
    rw [same.reserved]
    exact h.above_exchanged exchanged same member
  isAllocated x := by
    rw [same.reserved]
    exact h.isAllocated_exchanged exchanged same x

end Frame

/-- Sectors that were taken and given back again are as if nothing had happened. -/
theorem nothing (h : v.Keeps a) (exchanged : v.Exchanged [] w []) : w.Keeps a := by
  have exchanged : v.Exchanged (v.holding a Sector.null) w (w.holding a Sector.null) := by
    rw [h.null_unheld v, h.null_unheld w]
    exact exchanged
  refine h.exchange exchanged (.refl a _) h.disjoint fun live => ?_
  exact absurd rfl (h.ne_null (mem_holding_self.mpr (.inl live)))

theorem length_holding (h : v.Keeps a) (home : Sector) : (v.holding a home).length =
    (if home ∈ a.live then (a.file home).sectorCount else 0) + if home ∈ a.granted then 1 else 0 := by
  by_cases live : home ∈ a.live
  · have denied : home ∉ a.granted := Finset.disjoint_right.mp h.disjoint live
    rw [holding_live live, (h.files live).length_ownedAt, if_pos live, if_neg denied, Nat.add_zero]
  · by_cases granted : home ∈ a.granted
    · rw [holding_granted live granted, if_neg live, if_pos granted]
      rfl
    · rw [holding_none live granted, if_neg live, if_neg granted]
      rfl

theorem card_held (h : v.Keeps a) :
    (held v a).card = a.granted.card + ∑ home ∈ a.live, (a.file home).sectorCount := by
  have distinct : ∀ home ∈ a.live ∪ a.granted, ∀ home' ∈ a.live ∪ a.granted, home ≠ home' →
      Disjoint (v.holding a home).toFinset (v.holding a home').toFinset := by
    intro home _ home' _ differ
    refine Finset.disjoint_left.mpr fun s left right => ?_
    exact h.apart differ (List.mem_toFinset.mp left) (List.mem_toFinset.mp right)
  rw [held, Finset.card_biUnion distinct]
  simp only [List.toFinset_card_of_nodup (h.nodup_holding _), h.length_holding, Finset.sum_add_distrib]
  rw [Finset.sum_ite_mem, Finset.sum_ite_mem, Finset.union_inter_cancel_left,
    Finset.union_inter_cancel_right, Finset.sum_const, smul_eq_mul, Nat.mul_one, Nat.add_comm]

/-- Every sector is free, reserved, handed out or in a file, and in one of them only. -/
theorem counted (h : v.Keeps a) : v.map.free + (a.reserved + a.granted.card +
    ∑ home ∈ a.live, (a.file home).sectorCount) = a.total := by
  have used_iff (s : Sector) :
      v.map.isAllocated s = true ↔ s ∈ Finset.range a.reserved ∪ held v a := by
    rw [h.isAllocated, Finset.mem_union, Finset.mem_range, mem_held]
  have inside : Finset.range a.reserved ∪ held v a ⊆ Finset.range a.total := by
    intro s member
    rw [Finset.mem_range, ← h.capacity]
    exact Ready.lt_capacity ((used_iff s).mpr member)
  have unused : v.map.unused = Finset.range a.total \ (Finset.range a.reserved ∪ held v a) := by
    ext s
    rw [SpaceMap.mem_unused, Finset.mem_sdiff, Finset.mem_range, ← used_iff, h.capacity,
      Bool.not_eq_true]
  have beside : Disjoint (Finset.range a.reserved) (held v a) := by
    refine Finset.disjoint_left.mpr fun s low member => ?_
    obtain ⟨home, held⟩ := mem_held.mp member
    exact Nat.not_le.mpr (Finset.mem_range.mp low) (h.above held)
  have bound := Finset.card_le_card inside
  have total := h.ready.sound.free
  rw [unused, Finset.card_sdiff_of_subset inside] at total
  rw [Finset.card_union_of_disjoint beside, Finset.card_range, Finset.card_range, h.card_held]
    at bound total
  omega

theorem free (h : v.Keeps a) : v.map.free = a.free := by
  have counted := h.counted
  rw [Archive.free]
  omega

end Keeps

end Flat

end InodeVolume
