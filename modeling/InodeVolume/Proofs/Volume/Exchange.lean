import InodeVolume.Proofs.Volume.Returns

/-!
# Exchanges of sectors

Whatever a program does on a volume, it gives up some sectors for others, and
what it leaves alone keeps its content. Taking a sector, giving one back and
writing to one of those at hand are steps of an exchange.
-/

namespace InodeVolume

namespace Flat

variable {α : Type} [Allocator α] [MappedAllocator α]

def map (v : Flat α) : SpaceMap := MappedAllocator.map v.allocator

/-- The map is in order, fits the volume and the pointers on disk, and never hands out
the sector that stands for none. -/
structure Ready (v : Flat α) : Prop where
  sound : v.map.Sound
  null : v.map.isAllocated Sector.null = true
  capacity_le_limit : v.map.capacity ≤ v.limit
  capacity_le : v.map.capacity ≤ UInt32.size

/-- On the way from `v` to `w`, the sectors `before` were given up for `after`. -/
structure Exchanged (v : Flat α) (before : List Sector) (w : Flat α) (after : List Sector) :
    Prop where
  limit : w.limit = v.limit
  capacity : w.map.capacity = v.map.capacity
  sound : w.map.Sound
  nodup : after.Nodup
  isAllocated (s : Sector) :
    w.map.isAllocated s = true ↔ v.map.isAllocated s = true ∧ s ∉ before ∨ s ∈ after
  fresh {s : Sector} : s ∈ after → s ∈ before ∨ v.map.isAllocated s = false
  free : w.map.free + after.length = v.map.free + before.length
  content {s : Sector} : v.map.isAllocated s = true → s ∉ before → w.content s = v.content s

variable {v w u : Flat α} {before between after : List Sector} {s : Sector}

namespace Ready

theorem lt_capacity (used : v.map.isAllocated s = true) : s < v.map.capacity :=
  (SpaceMap.isAllocated_iff.mp used).1

theorem lt_limit (h : v.Ready) (used : v.map.isAllocated s = true) : s < v.limit :=
  Nat.lt_of_lt_of_le (lt_capacity used) h.capacity_le_limit

theorem pointer (h : v.Ready) (unused : v.map.isAllocated s = false) (inside : s < v.map.capacity) :
    ∃ p, Sector.toPointer s = .ok p ∧ p ≠ 0 ∧ p.toNat = s := by
  have small : s < UInt32.size := Nat.lt_of_lt_of_le inside h.capacity_le
  have done : Sector.toPointer s = .ok (UInt32.ofNat s) := if_pos small
  refine ⟨_, done, ?_, Sector.toNat_of_toPointer done⟩
  intro zero
  have null : s = Sector.null := by
    rw [← Sector.toNat_of_toPointer done, zero]
    rfl
  rw [null, h.null] at unused
  cases unused

theorem lt_limit_sector (h : v.Ready) : v.map.capacity < Sector.limit :=
  Nat.lt_of_le_of_lt h.capacity_le (by decide)

end Ready

namespace Exchanged

theorem refl (h : v.Ready) (nodup : before.Nodup)
    (used : ∀ s ∈ before, v.map.isAllocated s = true) : Exchanged v before v before where
  limit := rfl
  capacity := rfl
  sound := h.sound
  nodup := nodup
  isAllocated s := by
    by_cases member : s ∈ before
    · simp [member, used s member]
    · simp [member]
  fresh := .inl
  free := rfl
  content _ _ := rfl

/-- Nothing in use is taken but what was given up. -/
theorem notMem (h : Exchanged v before w after) (used : v.map.isAllocated s = true)
    (outside : s ∉ before) : s ∉ after := by
  intro member
  rcases h.fresh member with old | unused
  · exact outside old
  · rw [used] at unused
    cases unused

theorem trans (h : Exchanged v before w between) (h' : Exchanged w between u after) :
    Exchanged v before u after where
  limit := h'.limit.trans h.limit
  capacity := h'.capacity.trans h.capacity
  sound := h'.sound
  nodup := h'.nodup
  isAllocated s := by
    rw [h'.isAllocated, h.isAllocated]
    constructor
    · rintro (⟨⟨used, outside⟩ | inside, notBetween⟩ | member)
      · exact .inl ⟨used, outside⟩
      · exact absurd inside notBetween
      · exact .inr member
    · rintro (⟨used, outside⟩ | member)
      · exact .inl ⟨.inl ⟨used, outside⟩, h.notMem used outside⟩
      · exact .inr member
  fresh {s} member := by
    by_cases old : s ∈ before
    · exact .inl old
    right
    rcases h'.fresh member with inside | unused
    · exact (h.fresh inside).resolve_left old
    · rw [← Bool.not_eq_true] at unused ⊢
      exact fun used => unused ((h.isAllocated s).mpr (.inl ⟨used, old⟩))
  free := h'.free.trans h.free
  content {s} used outside := by
    have still : w.map.isAllocated s = true := (h.isAllocated s).mpr (.inl ⟨used, outside⟩)
    exact (h'.content still (h.notMem used outside)).trans (h.content used outside)

theorem perm (h : Exchanged v before w between) (same : between.Perm after) :
    Exchanged v before w after where
  limit := h.limit
  capacity := h.capacity
  sound := h.sound
  nodup := same.nodup_iff.mp h.nodup
  isAllocated s := by rw [h.isAllocated, same.mem_iff]
  fresh member := h.fresh (same.mem_iff.mpr member)
  free := by rw [← same.length_eq, h.free]
  content := h.content

theorem widen (h : Exchanged v [] w after) (nodup : before.Nodup)
    (used : ∀ s ∈ before, v.map.isAllocated s = true) :
    Exchanged v before w (before ++ after) where
  limit := h.limit
  capacity := h.capacity
  sound := h.sound
  nodup := by
    refine List.nodup_append.mpr ⟨nodup, h.nodup, ?_⟩
    rintro s old _ member rfl
    have unused := (h.fresh member).resolve_left List.not_mem_nil
    rw [used s old] at unused
    cases unused
  isAllocated s := by
    rw [h.isAllocated, List.mem_append]
    by_cases old : s ∈ before
    · simp [old, used s old]
    · simp [old]
  fresh {s} member := by
    rcases List.mem_append.mp member with old | new
    · exact .inl old
    · exact .inr ((h.fresh new).resolve_left List.not_mem_nil)
  free := by
    have counted := h.free
    simp only [List.length_append, List.length_nil] at counted ⊢
    omega
  content used' _ := h.content used' List.not_mem_nil

theorem ready (h : Exchanged v before w after) (ready : v.Ready) (kept : Sector.null ∉ before) :
    w.Ready where
  sound := h.sound
  null := (h.isAllocated _).mpr (.inl ⟨ready.null, kept⟩)
  capacity_le_limit := by
    rw [h.capacity, h.limit]
    exact ready.capacity_le_limit
  capacity_le := by
    rw [h.capacity]
    exact ready.capacity_le

/-- Where no sector was given up and none taken, the map is the same. -/
theorem map_eq (h : Exchanged v [] w []) (ready : v.Ready) : w.map = v.map := by
  refine ready.sound.ext h.sound h.capacity fun s => Bool.eq_iff_iff.mpr ?_
  have same := h.isAllocated s
  simpa only [List.not_mem_nil, not_false_eq_true, and_true, or_false] using same

theorem isAllocated_of_mem (h : Exchanged v before w after) (member : s ∈ after) :
    w.map.isAllocated s = true := (h.isAllocated s).mpr (.inr member)

theorem lt_capacity (h : Exchanged v before w after) (member : s ∈ after) :
    s < v.map.capacity := by
  rw [← h.capacity]
  exact Ready.lt_capacity (h.isAllocated_of_mem member)

theorem lt_limit (h : Exchanged v before w after) (ready : v.Ready) (member : s ∈ after) :
    s < w.limit := by
  rw [h.limit]
  exact Nat.lt_of_lt_of_le (h.lt_capacity member) ready.capacity_le_limit

theorem write (h : Exchanged v before w after) (member : s ∈ after) (data : Block) :
    Exchanged v before { w with content := Function.update w.content s data } after where
  limit := h.limit
  capacity := h.capacity
  sound := h.sound
  nodup := h.nodup
  isAllocated := h.isAllocated
  fresh := h.fresh
  free := h.free
  content {t} used outside := by
    have apart : t ≠ s := (ne_of_mem_of_not_mem member (h.notMem used outside)).symm
    exact (Function.update_of_ne apart _ _).trans (h.content used outside)

theorem returns_write (h : Exchanged v before w after) (ready : v.Ready) (member : s ∈ after)
    {data : Block} {post : Unit → Flat α → Prop} :
    (Program.write s data).Returns w post ↔
      post () { w with content := Function.update w.content s data } := by
  rw [Program.returns_write, and_iff_right (h.lt_limit ready member)]

theorem remap (h : Exchanged v before w after) {a : α} (same : MappedAllocator.map a = w.map) :
    Exchanged v before { w with allocator := a } after where
  limit := h.limit
  capacity := (congrArg SpaceMap.capacity same).trans h.capacity
  sound := by
    have sound := h.sound
    rwa [← same] at sound
  nodup := h.nodup
  isAllocated s := by
    have there := h.isAllocated s
    rwa [← same] at there
  fresh := h.fresh
  free := by
    rw [← h.free, ← same]
    rfl
  content := h.content

theorem take (h : Exchanged v before w after) {a : α} (unused : w.map.isAllocated s = false)
    (taken : SpaceMap.Taken w.map (MappedAllocator.map a) s) :
    Exchanged v before { w with allocator := a } (after ++ [s]) where
  limit := h.limit
  capacity := taken.capacity.trans h.capacity
  sound := taken.sound
  nodup := by
    refine List.nodup_append.mpr ⟨h.nodup, List.nodup_singleton s, ?_⟩
    rintro t member _ single rfl
    obtain rfl := List.mem_singleton.mp single
    rw [h.isAllocated_of_mem member] at unused
    cases unused
  isAllocated t := by
    refine (taken.isAllocated t).trans ?_
    rw [h.isAllocated, List.mem_append, List.mem_singleton, or_assoc]
  fresh {t} member := by
    rcases List.mem_append.mp member with old | new
    · exact h.fresh old
    · obtain rfl := List.mem_singleton.mp new
      by_cases old : t ∈ before
      · exact .inl old
      · right
        rw [← Bool.not_eq_true] at unused ⊢
        exact fun used => unused ((h.isAllocated t).mpr (.inl ⟨used, old⟩))
  free := by
    have counted := h.free
    have one : (MappedAllocator.map a).free + 1 = w.map.free := taken.free
    rw [List.length_append, List.length_singleton]
    change (MappedAllocator.map a).free + _ = _
    omega
  content := h.content

theorem give (h : Exchanged v before w (s :: after)) {a : α}
    (given : SpaceMap.GivenBack w.map (MappedAllocator.map a) s) :
    Exchanged v before { w with allocator := a } after where
  limit := h.limit
  capacity := given.capacity.trans h.capacity
  sound := given.sound
  nodup := h.nodup.of_cons
  isAllocated t := by
    have outside : s ∉ after := (List.nodup_cons.mp h.nodup).1
    refine (given.isAllocated t).trans ?_
    rw [h.isAllocated, List.mem_cons]
    constructor
    · rintro ⟨old | rfl | member, apart⟩
      · exact .inl old
      · exact absurd rfl apart
      · exact .inr member
    · rintro (⟨used, old⟩ | member)
      · exact ⟨.inl ⟨used, old⟩, List.ne_of_not_mem_cons (h.notMem used old)⟩
      · exact ⟨.inr (.inr member), fun eq => outside (eq ▸ member)⟩
  fresh member := h.fresh (List.mem_cons_of_mem s member)
  free := by
    have counted := h.free
    have one : (MappedAllocator.map a).free = w.map.free + 1 := given.free
    rw [List.length_cons] at counted
    change (MappedAllocator.map a).free + _ = _
    omega
  content := h.content

theorem returns_allocate (h : Exchanged v before w after) {post : Option Sector → Flat α → Prop}
    (short : ∀ u, Exchanged v before u after → u.content = w.content → u.map.free = 0 → post none u)
    (taken : ∀ s u, Exchanged v before u (after ++ [s]) → u.content = w.content →
      w.map.isAllocated s = false → post (some s) u) :
    Program.allocate.Returns w post := by
  rw [Program.allocate, Program.returns_ask]
  rcases SpaceMap.allocate_one h.sound with ⟨empty, done⟩ | ⟨s, m, done, _, unused, _, one⟩
  · obtain ⟨a, answered, same⟩ := MappedAllocator.allocate_of_map done
    refine ⟨none, { w with allocator := a }, ?_, short _ (h.remap same) rfl ?_⟩
    · simp only [Flat.answer, Action.step, answered]
    · exact (congrArg SpaceMap.free same).trans empty
  · obtain ⟨a, answered, rfl⟩ := MappedAllocator.allocate_of_map done
    refine ⟨some s, { w with allocator := a }, ?_, taken s _ (h.take unused one) rfl unused⟩
    simp only [Flat.answer, Action.step, answered]

theorem returns_release (h : Exchanged v before w (s :: after)) (ready : v.Ready)
    {post : Unit → Flat α → Prop}
    (given : ∀ u, Exchanged v before u after → u.content = w.content → post () u) :
    (Program.release s).Returns w post := by
  have used : w.map.isAllocated s = true := h.isAllocated_of_mem List.mem_cons_self
  have bounded : w.map.capacity < Sector.limit := h.capacity ▸ ready.lt_limit_sector
  obtain ⟨m, done, one⟩ := SpaceMap.release_one h.sound used bounded
  obtain ⟨a, answered, rfl⟩ := MappedAllocator.release_of_map done
  rw [Program.release, Program.returns_ask]
  refine ⟨(), { w with allocator := a }, ?_, given _ (h.give one) rfl⟩
  simp only [Flat.answer, Action.step, answered]
  rfl

theorem returns_releaseAll (h : Exchanged v before w after) (ready : v.Ready)
    {post : Unit → Flat α → Prop}
    (given : ∀ u, Exchanged v before u [] → u.content = w.content → post () u) :
    (after.forM Program.release).Returns w post := by
  induction after generalizing w with
  | nil => exact Program.returns_pure.mpr (given w h rfl)
  | cons s after ih =>
    change (Program.release s >>= fun _ => after.forM Program.release).Returns w post
    refine Program.returns_bind.mpr (h.returns_release ready fun u fewer same => ?_)
    exact ih fewer fun u' empty same' => given u' empty (same'.trans same)

end Exchanged

end Flat

end InodeVolume
