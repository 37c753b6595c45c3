import InodeVolume.Proofs.System.Refinement

/-!
# Invariants

What holds on the volume at every moment of a run: no sector is in two places and
none is lost, and every file has the links that its length needs and no others,
so that following them never fails.
-/

namespace InodeVolume

theorem Archive.next_bounds (a : Archive) (op : Operation) (answer : Answer) :
    (a.next op answer).total = a.total ∧ (a.next op answer).reserved = a.reserved := by
  unfold Archive.next
  split <;> try split
  all_goals exact ⟨rfl, rfl⟩

namespace FileSystem

variable {δ α : Type} [Device δ]

theorem Run.bounds [Allocator α] {fs₀ fs : FileSystem δ α} {a₀ a : Archive} (run : Run fs₀ a₀ fs a) :
    a.total = a₀.total ∧ a.reserved = a₀.reserved := by
  induction run with
  | start => exact ⟨rfl, rfl⟩
  | step _ _ _ ih =>
    obtain ⟨total, reserved⟩ := Archive.next_bounds _ _ _
    exact ⟨total.trans ih.1, reserved.trans ih.2⟩

variable [LawfulDevice δ]

/-- Those who have a file open hold its record as it stands on the volume. -/
def Current (fs : FileSystem δ α) (a : Archive) : Prop :=
  ∀ id o, a.openings id = some o →
    o.home ∈ a.live ∧ fs.registry.inodes[id]? = some (o.inode (fs.recordAt o.home))

theorem Realizes.current [Allocator α] [MappedAllocator α] {fs : FileSystem δ α} {a : Archive}
    (h : fs.Realizes a) : fs.Current a :=
  fun _ _ found => ⟨h.represents.matched.live found, h.represents.matched.inode found⟩

section Ownership

def owned (fs : FileSystem δ α) (home : Sector) : List Sector :=
  (fs.recordAt home).owned fs.volume.cache.content home

/-- Every sector in use is reserved, handed out or owned by one file, and only once so. -/
structure Ownership (fs : FileSystem δ SpaceMap) (a : Archive) : Prop where
  nodup {home : Sector} : home ∈ a.live → (fs.owned home).Nodup
  disjoint {home home' : Sector} : home ∈ a.live → home' ∈ a.live → home ≠ home' →
    (fs.owned home).Disjoint (fs.owned home')
  above {home s : Sector} : home ∈ a.live → s ∈ fs.owned home → s ≠ Sector.null ∧ a.reserved ≤ s
  granted {s : Sector} : s ∈ a.granted →
    s ≠ Sector.null ∧ a.reserved ≤ s ∧ ∀ home ∈ a.live, s ∉ fs.owned home
  isAllocated (s : Sector) : fs.volume.allocator.isAllocated s = true ↔
    s < a.reserved ∨ s ∈ a.granted ∨ ∃ home ∈ a.live, s ∈ fs.owned home
  counted : fs.volume.allocator.free + (a.reserved + a.granted.card +
    ∑ home ∈ a.live, (fs.owned home).length) = a.total
  current : fs.Current a

theorem Realizes.ownership {fs : FileSystem δ SpaceMap} {a : Archive} (h : fs.Realizes a) :
    fs.Ownership a := by
  have keeps := h.represents.keeps
  have holding {home : Sector} (live : home ∈ a.live) :
      fs.volume.flat.holding a home = fs.owned home := Flat.holding_live live
  have apart {s : Sector} (granted : s ∈ a.granted) : s ∉ a.live :=
    Finset.disjoint_left.mp keeps.disjoint granted
  have member {s : Sector} (granted : s ∈ a.granted) : s ∈ fs.volume.flat.holding a s :=
    Flat.mem_holding_self.mpr (.inr granted)
  exact {
    nodup live := (keeps.files live).stores.sound.nodup
    disjoint live live' differ := by
      have disjoint := keeps.apart differ
      rwa [holding live, holding live'] at disjoint
    above live inside := by
      rw [← holding live] at inside
      exact ⟨keeps.ne_null inside, keeps.above inside⟩
    granted granted := by
      refine ⟨keeps.ne_null (member granted), keeps.above (member granted), fun home live inside => ?_⟩
      rw [← holding live] at inside
      exact keeps.apart (ne_of_mem_of_not_mem live (apart granted)) inside (member granted)
    isAllocated s := by
      refine (keeps.isAllocated s).trans (or_congr_right ⟨?_, ?_⟩)
      · rintro ⟨home, inside⟩
        by_cases live : home ∈ a.live
        · exact .inr ⟨home, live, holding live ▸ inside⟩
        by_cases granted : home ∈ a.granted
        · rw [Flat.holding_granted live granted, List.mem_singleton] at inside
          exact .inl (inside ▸ granted)
        · rw [Flat.holding_none live granted] at inside
          cases inside
      · rintro (granted | ⟨home, live, inside⟩)
        · exact ⟨s, member granted⟩
        · exact ⟨home, holding live ▸ inside⟩
    counted := by
      have lengths : ∑ home ∈ a.live, (fs.owned home).length =
          ∑ home ∈ a.live, (a.file home).sectorCount :=
        Finset.sum_congr rfl fun home live => (keeps.files live).length_ownedAt
      rw [lengths]
      exact keeps.counted
    current := h.current }

/-- In every run, each sector in use is reserved, handed out or owned by one file, and only once. -/
theorem sectors_owned_once {device : δ} {capacity total reserved : Nat}
    (healthy : LawfulDevice.Healthy device) (enough : total ≤ Device.blockCount device)
    (small : total ≤ UInt32.size) {fs₀ fs : FileSystem δ SpaceMap} {a : Archive}
    (made : new device capacity total reserved = .ok fs₀) (run : Run fs₀ { total, reserved } fs a) :
    fs.Ownership a ∧ a.total = total ∧ a.reserved = reserved :=
  ⟨(run.realizes (realizes_new healthy enough small made)).ownership, run.bounds⟩

/-- A file of 124 data sectors owns one for its table and one for its record besides, and
leaves one sector free. -/
theorem sectors_owned_once_tabled :
    LawfulDevice.Healthy (MemoryDisk.zeroed 128) ∧ 128 ≤ Device.blockCount (MemoryDisk.zeroed 128) ∧
      128 ≤ UInt32.size ∧ ∃ (fs₀ fs : FileSystem MemoryDisk SpaceMap) (a : Archive) (home : Sector),
        new (MemoryDisk.zeroed 128) 1 128 1 = .ok fs₀ ∧ Run fs₀ { total := 128, reserved := 1 } fs a ∧
        home ∈ a.live ∧ (fs.owned home).Nodup ∧ (fs.owned home).length = 126 ∧
        fs.volume.allocator.free = 1 := by
  have healthy : LawfulDevice.Healthy (MemoryDisk.zeroed 128) :=
    MemoryDisk.healthy_zeroed (by decide)
  have enough := (MemoryDisk.blockCount_zeroed 128).ge
  have small : 128 ≤ UInt32.size := by decide
  obtain ⟨fs₀, fs, a, id, home, made, run, found, live, granted, file⟩ := exists_run
  have here : home ∈ a.live := live ▸ Finset.mem_singleton_self home
  obtain ⟨ownership, total, reserved⟩ := sectors_owned_once healthy enough small made run
  have length : (fs.owned home).length = 126 := by
    have realizes := run.realizes (realizes_new healthy enough small made)
    have size : (a.file home).size = 62979 := by
      rw [file, File.size, length_overlay (by simp)]
      rfl
    refine (realizes.represents.keeps.files here).length_ownedAt.trans ?_
    rw [File.sectorCount, size]
    decide
  have counted := ownership.counted
  rw [live, Finset.sum_singleton, length, granted, Finset.card_empty, reserved, total] at counted
  exact ⟨healthy, enough, small, fs₀, fs, a, home, made, run, here, ownership.nodup here, length,
    by omega⟩

end Ownership

section Shape

def links (fs : FileSystem δ α) (home : Sector) : Links :=
  (fs.recordAt home).links fs.volume.cache.content

def dataSectors (fs : FileSystem δ α) (home : Sector) : Nat :=
  Layout.dataSectors (fs.recordAt home).size

/-- The file in sector `home` has the pointers that its length needs, and no others. -/
structure WellShaped (fs : FileSystem δ α) (home : Sector) : Prop where
  kind : (Kind.ofTag? (fs.recordAt home).tag).isSome
  size_le : (fs.recordAt home).size ≤ Layout.maxLength
  data {i : Nat} : i < Layout.maxSectors → ∃ p, Position.ofIndex? i = some p ∧
    (fs.links home (.data p) ≠ 0 ↔ i < fs.dataSectors home)
  table (b : Fin 3) :
    (fs.recordAt home).tables.get b ≠ 0 ↔ b.val < Layout.tablesNeeded (fs.dataSectors home)
  entry (b : Fin 3) :
    (fs.recordAt home).tables.get b ≠ 0 ↔ ∃ e, fs.links home (.data (.tabled b e)) ≠ 0
  tagged (b : Fin 3) : (fs.recordAt home).tables.get b ≠ 0 →
    ((fs.recordAt home).tableAt fs.volume.cache.content b).isTagged
  tail {k : Nat} : (fs.recordAt home).size ≤ k → k < fs.dataSectors home * blockSize →
    (fs.recordAt home).byteAt fs.volume.cache.content k = 0

/-- Programs that follow the pointers of the file in sector `home` return. -/
structure Followable [Allocator α] (fs : FileSystem δ α) (home : Sector) : Prop where
  load (b : Fin 3) : (fs.recordAt home).tables.get b ≠ 0 → ∃ t v,
    Volume.perform (PointerTable.load ((fs.recordAt home).tables.get b).toNat) fs.volume = .ok t v
  sectorAt (offset : Nat) : ∃ s v,
    Volume.perform ((fs.recordAt home).sectorAt offset) fs.volume = .ok s v ∧
      (s.isSome ↔ offset < (fs.recordAt home).size)
  sectors : ∃ v, Volume.perform ((fs.recordAt home).sectors home) fs.volume = .ok (fs.owned home) v
  length : (fs.owned home).length = Layout.footprint (fs.recordAt home).size + 1

variable [Allocator α] [MappedAllocator α] {fs : FileSystem δ α} {a : Archive} {home : Sector}

theorem Realizes.wellShaped (h : fs.Realizes a) (live : home ∈ a.live) : fs.WellShaped home := by
  have sound : (fs.recordAt home).Sound fs.volume.cache.content home :=
    (h.represents.keeps.files live).stores.sound
  refine ⟨sound.kind, sound.size_le, ?_, sound.filled.table, ?_, sound.tagged, sound.tail⟩
  · intro i small
    obtain ⟨p, rfl⟩ := Position.exists_index small
    exact ⟨p, p.ofIndex?_index, sound.filled.data p⟩
  · intro b
    constructor
    · intro present
      have needed := Links.lt_tablesNeeded.mp ((sound.filled.table b).mp present)
      exact ⟨0, (sound.filled.data (.tabled b 0)).mpr needed⟩
    · rintro ⟨e, present⟩ absent
      exact present (if_pos absent)

theorem Realizes.followable (h : fs.Realizes a) (live : home ∈ a.live) : fs.Followable home := by
  have keeps := h.represents.keeps
  have stores := (keeps.files live).stores
  have holds := stores.holds keeps.ready
  refine ⟨?_, ?_, ?_, stores.sound.length_owned⟩
  · intro b present
    have returns : (PointerTable.load ((fs.recordAt home).tables.get b).toNat).Returns
        fs.volume.flat fun _ _ => True :=
      (PointerTable.returns_load (holds.link (l := .table b) present)
        (stores.sound.tagged b present)).mpr trivial
    obtain ⟨t, v, done, _⟩ := Volume.perform_of_returns h.consistent returns
    exact ⟨t, v, done⟩
  · intro offset
    have returns : ((fs.recordAt home).sectorAt offset).Returns fs.volume.flat
        fun s _ => s.isSome ↔ offset < (fs.recordAt home).size := by
      by_cases inside : offset < (fs.recordAt home).size
      · obtain ⟨p, _, _, found⟩ := stores.sound.returns_sectorAt holds inside
        exact (found _).mpr (iff_of_true rfl inside)
      · exact (Record.returns_sectorAt_past (Nat.le_of_not_lt inside)).mpr
          (iff_of_false Bool.false_ne_true inside)
    obtain ⟨s, v, done, _, some_iff⟩ := Volume.perform_of_returns h.consistent returns
    exact ⟨s, v, done, some_iff⟩
  · have returns : ((fs.recordAt home).sectors home).Returns fs.volume.flat
        fun owned _ => owned = fs.owned home := (stores.sound.returns_sectors holds).mpr rfl
    obtain ⟨_, v, done, _, rfl⟩ := Volume.perform_of_returns h.consistent returns
    exact ⟨v, done⟩

/-- In every run, each file has what its length needs, whether it is open or not. -/
theorem files_well_shaped {device : δ} {capacity total reserved : Nat}
    (healthy : LawfulDevice.Healthy device) (enough : total ≤ Device.blockCount device)
    (small : total ≤ UInt32.size) {fs₀ fs : FileSystem δ SpaceMap} {a : Archive}
    (made : new device capacity total reserved = .ok fs₀) (run : Run fs₀ { total, reserved } fs a) :
    fs.Current a ∧ ∀ home ∈ a.live, fs.WellShaped home ∧ fs.Followable home := by
  have realizes := run.realizes (realizes_new healthy enough small made)
  exact ⟨realizes.current, fun home live => ⟨realizes.wellShaped live, realizes.followable live⟩⟩

/-- A file of 124 data sectors has its first table, which can be loaded, and no second. -/
theorem files_well_shaped_tabled :
    LawfulDevice.Healthy (MemoryDisk.zeroed 128) ∧ 128 ≤ Device.blockCount (MemoryDisk.zeroed 128) ∧
      128 ≤ UInt32.size ∧ ∃ (fs₀ fs : FileSystem MemoryDisk SpaceMap) (a : Archive) (home : Sector),
        new (MemoryDisk.zeroed 128) 1 128 1 = .ok fs₀ ∧ Run fs₀ { total := 128, reserved := 1 } fs a ∧
        home ∈ a.live ∧ fs.dataSectors home = 124 ∧
        (fs.recordAt home).tables.get 0 ≠ 0 ∧ (fs.recordAt home).tables.get 1 = 0 ∧
        ∃ t v, Volume.perform (PointerTable.load ((fs.recordAt home).tables.get 0).toNat)
          fs.volume = .ok t v := by
  have healthy : LawfulDevice.Healthy (MemoryDisk.zeroed 128) :=
    MemoryDisk.healthy_zeroed (by decide)
  have enough := (MemoryDisk.blockCount_zeroed 128).ge
  have small : 128 ≤ UInt32.size := by decide
  obtain ⟨fs₀, fs, a, id, home, made, run, found, live, _, file⟩ := exists_run
  have here : home ∈ a.live := live ▸ Finset.mem_singleton_self home
  obtain ⟨shaped, followable⟩ := (files_well_shaped healthy enough small made run).2 home here
  have sectors : fs.dataSectors home = 124 := by
    have realizes := run.realizes (realizes_new healthy enough small made)
    have size : (fs.recordAt home).size = 62979 := by
      refine (realizes.represents.keeps.files here).size.trans ?_
      rw [file, File.size, length_overlay (by simp)]
      rfl
    rw [dataSectors, size]
    decide
  have first : (fs.recordAt home).tables.get 0 ≠ 0 := by
    rw [shaped.table, sectors]
    decide
  have second : (fs.recordAt home).tables.get 1 = 0 := by
    refine not_not.mp (mt (shaped.table 1).mp ?_)
    rw [sectors]
    decide
  exact ⟨healthy, enough, small, fs₀, fs, a, home, made, run, here, sectors, first, second,
    followable.load 0 first⟩

end Shape

end FileSystem

end InodeVolume
