import InodeVolume.Proofs.System.FileSystem

/-!
# Mounting

A file system is mounted on a device with a new cache, and nobody has an inode open.
Where the device holds the files of an archive, and a map the sectors in use, this
mounts a file system that realizes the archive. What a run leaves behind when it is
synced can be mounted again.
-/

namespace InodeVolume

def Archive.unopened (a : Archive) : Archive := { a with openings := fun _ => none }

namespace Flat

variable {α β : Type} [Allocator α] [MappedAllocator α] [Allocator β] [MappedAllocator β]
  {v : Flat α} {w : Flat β} {a : Archive}

theorem Ready.transfer (h : v.Ready) (limit : w.limit = v.limit) (map : w.map = v.map) : w.Ready where
  sound := map ▸ h.sound
  null := map ▸ h.null
  capacity_le_limit := by
    rw [map, limit]
    exact h.capacity_le_limit
  capacity_le := by
    rw [map]
    exact h.capacity_le

theorem Shows.transfer {home : Sector} {f : File} (h : v.Shows home f)
    (content : w.content = v.content) (map : w.map = v.map) : w.Shows home f := by
  have record : w.recordAt home = v.recordAt home := by
    rw [recordAt, content, recordAt]
  refine ⟨⟨h.stores.home_ne_null, rfl, ?_, ?_⟩, ?_, ?_⟩
  · rw [record, content]
    exact h.stores.sound
  · rw [record, content, map]
    exact h.stores.used
  · rw [record]
    exact h.tag
  · rw [record, content]
    exact h.bytes

theorem Keeps.transfer (h : v.Keeps a) (content : w.content = v.content) (limit : w.limit = v.limit)
    (map : w.map = v.map) : w.Keeps a := by
  have holding (home : Sector) : w.holding a home = v.holding a home := by
    simp only [Flat.holding, ownedAt, recordAt, content]
  refine ⟨h.ready.transfer limit map, ?_, h.positive, h.reserved_le, h.disjoint, ?_, ?_, ?_, ?_⟩
  · rw [map, h.capacity]
  · exact fun live => (h.files live).transfer content map
  · intro home home' differ
    rw [holding, holding]
    exact h.apart differ
  · intro home s member
    rw [holding] at member
    exact h.above member
  · intro s
    simp only [map, holding, h.isAllocated]

end Flat

namespace FileSystem

variable {δ α : Type}

/-- A file system with a new cache and no open inode. -/
def mount (device : δ) (capacity : Nat) (allocator : α) : Except Fault (FileSystem δ α) := do
  let cache ← Cache.new device capacity
  return { volume := ⟨cache, allocator⟩ }

theorem mount_of_new {device : δ} {capacity total reserved : Nat} {fs : FileSystem δ SpaceMap}
    (made : new device capacity total reserved = .ok fs) :
    ∃ map, SpaceMap.new total reserved = .ok map ∧ mount device capacity map = .ok fs := by
  obtain ⟨cache, map, cached, mapped, rfl⟩ := eq_of_new made
  refine ⟨map, mapped, ?_⟩
  rw [mount, cached]
  rfl

variable [Device δ]

/-- What can be mounted as an archive that nobody has opened: a device with a new map, or what
a mounted file system leaves behind when it is synced. -/
inductive Mountable [LawfulDevice δ] : δ → SpaceMap → Archive → Prop where
  | blank {device : δ} {map : SpaceMap} {total reserved : Nat} :
    LawfulDevice.Healthy device → total ≤ Device.blockCount device → total ≤ UInt32.size →
      SpaceMap.new total reserved = .ok map → Mountable device map { total, reserved }
  | synced {device : δ} {map : SpaceMap} {a₀ a : Archive} {capacity : Nat}
    {fs₀ fs fs' : FileSystem δ SpaceMap} :
    Mountable device map a₀ → mount device capacity map = .ok fs₀ → Run fs₀ a₀ fs a →
      perform .sync fs = .ok .nothing fs' →
        Mountable fs'.volume.cache.device fs'.volume.allocator a.unopened

variable [LawfulDevice δ]

/-- The volume that a device shows before anything is cached. -/
def bare (device : δ) (allocator : α) : Flat α :=
  ⟨LawfulDevice.content device, Device.blockCount device, allocator⟩

theorem mount_eq {device : δ} (healthy : LawfulDevice.Healthy device) {capacity : Nat}
    (positive : 0 < capacity) (allocator : α) :
    ∃ fs, mount device capacity allocator = .ok fs ∧ fs.SimulatesFlat {} (bare device allocator) := by
  obtain ⟨cache, made, consistent, shows, _, same⟩ := Cache.new_eq healthy positive
  refine ⟨{ volume := ⟨cache, allocator⟩ }, ?_, consistent, rfl, ?_⟩
  · rw [mount, made]
    rfl
  · rw [Volume.flat, shows, same, bare]

theorem simulatesFlat_of_mount {device : δ} (healthy : LawfulDevice.Healthy device) {capacity : Nat}
    {allocator : α} {fs : FileSystem δ α} (mounted : mount device capacity allocator = .ok fs) :
    fs.SimulatesFlat {} (bare device allocator) := by
  have positive : 0 < capacity := by
    cases made : Cache.new device capacity with
    | error f =>
      rw [mount, made] at mounted
      cases mounted
    | ok cache => exact Cache.positive_of_new made
  obtain ⟨fs', mounted', simulates⟩ := mount_eq healthy positive allocator
  rw [mounted] at mounted'
  cases mounted'
  exact simulates

/-- A file system that is synced has all that its cache shows on its device. -/
structure Synced (fs fs' : FileSystem δ α) : Prop where
  simulates : fs'.SimulatesFlat fs.registry fs.volume.flat
  device : bare fs'.volume.cache.device fs'.volume.allocator = fs.volume.flat

theorem sync_eq [Allocator α] {fs : FileSystem δ α} (h : fs.volume.cache.Consistent) :
    ∃ fs', perform .sync fs = .ok .nothing fs' ∧ Synced fs fs' := by
  obtain ⟨c, ran, kept, _, saved⟩ := Cache.drain_eq h
  obtain ⟨fs', moved, rfl, simulates⟩ := onCache_flat fs ran kept
  refine ⟨fs', by rw [perform, Action.bind_ok moved]; rfl, simulates, ?_⟩
  rw [bare, saved, kept.blockCount]
  exact congrArg (Flat.mk _ _) (congrArg Flat.allocator simulates.flat)

/-- A device and a map hold the files and the sectors of an archive that nobody has opened. -/
structure HoldsArchive (device : δ) (map : SpaceMap) (a : Archive) : Prop where
  healthy : LawfulDevice.Healthy device
  unopened (id : InodeId) : a.openings id = none
  keeps : (bare device map).Keeps a

theorem HoldsArchive.realizes [Allocator α] [MappedAllocator α] {device : δ} {allocator : α}
    {a : Archive} (h : HoldsArchive device (MappedAllocator.map allocator) a) {fs : FileSystem δ α}
    (simulates : fs.SimulatesFlat {} (bare device allocator)) : fs.Realizes a :=
  simulates.realizes ⟨h.keeps.transfer rfl rfl rfl, .empty _ h.unopened⟩

theorem Realizes.holdsArchive {fs fs' : FileSystem δ SpaceMap} {a : Archive} (h : fs.Realizes a)
    (synced : Synced fs fs') :
    HoldsArchive fs'.volume.cache.device fs'.volume.allocator a.unopened where
  healthy := synced.simulates.consistent.healthy
  unopened _ := rfl
  keeps := by
    rw [synced.device]
    exact h.represents.keeps.withOpenings _

theorem Mountable.holdsArchive {device : δ} {map : SpaceMap} {a : Archive}
    (h : Mountable device map a) : HoldsArchive device map a := by
  induction h with
  | blank healthy enough small made =>
    exact ⟨healthy, fun _ => rfl, .of_new made enough small⟩
  | synced _ mounted run synced ih =>
    have realizes := run.realizes (ih.realizes (simulatesFlat_of_mount ih.healthy mounted))
    obtain ⟨fs', done, saved⟩ := sync_eq realizes.consistent
    rw [synced] at done
    cases done
    exact realizes.holdsArchive saved

/-- A blank disk was mounted, with a ledger, and an empty file was created there and opened. -/
structure Started (count : Nat) (map : SpaceMap) (fs₀ fs : FileSystem MemoryDisk (Ledger SpaceMap))
    (a : Archive) (home : Sector) (id : InodeId) : Prop where
  healthy : LawfulDevice.Healthy (MemoryDisk.zeroed count)
  enough : count ≤ Device.blockCount (MemoryDisk.zeroed count)
  made : SpaceMap.new count 1 = .ok map
  mounted : mount (MemoryDisk.zeroed count) 1 ⟨map, []⟩ = .ok fs₀
  run : Run fs₀ { total := count, reserved := 1 } fs a
  realizes : fs.Realizes a
  occupied : a.Occupied count home id

theorem exists_started {count : Nat} (room : 1 < count) (small : count ≤ UInt32.size) :
    ∃ map fs₀ fs a home id, Started count map fs₀ fs a home id := by
  have healthy : LawfulDevice.Healthy (MemoryDisk.zeroed count) :=
    MemoryDisk.healthy_zeroed (Nat.lt_of_le_of_lt small (by decide))
  have enough := (MemoryDisk.blockCount_zeroed count).ge
  obtain ⟨map, made, _⟩ := SpaceMap.new_eq Nat.zero_lt_one (Nat.le_of_lt room)
  have mountable : Mountable (MemoryDisk.zeroed count) map { total := count, reserved := 1 } :=
    .blank healthy enough small made
  obtain ⟨fs₀, mounted, simulates⟩ := mount_eq healthy Nat.zero_lt_one (⟨map, []⟩ : Ledger SpaceMap)
  obtain ⟨fs, a, home, id, run, realizes, occupied⟩ :=
    (mountable.holdsArchive.realizes simulates).exists_occupied .start (.new count) room
  exact ⟨map, fs₀, fs, a, home, id, healthy, enough, made, mounted, run, realizes, occupied⟩

end FileSystem

end InodeVolume
