import InodeVolume.Proofs.System.FileSystem

/-!
# Refinement

In every run of operations in order, from a new file system on, the file system
is a map from home sectors to files: what stands on the volume, as the cache
shows it, denotes the files of the archive, and every operation is answered as
the archive demands.
-/

namespace InodeVolume

namespace FileSystem

variable {δ α : Type} [Device δ] [LawfulDevice δ]

def recordAt (fs : FileSystem δ α) (home : Sector) : Record :=
  .decode (fs.volume.cache.content home)

def fileAt (fs : FileSystem δ α) (home : Sector) : Option File :=
  (Kind.ofTag? (fs.recordAt home).tag).map fun kind =>
    ⟨kind, (fs.recordAt home).bytes fs.volume.cache.content⟩

/-- The volume denotes the files of the archive, and the inodes in use are those of its
openings, with the kind and the length of their files. -/
structure Denotes (fs : FileSystem δ α) (a : Archive) : Prop where
  file {home : Sector} : home ∈ a.live → fs.fileAt home = some (a.file home)
  inode {id : InodeId} {o : Opening} : a.openings id = some o →
    ∃ r, fs.registry.inodes[id]? = some (o.inode r) ∧
      r.kind = .ok (a.file o.home).kind ∧ r.size = (a.file o.home).size

/-- Sector `s` holds the bytes that lie in one block with an offset, and zeros past their end. -/
def Holds (fs : FileSystem δ α) (s : Sector) (bytes : List UInt8) (offset : Nat) : Prop :=
  ∀ j < blockSize, (fs.volume.cache.content s).byte j =
    bytes.getD (offset / blockSize * blockSize + j) 0

theorem Realizes.holds [Allocator α] [MappedAllocator α] {fs : FileSystem δ α} {a : Archive}
    (h : fs.Realizes a) {home s : Sector} (live : home ∈ a.live) {offset : Nat}
    (leads : (fs.volume.flat.recordAt home).Leads fs.volume.cache.content offset s) :
    fs.Holds s (a.file home).bytes offset := by
  intro j small
  have shows := h.represents.keeps.files live
  rw [← shows.bytes]
  exact shows.stores.sound.byte_of_leads leads small

theorem Realizes.denotes [Allocator α] [MappedAllocator α] {fs : FileSystem δ α} {a : Archive}
    (h : fs.Realizes a) : fs.Denotes a where
  file {home} live := by
    have shows := h.represents.keeps.files live
    have tag : (fs.recordAt home).tag = (a.file home).kind.tag := shows.tag
    have bytes : (fs.recordAt home).bytes fs.volume.cache.content = (a.file home).bytes := shows.bytes
    rw [fileAt, tag, Kind.ofTag?_tag, bytes]
    rfl
  inode {id o} found := by
    have shows := h.represents.keeps.files (h.represents.matched.live found)
    refine ⟨_, h.represents.matched.inode found, ?_, shows.size⟩
    rw [Record.kind, shows.tag, Kind.ofTag?_tag]

/-- In every run, each operation in order returns with a right answer and leaves files as the
archive has them; a sector that was located is that of the data. -/
theorem refines_archive {device : δ} {capacity total reserved : Nat}
    (healthy : LawfulDevice.Healthy device) (enough : total ≤ Device.blockCount device)
    (small : total ≤ UInt32.size) {fs₀ fs : FileSystem δ SpaceMap} {a : Archive}
    (made : new device capacity total reserved = .ok fs₀) (run : Run fs₀ { total, reserved } fs a) :
    fs.Denotes a ∧ ∀ op, a.Allows op → ∃ answer fs', perform op fs = .ok answer fs' ∧
      a.Admits op answer ∧ fs'.Denotes (a.next op answer) ∧
      ∀ id offset count forWrite s, op = .locate id offset count forWrite →
        answer = .located (some s) →
        fs'.Holds s ((a.next op answer).file (a.opening id).home).bytes offset := by
  have realizes := run.realizes (realizes_new healthy enough small made)
  refine ⟨realizes.denotes, fun op allowed => ?_⟩
  obtain ⟨answer, fs', done, admitted, after⟩ := realizes.perform_eq allowed
  refine ⟨answer, fs', done, admitted, after.denotes, ?_⟩
  rintro id offset count forWrite s rfl rfl
  obtain ⟨_, _, done', _, _, leads⟩ := realizes.locate_eq allowed offset count forWrite
  rw [done] at done'
  cases done'
  obtain ⟨o, found⟩ := Option.isSome_iff_exists.mp allowed
  have live : (a.opening id).home ∈ a.live := by
    rw [Archive.opening_of_some found]
    exact realizes.represents.matched.live found
  refine after.holds ?_ (leads s rfl)
  cases forWrite <;> exact live

/-- Before the three bytes at the end of a file that was empty before, zeros are read. -/
theorem refines_archive_gap :
    LawfulDevice.Healthy (MemoryDisk.zeroed 128) ∧ 128 ≤ Device.blockCount (MemoryDisk.zeroed 128) ∧
      128 ≤ UInt32.size ∧ ∃ (fs₀ fs : FileSystem MemoryDisk SpaceMap) (a : Archive) (id : InodeId),
        new (MemoryDisk.zeroed 128) 1 128 1 = .ok fs₀ ∧ Run fs₀ { total := 128, reserved := 1 } fs a ∧
        a.Allows (.read id 62974 10) ∧
        ∃ fs', perform (.read id 62974 10) fs = .ok (.bytes [0, 0, 1, 2, 3]) fs' := by
  have healthy : LawfulDevice.Healthy (MemoryDisk.zeroed 128) :=
    MemoryDisk.healthy_zeroed (by decide)
  have enough := (MemoryDisk.blockCount_zeroed 128).ge
  have small : 128 ≤ UInt32.size := by decide
  obtain ⟨fs₀, fs, a, id, home, made, run, found, live, _, file⟩ := exists_run
  have allowed : a.Allows (.read id 62974 10) := by
    rw [Archive.Allows, found]
    rfl
  obtain ⟨answer, fs', done, admitted, _, _⟩ :=
    (refines_archive healthy enough small made run).2 (.read id 62974 10) allowed
  refine ⟨healthy, enough, small, fs₀, fs, a, id, made, run, allowed, fs', ?_⟩
  rcases answer with _ | _ | _ | _ | bytes | _ | _ <;> try exact admitted.elim
  have fileOf : a.fileOf id = ⟨.file, overlay [] 62976 [1, 2, 3]⟩ := by
    rw [Archive.fileOf_of_some found, file]
  have exactly : bytes = [0, 0, 1, 2, 3] := by
    refine Eq.trans admitted ?_
    rw [fileOf, overlay_past (Nat.zero_le _) (by simp), List.nil_append,
      List.drop_append_of_le_length (by rw [List.length_replicate]; decide), List.drop_replicate]
    rfl
  rw [done, exactly]

end FileSystem

end InodeVolume
