import InodeVolume.File.Probe
import InodeVolume.File.Registry
import InodeVolume.Proofs.Disk.Image
import InodeVolume.Proofs.System.Holdings

/-!
# Images of any content

Whoever is given an image can look for a file in it: nothing is known of its length and its
bytes, nor of the sector where the file is looked for. The bytes of that sector tell whether there
is a file. If there is one, it can be opened.
-/

namespace InodeVolume

namespace Packer

/-- The word at bytes 4 to 8 of sector `n`, the least significant byte first. -/
def tagAt (bytes : List UInt8) (n : Nat) : UInt32 :=
  Block.word (bytes.getD (512 * n + 4) 0) (bytes.getD (512 * n + 5) 0)
    (bytes.getD (512 * n + 6) 0) (bytes.getD (512 * n + 7) 0)

/-- What the bytes of an image tell of sector `n`. -/
def verdict (bytes : List UInt8) (n : Nat) : Except ProbeError Kind :=
  if n = 0 ∨ bytes.length < 512 * (n + 1) then .error (.outside n)
  else if tagAt bytes n = Kind.file.tag then .ok .file
  else if tagAt bytes n = Kind.directory.tag then .ok .directory
  else .error (.noInode n (tagAt bytes n))

end Packer

namespace SparseFile

variable {f : SparseFile}

theorem getD_bytes {n i : Nat} (inside : n * blockSize + i < f.length) (small : i < blockSize) :
    f.bytes.getD (n * blockSize + i) 0 = (f.block n)[i] := by
  have below : n * blockSize + i < blocksFor f.length * blockSize :=
    Nat.lt_of_lt_of_le inside (le_blocksFor _)
  have quotient : (n * blockSize + i) / blockSize = n := by
    rw [Nat.mul_comm, Nat.mul_add_div (by decide), Nat.div_eq_of_lt small, Nat.add_zero]
  have remainder : (n * blockSize + i) % blockSize = i := by
    rw [Nat.mul_comm, Nat.mul_add_mod, Nat.mod_eq_of_lt small]
  rw [bytes, take_eq, Nat.min_self, List.getD_eq_getElem?_getD, List.getElem?_take_of_lt inside,
    ← List.getD_eq_getElem?_getD, getD_blockBytes below, quotient, remainder,
    List.getD_eq_getElem _ _ (by rwa [Vector.length_toList])]
  rfl

theorem tag_block {n : Nat} (inside : 512 * (n + 1) ≤ f.length) :
    (Record.decode (f.block n)).tag = Packer.tagAt f.bytes n := by
  have byte (i : Nat) (small : i < 512) : f.bytes.getD (512 * n + i) 0 = (f.block n)[i] := by
    rw [Nat.mul_comm]
    exact getD_bytes (by simp only [blockSize]; omega) small
  rw [Packer.tagAt, byte 4 (by decide), byte 5 (by decide), byte 6 (by decide), byte 7 (by decide)]
  exact Block.getElem_words (f.block n) (by decide : 1 < 128)

end SparseFile

namespace ImageDisk

theorem readBlock_ofFile {file : SparseFile} (bounded : file.length < UInt64.size) {n : Nat}
    (inside : n < file.length / blockSize) :
    Device.readBlock n (ofFile file) = .ok (file.block n) (ofFile file) := by
  have sized := sized_ofFile bounded
  simp only [Device.readBlock, sized.offset_eq inside, if_pos (sized.inside inside)]
  rfl

end ImageDisk

namespace Kind

/-- The kind of a file is told by the bytes of its sector, and nothing can go wrong. -/
theorem probe_ofFile {file : SparseFile} (bounded : file.length < UInt64.size) (n : Nat) :
    probe n (ImageDisk.ofFile file) =
      .ok (Packer.verdict file.bytes n) (ImageDisk.ofFile file) := by
  have whole : Device.blockCount (ImageDisk.ofFile file) ≤ n ↔ file.length < 512 * (n + 1) := by
    change file.length / 512 ≤ n ↔ _
    omega
  have outside :
      (Sector.isNull n || decide (Device.blockCount (ImageDisk.ofFile file) ≤ n)) = true ↔
        n = 0 ∨ file.bytes.length < 512 * (n + 1) := by
    rw [SparseFile.length_bytes, Bool.or_eq_true, decide_eq_true_iff, Sector.isNull, beq_iff_eq,
      whole]
    rfl
  unfold probe Packer.verdict
  rw [Action.get_bind]
  by_cases past : n = 0 ∨ file.bytes.length < 512 * (n + 1)
  · rw [if_pos past, if_pos (outside.mpr past)]
    rfl
  · rw [if_neg past, if_neg fun named => past (outside.mp named)]
    rw [SparseFile.length_bytes, not_or, Nat.not_lt] at past
    have inside : n < file.length / blockSize :=
      Nat.lt_of_not_le fun named => Nat.not_lt.mpr past.2 (whole.mp named)
    rw [Action.bind_ok (ImageDisk.readBlock_ofFile bounded inside), SparseFile.tag_block past.2]
    unfold ofTag?
    split
    · rfl
    · split <;> rfl

end Kind

namespace Packer

theorem verdict_eq_ok_iff {bytes : List UInt8} {n : Nat} {kind : Kind} :
    verdict bytes n = .ok kind ↔
      (n ≠ 0 ∧ 512 * (n + 1) ≤ bytes.length) ∧ tagAt bytes n = kind.tag := by
  unfold verdict
  by_cases past : n = 0 ∨ bytes.length < 512 * (n + 1)
  · rw [if_pos past]
    rw [← not_or.trans (and_congr_right fun _ => Nat.not_lt)]
    exact iff_of_false nofun fun inside => inside.1 past
  · rw [if_neg past, ← not_or.trans (and_congr_right fun _ => Nat.not_lt)]
    rw [and_iff_right past]
    cases kind <;> grind [Kind.tag]

section Returns

variable {α : Type} [Allocator α] {v : Flat α} {g : Registry}

/-- Whoever finds the tag of an inode in a sector that nobody has open gets an inode of its own. -/
theorem returns_openAt_fresh {home : Sector} (inside : home < v.limit)
    (unopened : g.opened[home]? = none)
    (tagged : (Kind.ofTag? (v.recordAt home).tag).isSome) :
    ((Registry.openAt home).run g).Returns v fun p w =>
      w = v ∧ p.2.inodes[p.1]? = some { home, record := v.recordAt home } := by
  have tagged : (Kind.ofTag? (Record.decode (v.content home)).tag).isSome := tagged
  simp only [Registry.openAt, StateT.run_bind, StateT.run_get, Program.returns_bind,
    Program.returns_pure, unopened, Program.returns_lift, Program.returns_read,
    Program.returns_require, inside, tagged, true_and, Registry.enter, StateT.run_set,
    StateT.run_pure]
  exact Array.getElem?_push_size

end Returns

theorem open_of_verdict {file : SparseFile} (bounded : file.length < UInt64.size) {n : Nat}
    {kind : Kind} (found : verdict file.bytes n = .ok kind) {capacity : Nat}
    (positive : 0 < capacity) {α : Type} [Allocator α] (allocator : α) :
    ∃ cache, Cache.new (ImageDisk.ofFile file) capacity = .ok cache ∧ ∃ id g v i,
      Volume.perform ((Registry.openAt n).run {}) ⟨cache, allocator⟩ = .ok (id, g) v ∧
        g.inodes[id]? = some i ∧ i.home = n ∧ i.record.kind = .ok kind := by
  obtain ⟨⟨_, reached⟩, tag⟩ := verdict_eq_ok_iff.mp found
  rw [SparseFile.length_bytes] at reached
  have healthy : LawfulDevice.Healthy (ImageDisk.ofFile file) := ImageDisk.sized_ofFile bounded
  obtain ⟨cache, made, consistent, shows, _, device⟩ := Cache.new_eq healthy positive
  have inside : n < Device.blockCount cache.device := by
    rw [device]
    exact (Nat.le_div_iff_mul_le (by decide)).mpr (Nat.mul_comm 512 _ ▸ reached)
  have record : (Volume.flat ⟨cache, allocator⟩).recordAt n = Record.decode (file.block n) :=
    congrArg Record.decode (congrFun shows n)
  have known : Kind.ofTag? (Record.decode (file.block n)).tag = some kind := by
    rw [SparseFile.tag_block reached, tag, Kind.ofTag?_tag]
  have unopened : ({} : Registry).opened[n]? = none := Std.TreeMap.getElem?_emptyc
  have tagged : (Kind.ofTag? ((Volume.flat ⟨cache, allocator⟩).recordAt n).tag).isSome := by
    rw [record, known]
    rfl
  obtain ⟨⟨id, g⟩, v, done, _, _, entered⟩ :=
    Volume.perform_of_returns consistent (returns_openAt_fresh inside unopened tagged)
  refine ⟨cache, made, id, g, v, _, done, entered, rfl, ?_⟩
  simp only [Record.kind, record, known]

end Packer

end InodeVolume
