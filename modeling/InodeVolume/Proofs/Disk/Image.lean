import InodeVolume.Disk.ImageDisk
import InodeVolume.Proofs.Disk.Lawful
import InodeVolume.Proofs.File.Extent

/-!
# Images as lawful devices

The bytes of a sparse file are those of its blocks, as far as it reaches. An image disk that
counts the whole blocks of its file refuses none of them, and these blocks are its content.
-/

namespace InodeVolume

namespace SparseFile

variable {f : SparseFile} {m n : Nat}

def bytes (f : SparseFile) : List UInt8 := f.take f.length

def blockBytes (f : SparseFile) (count : Nat) : List UInt8 :=
  (List.range count).flatMap fun n => (f.block n).toList

theorem blockBytes_succ (f : SparseFile) (count : Nat) :
    f.blockBytes (count + 1) = f.blockBytes count ++ (f.block count).toList := by
  simp [blockBytes, List.range_succ]

@[simp] theorem length_blockBytes (f : SparseFile) (count : Nat) :
    (f.blockBytes count).length = count * blockSize := by
  induction count with
  | zero => simp [blockBytes]
  | succ count ih =>
    rw [blockBytes_succ, List.length_append, ih, Vector.length_toList, Nat.succ_mul]
    rfl

theorem blockBytes_prefix (f : SparseFile) (fewer : m ≤ n) : f.blockBytes m <+: f.blockBytes n := by
  induction n, fewer using Nat.le_induction with
  | base => exact List.prefix_rfl
  | succ n _ ih =>
    rw [blockBytes_succ]
    exact ih.trans (List.prefix_append _ _)

theorem getD_blockBytes {count i : Nat} (inside : i < count * blockSize) :
    (f.blockBytes count).getD i 0 = (f.block (i / blockSize)).toList.getD (i % blockSize) 0 := by
  induction count with
  | zero =>
    rw [Nat.zero_mul] at inside
    exact absurd inside (Nat.not_lt_zero i)
  | succ count ih =>
    rw [blockBytes_succ]
    by_cases early : i < count * blockSize
    · rw [List.getD_append _ _ _ _ (by rwa [length_blockBytes]), ih early]
    · have late : count * blockSize ≤ i := Nat.le_of_not_lt early
      have quotient : i / blockSize = count := Nat.div_eq_of_lt_le late inside
      have remainder : i % blockSize = i - count * blockSize := by
        rw [Nat.mod_eq_sub_div_mul, quotient]
      rw [List.getD_append_right _ _ _ _ (by rwa [length_blockBytes]), length_blockBytes, quotient,
        remainder]

theorem le_blocksFor (count : Nat) : count ≤ blocksFor count * blockSize := by
  simp only [blocksFor, blockSize]
  omega

theorem blocksFor_mono (fewer : m ≤ n) : blocksFor m ≤ blocksFor n :=
  Nat.div_le_div_right (Nat.add_le_add_right fewer _)

theorem take_eq (f : SparseFile) (count : Nat) : f.take count =
    (f.blockBytes (blocksFor (min count f.length))).take (min count f.length) := rfl

@[simp] theorem length_take (f : SparseFile) (count : Nat) :
    (f.take count).length = min count f.length := by
  rw [take_eq, List.length_take, length_blockBytes]
  exact Nat.min_eq_left (le_blocksFor _)

@[simp] theorem length_bytes (f : SparseFile) : f.bytes.length = f.length := by
  rw [bytes, length_take, Nat.min_self]

theorem take_eq_take_bytes (f : SparseFile) (count : Nat) : f.take count = f.bytes.take count := by
  have fewer : min count f.length ≤ f.length := Nat.min_le_right _ _
  obtain ⟨rest, whole⟩ := f.blockBytes_prefix (blocksFor_mono fewer)
  rw [bytes, take_eq, take_eq, Nat.min_self, List.take_take, ← whole,
    List.take_append_of_le_length]
  rw [length_blockBytes]
  exact le_blocksFor _

theorem getD_foldl_insert (piece : Nat → Block) (count n : Nat) :
    ((List.range count).foldl (fun blocks n => blocks.insert n (piece n))
      (∅ : Std.TreeMap Nat Block)).getD n .zero = if n < count then piece n else .zero := by
  induction count with
  | zero => simp
  | succ count ih =>
    rw [List.range_succ, List.foldl_append, List.foldl_cons, List.foldl_nil,
      Std.TreeMap.getD_insert, ih]
    rcases Nat.lt_trichotomy n count with early | rfl | late
    · rw [if_neg (by simpa using Nat.ne_of_gt early), if_pos early, if_pos (Nat.lt_succ_of_lt early)]
    · rw [if_pos (by simp), if_pos (Nat.lt_succ_self n)]
    · rw [if_neg (by simpa using Nat.ne_of_lt late), if_neg (Nat.not_lt_of_gt late),
        if_neg (Nat.not_lt_of_ge late)]

theorem block_ofBytes {data : List UInt8} (inside : n < blocksFor data.length) :
    (ofBytes data).block n = Vector.ofFn fun i => data.getD (n * blockSize + i) 0 := by
  refine (getD_foldl_insert _ _ n).trans ?_
  rw [List.size_toArray, if_pos inside]
  simp [List.getD_eq_getElem?_getD]

@[simp] theorem length_ofBytes (data : List UInt8) : (ofBytes data).length = data.length := rfl

@[simp] theorem bytes_ofBytes (data : List UInt8) : (ofBytes data).bytes = data := by
  apply List.eq_of_getD
  · rw [length_bytes, length_ofBytes]
  intro i
  by_cases inside : i < data.length
  · have below : i < blocksFor data.length * blockSize := Nat.lt_of_lt_of_le inside (le_blocksFor _)
    have block : i / blockSize < blocksFor data.length := Nat.div_lt_of_lt_mul (by rwa [Nat.mul_comm])
    have small : i % blockSize < 512 := Nat.mod_lt i (by decide)
    have whole : i / blockSize * blockSize + i % blockSize = i := Nat.div_add_mod' i blockSize
    rw [bytes, take_eq, Nat.min_self, length_ofBytes, List.getD_eq_getElem?_getD,
      List.getElem?_take_of_lt inside, ← List.getD_eq_getElem?_getD, getD_blockBytes below]
    rw [block_ofBytes block, List.getD_eq_getElem _ _ (by simpa using small)]
    simp [whole]
  · have past : data.length ≤ i := Nat.le_of_not_lt inside
    rw [List.getD_eq_default, List.getD_eq_default _ _ past]
    rwa [length_bytes, length_ofBytes]

theorem block_setBlock (f : SparseFile) (n : Nat) (b : Block) :
    (f.setBlock n b).block = Function.update f.block n b := by
  funext m
  simp only [block, setBlock, Std.TreeMap.getD_insert, Function.update_apply, Nat.compare_eq_eq,
    @eq_comm _ n m]

theorem length_setBlock (inside : n * blockSize + blockSize ≤ f.length) (b : Block) :
    (f.setBlock n b).length = f.length := Nat.max_eq_left inside

end SparseFile

namespace ImageDisk

variable {d : ImageDisk} {n : Nat}

/-- All blocks that are counted, and no further whole ones, lie within the file. -/
structure Sized (d : ImageDisk) : Prop where
  count : d.file.length / blockSize = d.blockCount
  /-- Every byte has an offset. -/
  bounded : d.file.length < UInt64.size

theorem sized_ofFile {f : SparseFile} (bounded : f.length < UInt64.size) : (ofFile f).Sized :=
  ⟨rfl, bounded⟩

theorem Sized.ofFile_file (h : d.Sized) : ofFile d.file = d :=
  congrArg (ImageDisk.mk d.file) h.count

theorem Sized.inside (h : d.Sized) (below : n < d.blockCount) :
    n * blockSize + blockSize ≤ d.file.length := by
  rw [← Nat.succ_mul]
  exact (Nat.le_div_iff_mul_le (by decide)).mp (h.count ▸ below)

theorem Sized.offset_eq (h : d.Sized) (below : n < d.blockCount) :
    offset d.file n = .ok (n * blockSize) := by
  have start : n * blockSize ≤ d.file.length := Nat.le_of_add_right_le (h.inside below)
  rw [offset, if_neg (Nat.not_le.mpr (Nat.lt_of_le_of_lt start h.bounded)), if_neg]
  exact Nat.not_lt.mpr (Nat.le_trans start (Nat.le_max_left _ _))

theorem Sized.setBlock (h : d.Sized) (below : n < d.blockCount) (b : Block) :
    Sized { d with file := d.file.setBlock n b } where
  count := by
    rw [SparseFile.length_setBlock (h.inside below)]
    exact h.count
  bounded := by
    rw [SparseFile.length_setBlock (h.inside below)]
    exact h.bounded

instance : LawfulDevice ImageDisk where
  Healthy := Sized
  content d := d.file.block
  blockCount_lt {d} h := by
    change d.blockCount < _
    rw [← h.count]
    exact Nat.lt_of_le_of_lt (Nat.div_le_self _ _) h.bounded
  readBlock_eq {d n} h below := by
    refine ⟨d, ?_, h, rfl, rfl⟩
    simp only [Device.readBlock, h.offset_eq below, if_pos (h.inside below)]
  writeBlock_eq {d n} b h below := by
    refine ⟨{ d with file := d.file.setBlock n b }, ?_, h.setBlock below b, rfl,
      SparseFile.block_setBlock d.file n b⟩
    have reached : n * blockSize + blockSize ≤ d.file.reach :=
      Nat.le_trans (h.inside below) (Nat.le_max_left _ _)
    simp only [Device.writeBlock, h.offset_eq below, if_pos reached]

end ImageDisk

end InodeVolume
