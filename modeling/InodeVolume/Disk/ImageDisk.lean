import InodeVolume.Disk.Device
import Std.Data.TreeMap

/-!
# Disks in a file

A file is kept sparsely, as the blocks that were ever written. An image disk
uses it as a device: the number of blocks is fixed when the disk is made, reading
needs a whole block in the file, and writing past the end lets the file grow, up
to the length that the host allows.
-/

namespace InodeVolume

/-- A file of `length` bytes; a block that is not stored is zero, and so are the
bytes of a stored block past the end. -/
structure SparseFile where
  length : Nat
  blocks : Std.TreeMap Nat Block

namespace SparseFile

/-- The length a file can grow to: 2^32 - 1 pages of 4096 bytes. -/
def maxLength : Nat := 0xffffffff000

/-- No position past this one can be taken in the file. -/
def reach (f : SparseFile) : Nat := max f.length maxLength

def zeros (length : Nat) : SparseFile := ⟨length, ∅⟩

def block (f : SparseFile) (n : Nat) : Block := f.blocks.getD n .zero

def setBlock (f : SparseFile) (n : Nat) (b : Block) : SparseFile :=
  ⟨max f.length (n * blockSize + blockSize), f.blocks.insert n b⟩

def blocksFor (count : Nat) : Nat := (count + (blockSize - 1)) / blockSize

def ofBytes (bytes : List UInt8) : SparseFile :=
  let content := bytes.toArray
  let piece (n : Nat) : Block := Vector.ofFn fun i => content.getD (n * blockSize + i) 0
  ⟨content.size,
    (List.range (blocksFor content.size)).foldl (fun blocks n => blocks.insert n (piece n)) ∅⟩

def take (f : SparseFile) (count : Nat) : List UInt8 :=
  let count := min count f.length
  ((List.range (blocksFor count)).flatMap fun n => (f.block n).toList).take count

def toByteArray (f : SparseFile) : ByteArray :=
  let zeros := ByteArray.mk Block.zero.toArray
  let whole := (List.range (blocksFor f.length)).foldl
    (fun bytes n => match f.blocks[n]? with
      | some b => bytes ++ ByteArray.mk b.toArray
      | none => bytes ++ zeros)
    ByteArray.empty
  whole.extract 0 f.length

end SparseFile

structure ImageDisk where
  file : SparseFile
  blockCount : Nat

namespace ImageDisk

def ofFile (file : SparseFile) : ImageDisk := ⟨file, file.length / blockSize⟩

/-- The disk of a folder, which counts 4096 bytes and lets none of them be read. -/
def ofFolder : ImageDisk := ⟨.zeros 0, 8⟩

def offset (f : SparseFile) (n : Nat) : Except Fault Nat :=
  if UInt64.size ≤ n * blockSize then .error .overflow
  else if f.reach < n * blockSize then .error .unseekable
  else .ok (n * blockSize)

instance : Device ImageDisk where
  blockCount := ImageDisk.blockCount
  readBlock n := fun d =>
    match offset d.file n with
    | .error f => .error f d
    | .ok start =>
      if start + blockSize ≤ d.file.length then .ok (d.file.block n) d
      else .error .partialBlock d
  writeBlock n b := fun d =>
    match offset d.file n with
    | .error f => .error f d
    | .ok start =>
      if start + blockSize ≤ d.file.reach then .ok () { d with file := d.file.setBlock n b }
      else .error .partialBlock d

end ImageDisk

end InodeVolume
