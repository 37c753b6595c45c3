import InodeVolume.Action
import InodeVolume.Block

/-!
# Block devices

A device transfers whole blocks. A transfer that is refused stops at a fault.
-/

namespace InodeVolume

class Device (δ : Type) where
  blockCount : δ → Nat
  readBlock : (block : Nat) → Action δ Block
  writeBlock : (block : Nat) → Block → Action δ Unit

structure MemoryDisk where
  blocks : Array Block

namespace MemoryDisk

def zeroed (count : Nat) : MemoryDisk := ⟨Array.replicate count .zero⟩

instance : Device MemoryDisk where
  blockCount d := d.blocks.size
  readBlock n := fun d =>
    match d.blocks[n]? with
    | some b => .ok b d
    | none => .error (.blockOutOfRange n) d
  writeBlock n b := fun d =>
    if n < d.blocks.size then .ok () ⟨d.blocks.setIfInBounds n b⟩
    else .error (.blockOutOfRange n) d

end MemoryDisk

end InodeVolume
