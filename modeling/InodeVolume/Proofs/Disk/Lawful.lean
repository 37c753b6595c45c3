import InodeVolume.Disk.Drive
import Mathlib

/-!
# Lawful devices

A device is healthy when it refuses none of the blocks that it counts. Then its
content is a function of block numbers: reading looks it up, writing changes it
at one block.
-/

namespace InodeVolume

class LawfulDevice (δ : Type) [Device δ] where
  Healthy : δ → Prop
  content : δ → Nat → Block
  /-- Blocks are numbered below 2^64. -/
  blockCount_lt {d : δ} : Healthy d → Device.blockCount d < UInt64.size
  readBlock_eq {d : δ} {n : Nat} : Healthy d → n < Device.blockCount d →
    ∃ d', Device.readBlock n d = .ok (content d n) d' ∧ Healthy d' ∧
      Device.blockCount d' = Device.blockCount d ∧ content d' = content d
  writeBlock_eq {d : δ} {n : Nat} (b : Block) : Healthy d → n < Device.blockCount d →
    ∃ d', Device.writeBlock n b d = .ok () d' ∧ Healthy d' ∧
      Device.blockCount d' = Device.blockCount d ∧
      content d' = Function.update (content d) n b

namespace MemoryDisk

instance : LawfulDevice MemoryDisk where
  Healthy d := d.blocks.size < UInt64.size
  content d n := d.blocks.getD n .zero
  blockCount_lt h := h
  readBlock_eq {d n} healthy inside := by
    have inside : n < d.blocks.size := inside
    refine ⟨d, ?_, healthy, rfl, rfl⟩
    simp [Device.readBlock, inside]
  writeBlock_eq {d n} b healthy inside := by
    have inside : n < d.blocks.size := inside
    refine ⟨⟨d.blocks.setIfInBounds n b⟩, by simp [Device.writeBlock, inside], ?_, ?_, ?_⟩
    · simpa using healthy
    · simp [Device.blockCount]
    · funext m
      by_cases same : m = n
      · subst same
        simp [inside]
      · simp [Array.getD_eq_getD_getElem?, same, Ne.symm same]

@[simp] theorem blockCount_zeroed (count : Nat) : Device.blockCount (zeroed count) = count :=
  Array.size_replicate

theorem healthy_zeroed {count : Nat} (bounded : count < UInt64.size) :
    LawfulDevice.Healthy (zeroed count) := by
  change Device.blockCount (zeroed count) < _
  rwa [blockCount_zeroed]

end MemoryDisk

namespace Drive

variable {δ β : Type}

theorem transfer_of_intact {d : Drive δ} {n : Nat} (entry : Transfer) {act : Action δ β}
    {b : β} {disk : δ} (intact : n ∉ d.damaged) (done : act d.disk = .ok b disk) :
    transfer n entry act d = .ok b { d with disk, journal := entry :: d.journal } := by
  have whole : ¬ d.damaged.contains n := by simpa using intact
  change (if d.damaged.contains n then throw (.badBlock n) else onDisk act)
    { d with journal := entry :: d.journal } = _
  rw [if_neg whole]
  simp only [onDisk, Action.onPart, done]

instance [Device δ] [LawfulDevice δ] : LawfulDevice (Drive δ) where
  Healthy d := LawfulDevice.Healthy d.disk ∧ ∀ n < Device.blockCount d.disk, n ∉ d.damaged
  content d := LawfulDevice.content d.disk
  blockCount_lt {d} h := LawfulDevice.blockCount_lt (d := d.disk) h.1
  readBlock_eq {d n} healthy inside := by
    obtain ⟨disk, done, sound, count, same⟩ := LawfulDevice.readBlock_eq healthy.1 inside
    refine ⟨_, transfer_of_intact _ (healthy.2 n inside) done, ⟨sound, ?_⟩, count, same⟩
    intro m below
    exact healthy.2 m (count ▸ below)
  writeBlock_eq {d n} b healthy inside := by
    obtain ⟨disk, done, sound, count, same⟩ := LawfulDevice.writeBlock_eq b healthy.1 inside
    refine ⟨_, transfer_of_intact _ (healthy.2 n inside) done, ⟨sound, ?_⟩, count, same⟩
    intro m below
    exact healthy.2 m (count ▸ below)

end Drive

end InodeVolume
