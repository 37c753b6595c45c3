/-!
# Faults

The causes for which an operation stops without a result. A refusal that the
caller is expected to handle (no space, too large) is a value of its own type
and never a fault.
-/

namespace InodeVolume

inductive Fault where
  /-- An internal consistency check failed. -/
  | assertion
  /-- A sector number or byte offset left the 64-bit range. -/
  | overflow
  /-- A buffer of 2^63 bytes or more was asked for. -/
  | capacityOverflow
  | blockOutOfRange (block : Nat)
  | badBlock (block : Nat)
  | partialBlock
  | unseekable
  | partialSector
  | noSlots
  | zeroReserved
  | releaseOutOfRange
  | doubleRelease (sector : Nat)
  | beyondDisk (sector : Nat)
  | lengthOverflow
  | badRecordTag (tag : UInt32)
  | noInode (sector : Nat) (tag : UInt32)
  | badTable (sector : Nat) (tag : UInt32)
  | closedTooOften (sector : Nat)
  | allowWithoutDeny
  /-- An agent ended before it had done what was waited for. -/
  | silentAgent
  /-- A handle or inode that was never given out. -/
  | unknownHandle
  /-- The allocator keeps no map of the sectors it gave out. -/
  | noSpaceMap
deriving DecidableEq, Repr

def hexadecimal (tag : UInt32) : String :=
  "0x" ++ String.ofList (Nat.toDigits 16 tag.toNat)

def Fault.message : Fault → Option String
  | .assertion | .overflow | .capacityOverflow | .unknownHandle | .noSpaceMap => none
  | .blockOutOfRange n => some s!"block {n} out of range"
  | .badBlock n => some s!"bad block {n}"
  | .partialBlock => some "not a complete block!"
  | .unseekable => some "seeking error"
  | .partialSector => some "not a complete sector!"
  | .noSlots => some "sector cache needs at least one slot"
  | .zeroReserved => some "sector 0 must stay reserved"
  | .releaseOutOfRange => some "release out of range"
  | .doubleRelease s => some s!"double release of sector {s}"
  | .beyondDisk s => some s!"sector {s} out of disk range"
  | .lengthOverflow => some "inode length overflows i32"
  | .badRecordTag t => some s!"malformed inode magic {hexadecimal t}"
  | .noInode s t => some s!"no inode at sector {s}: magic {hexadecimal t}"
  | .badTable s t => some s!"malformed indirect block at sector {s}: magic {hexadecimal t}"
  | .closedTooOften s => some s!"inode {s} closed too many times"
  | .allowWithoutDeny => some "allow_write without deny_write"
  | .silentAgent => some "agent did not answer"

end InodeVolume
