import InodeVolume.Disk.Device
import InodeVolume.Layout.Record

/-!
# Probing for inodes

Tells whether a block of a device holds the record of a file, without a cache
and without opening anything.
-/

namespace InodeVolume

inductive ProbeError where
  | outside (s : Sector)
  | noInode (s : Sector) (tag : UInt32)
deriving DecidableEq, Repr

def ProbeError.message : ProbeError → String
  | outside s => s!"inode sector {s} outside the image"
  | noInode s t => s!"no inode at sector {s}: magic {hexadecimal t}"

/-- The kind of the file whose record is in block `s`. -/
def Kind.probe {δ : Type} [Device δ] (s : Sector) : Action δ (Except ProbeError Kind) := do
  if s.isNull || Device.blockCount (← get) ≤ s then return .error (.outside s)
  let record := Record.decode (← Device.readBlock s)
  match Kind.ofTag? record.tag with
  | some kind => return .ok kind
  | none => return .error (.noInode s record.tag)

end InodeVolume
