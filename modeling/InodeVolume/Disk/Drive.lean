import InodeVolume.Disk.Device

/-!
# Drives

A drive is a disk some of whose blocks are damaged, together with a journal of
all transfers that were asked of it.
-/

namespace InodeVolume

inductive Transfer where
  | read (block : Nat)
  | written (block : Nat)
deriving DecidableEq, Repr

structure Drive (δ : Type) where
  disk : δ
  damaged : List Nat := []
  /-- Newest first; refused transfers are in it too. -/
  journal : List Transfer := []

namespace Drive

variable {δ β : Type}

/-- Straight to the disk: no damage, no journal. -/
def onDisk (act : Action δ β) : Action (Drive δ) β :=
  .onPart Drive.disk (fun disk d => { d with disk }) act

/-- Enters a transfer into the journal and makes it unless the block is damaged. -/
def transfer (n : Nat) (entry : Transfer) (act : Action δ β) : Action (Drive δ) β := do
  modify fun d => { d with journal := entry :: d.journal }
  if (← get).damaged.contains n then throw (.badBlock n) else onDisk act

instance [Device δ] : Device (Drive δ) where
  blockCount d := Device.blockCount d.disk
  readBlock n := transfer n (.read n) (Device.readBlock n)
  writeBlock n b := transfer n (.written n) (Device.writeBlock n b)

end Drive

end InodeVolume
