import InodeVolume.Main
import InodeVolume.Session.Basic
import InodeVolume.Proofs.Layout.Encoding
import InodeVolume.Proofs.Cache.Refusals
import InodeVolume.Proofs.Space.Prefix
import InodeVolume.Proofs.System.Durability
import InodeVolume.Proofs.System.Upkeep
import InodeVolume.Proofs.Session.Handles
import InodeVolume.Proofs.System.Reuse
import InodeVolume.Proofs.System.Denial
import InodeVolume.Proofs.System.Creation
import InodeVolume.Proofs.System.ShortWrites
import InodeVolume.Proofs.System.Deferral
import InodeVolume.Proofs.System.Pointers
import InodeVolume.Proofs.System.SplitWrites
import InodeVolume.Proofs.System.Damaged
import InodeVolume.Proofs.Packer.RoundTrip
import InodeVolume.Proofs.Disk.Recorder
import InodeVolume.Proofs.Cache.Stages
import InodeVolume.Proofs.Cache.Fates
import InodeVolume.Proofs.Cache.Traffic
import InodeVolume.Proofs.Cache.Rotation
import InodeVolume.Proofs.Cache.FirstOut
import InodeVolume.Proofs.Cache.Clean
import InodeVolume.Proofs.Cache.Mirrors
import InodeVolume.Proofs.Packer.Visiting
import InodeVolume.Proofs.Packer.Inspecting
