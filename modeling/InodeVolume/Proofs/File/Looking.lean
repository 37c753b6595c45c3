import InodeVolume.File.Registry
import InodeVolume.Proofs.Volume.Reads

/-!
# Looking into files

To find a sector of a file, to read from it and to open it are programs that only read. So are
all operations that are about the openers of an inode, but for the last close of a removed one.
-/

namespace InodeVolume

open Program

theorem PointerTable.reads_load (s : Sector) : (load s).Reads := by
  rw [load]
  apply (reads_read s).bind
  intro data
  exact (reads_require _ _).bind fun _ => reads_pure _

namespace Record

variable (r : Record)

theorem reads_dataSector (i : Nat) : (r.dataSector i).Reads := by
  unfold dataSector
  split
  · exact reads_pure _
  · exact reads_pure _
  · split
    · exact reads_pure _
    · exact (PointerTable.reads_load _).bind fun _ => reads_pure _

theorem reads_sectorAt (offset : Nat) : (r.sectorAt offset).Reads := by
  unfold sectorAt
  split
  · exact reads_pure _
  · exact r.reads_dataSector _

theorem reads_read (offset count : Nat) : (r.read offset count).Reads := by
  induction count using Nat.strongRecOn generalizing offset with
  | ind count ih =>
    rw [read]
    split
    · exact reads_pure _
    apply (r.reads_sectorAt offset).bind
    intro s
    cases s with
    | none => exact reads_pure _
    | some s =>
      dsimp only
      split
      · exact reads_pure _
      · apply (Program.reads_read s).bind
        intro data
        exact (ih _ (by omega) _).bind fun _ => reads_pure _

end Record

namespace Registry

variable (g : Registry) (id : InodeId)

theorem reads_inode_bind {β : Type} {next : Inode → Filing β}
    (rest : ∀ i, ((next i).run g).Reads) : ((inode id >>= next).run g).Reads := by
  simp only [inode, bind_assoc, StateT.run_bind, StateT.run_get, pure_bind]
  cases g.inodes[id]? with
  | none => exact reads_fault _
  | some i => exact rest i

theorem reads_reopen : ((reopen id).run g).Reads :=
  reads_inode_bind g id fun _ => reads_pure _

theorem reads_openAt (home : Sector) : ((openAt home).run g).Reads := by
  simp only [openAt, StateT.run_bind, StateT.run_get, pure_bind]
  cases g.opened[home]? with
  | some id => exact reads_reopen g id
  | none =>
    simp only [StateT.run_bind]
    apply ((Program.reads_read home).lift g).bind
    intro p
    exact ((reads_require _ _).lift p.2).bind fun _ => reads_pure _

theorem reads_remove : ((remove id).run g).Reads :=
  reads_inode_bind g id fun _ => reads_pure _

theorem reads_forbid : ((forbid id).run g).Reads :=
  reads_inode_bind g id fun i => ((reads_ofExcept i.forbid).lift g).bind fun _ => reads_pure _

theorem reads_permit : ((permit id).run g).Reads :=
  reads_inode_bind g id fun i => ((reads_ofExcept i.permit).lift g).bind fun _ => reads_pure _

theorem reads_read (offset count : Nat) : ((read id offset count).run g).Reads :=
  reads_inode_bind g id fun i => (i.record.reads_read offset count).lift g

theorem reads_locate (offset count : Nat) : ((locate id offset count false).run g).Reads :=
  reads_inode_bind g id fun i => (i.record.reads_sectorAt offset).lift g

end Registry

end InodeVolume
