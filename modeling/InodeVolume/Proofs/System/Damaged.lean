import InodeVolume.Proofs.File.Checked
import InodeVolume.Proofs.File.Coping
import InodeVolume.Proofs.File.Looking
import InodeVolume.Proofs.System.FileSystem

/-!
# Damaged files

An inode is opened if its record has the tag of one. The rest of the record can be anything: a
negative length, a length beyond what can be pointed at, holes, pointers to sectors that are not
there, that belong to other files or that are pointed at twice. Nothing is asked of the record here,
nor of what the sectors hold. All that can stop reading, writing and locating is a table without its
tag, a device that refuses a transfer and an allocator that fails.
-/

namespace InodeVolume

/-- Whatever is calculated with the record stays in the 64-bit range, and each index inside its
array: with a check for each, what is done with the file is the same. -/
structure Record.InRange (r : Record) (home : Sector) : Prop where
  read {n : Nat} (small : n < UInt64.size) (offset : Nat) (buffer : Vector UInt8 n) :
    Checked.readAt r home offset buffer = (do
      let bytes ← r.read offset n
      return (Checked.overwrite buffer 0 bytes, bytes.length))
  write {data : List UInt8} (small : data.length < UInt64.size) (offset : Nat) :
    Checked.writeAt r home offset data = r.write home offset data
  locate (offset count : Nat) : Checked.resolve r home offset count false = (do
    let target ← r.sectorAt offset
    return (target, r))
  locateForWrite (offset count : Nat) :
    Checked.resolve r home offset count true = r.sectorForWrite home offset count

theorem Record.inRange (r : Record) (home : Sector) : r.InRange home where
  read small := Checked.readAt_eq r home small
  write small := Checked.writeAt_eq r home small
  locate := Checked.resolve_read r home
  locateForWrite := Checked.resolve_write r home

namespace FileSystem

section

variable {δ α β : Type} [Device δ] [LawfulDevice δ]

/-- Neither the inodes nor the allocator nor the content of a sector has changed. -/
structure Untouched (fs fs' : FileSystem δ α) : Prop extends
    Volume.Unaltered fs.volume fs'.volume where
  registry : fs'.registry = fs.registry

variable [Allocator α]

/-- An operation is answered rightly or stopped by a fault that it could not keep away, and in
either case the volume goes on working. -/
def Survives (keeps : α → Prop) (fs : FileSystem δ α) (op : Operation) (right : Answer → Prop) :
    Prop :=
  (perform op).Ends fs (fun answer fs' => right answer ∧ fs'.volume.Working keeps)
    fun f fs' => fs'.volume.Excuses f ∧ fs'.volume.Working keeps

/-- An operation touches nothing, whether it is answered or stopped. -/
def OnlyLooks (fs : FileSystem δ α) (op : Operation) : Prop :=
  (perform op).Ends fs (fun _ fs' => fs.Untouched fs') fun _ fs' => fs.Untouched fs'

omit [Allocator α] in
theorem working_of_new {device : δ} {capacity total reserved : Nat} {fs : FileSystem δ SpaceMap}
    (made : new device capacity total reserved = .ok fs) (small : total ≤ UInt32.size) :
    fs.volume.Working SpaceMap.Addressable := by
  obtain ⟨cache, map, cached, mapped, rfl⟩ := eq_of_new made
  obtain ⟨cache', cached', coherent, _⟩ :=
    Cache.new_coherent device (Cache.positive_of_new cached)
  rw [cached] at cached'
  cases cached'
  exact ⟨coherent, SpaceMap.addressable_of_new mapped small⟩

variable [AtomicDevice δ] {keeps : α → Prop} {fs : FileSystem δ α} {act : Filing β}
  {post : β × Registry → Prop} (grants : Allocator.Grants keeps) (working : fs.volume.Working keeps)

include grants working

theorem onFiles_of_copes (copes : (act.run fs.registry).Copes post) :
    (onFiles act).Ends fs
      (fun b fs' => post (b, fs'.registry) ∧ fs'.volume.Working keeps)
      fun f fs' => (fs'.volume.Excuses f ∧ fs'.volume.Working keeps) ∧
        fs'.registry = fs.registry := by
  unfold onFiles
  rw [Action.ends_get_bind, Action.ends_bind]
  refine Action.ends_onPart.mpr ((Volume.ends_of_copes grants working (copes _)).mono ?_ ?_)
  · exact fun _ _ => id
  · exact fun f volume stopped => ⟨stopped, rfl⟩

theorem survives_of_copes {wrap : β → Answer} {right : Answer → Prop}
    (copes : (act.run fs.registry).Copes post)
    (answered : ∀ b g, post (b, g) → right (wrap b)) :
    (do return wrap (← onFiles act) : Action (FileSystem δ α) Answer).Ends fs
      (fun answer fs' => right answer ∧ fs'.volume.Working keeps)
      fun f fs' => fs'.volume.Excuses f ∧ fs'.volume.Working keeps := by
  refine Action.ends_bind.mpr ((onFiles_of_copes grants working copes).mono ?_ fun _ _ => And.left)
  exact fun b fs' done => ⟨answered b _ done.1, done.2⟩

theorem looks_of_reads {wrap : β → Answer} (copes : (act.run fs.registry).Copes post)
    (same : ∀ b g, post (b, g) → g = fs.registry) (reads : (act.run fs.registry).Reads) :
    (do return wrap (← onFiles act) : Action (FileSystem δ α) Answer).Ends fs
      (fun _ fs' => fs.Untouched fs') fun _ fs' => fs.Untouched fs' := by
  have unaltered : (onFiles act).Ends fs (fun _ fs' => fs.volume.Unaltered fs'.volume)
      fun _ fs' => fs.volume.Unaltered fs'.volume := by
    unfold onFiles
    rw [Action.ends_get_bind, Action.ends_bind]
    exact Action.ends_onPart.mpr (Volume.unaltered_of_reads working (copes _) reads)
  refine Action.ends_bind.mpr (((onFiles_of_copes grants working copes).and unaltered).mono ?_ ?_)
  · exact fun b fs' ended => ⟨ended.2, same b _ ended.1.1⟩
  · exact fun f fs' ended => ⟨ended.2, ended.1.2⟩

/-- An inode can be read, written and searched whatever is in its record and in the sectors that
it leads to. -/
theorem any_record_served {id : InodeId} {i : Inode} (found : fs.registry.inodes[id]? = some i) :
    (∀ offset count, fs.Survives keeps (.read id offset count) fun answer =>
      ∃ bytes, answer = .bytes bytes ∧ bytes.length ≤ count) ∧
    (∀ offset data, fs.Survives keeps (.write id offset data) fun answer =>
      ∃ count, answer = .written count ∧ count ≤ data.length) ∧
    (∀ offset count forWrite, fs.Survives keeps (.locate id offset count forWrite) fun answer =>
      ∃ s, answer = .located s ∧ Sector.Granted s) ∧
    (∀ offset count, fs.OnlyLooks (.read id offset count) ∧
      fs.OnlyLooks (.locate id offset count false)) ∧
    i.record.InRange i.home := by
  refine ⟨fun offset count => ?_, fun offset data => ?_, fun offset count forWrite => ?_,
    fun offset count => ⟨?_, ?_⟩, i.record.inRange i.home⟩
  · exact survives_of_copes grants working (Registry.copes_read found offset count)
      fun bytes _ short => ⟨bytes, rfl, short.1⟩
  · exact survives_of_copes grants working (Registry.copes_write found offset data)
      fun written _ short => ⟨written, rfl, short⟩
  · cases forWrite with
    | false =>
      exact survives_of_copes grants working (Registry.copes_locate_read found offset count)
        fun s _ granted => ⟨s, rfl, granted.1⟩
    | true =>
      exact survives_of_copes grants working (Registry.copes_locate_write found offset count)
        fun s _ granted => ⟨s, rfl, granted⟩
  · exact looks_of_reads grants working (Registry.copes_read found offset count)
      (fun _ _ ended => ended.2) (fs.registry.reads_read id offset count)
  · exact looks_of_reads grants working (Registry.copes_locate_read found offset count)
      (fun _ _ ended => ended.2) (fs.registry.reads_locate id offset count)

end

/-- A length of -1 counts as 2^64 - 1 bytes. The first of them are pointed at in a sector that the
device does not have, the next ones in a table without its tag. -/
theorem any_record_served_negative_length : ∃ (fs : FileSystem MemoryDisk SpaceMap) (i : Inode),
    Allocator.Grants SpaceMap.Addressable ∧ fs.volume.Working SpaceMap.Addressable ∧
      fs.registry.inodes[0]? = some i ∧ (Kind.ofTag? i.record.tag).isSome ∧
      i.record.size = UInt64.size - 1 ∧
      (fs.Survives SpaceMap.Addressable (.write 0 (UInt64.size - 2) [1, 2, 3]) fun answer =>
        ∃ count, answer = .written count ∧ count ≤ 3) ∧
      fs.OnlyLooks (.read 0 0 1000) ∧ i.record.InRange i.home := by
  obtain ⟨fs, made⟩ : ∃ fs, new (MemoryDisk.zeroed 8) 1 8 2 = .ok fs := ⟨_, rfl⟩
  let record : Record :=
    { length := -1, tag := Kind.file.tag, direct := .replicate 123 9, tables := .replicate 3 1 }
  let opened : FileSystem MemoryDisk SpaceMap :=
    { fs with registry := { inodes := #[{ home := 1, record }] } }
  have fresh := working_of_new made (by decide)
  have working : opened.volume.Working SpaceMap.Addressable := fresh
  have found : opened.registry.inodes[0]? = some { home := 1, record } := rfl
  obtain ⟨_, writes, _, looks, inRange⟩ :=
    any_record_served SpaceMap.Addressable.grants working found
  exact ⟨opened, _, SpaceMap.Addressable.grants, working, found, by decide, by decide,
    writes _ _, (looks 0 1000).1, inRange⟩

end FileSystem

end InodeVolume
