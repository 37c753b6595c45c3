import InodeVolume.Proofs.File.Calls
import InodeVolume.Proofs.System.Changes
import InodeVolume.Proofs.System.Invariants
import InodeVolume.Proofs.System.Mounting
import InodeVolume.Proofs.Volume.Outcomes

/-!
# Short writes

A write puts down as many bytes as the free sectors and the greatest length of a file allow. The
sectors that it keeps are those that the file then has and did not have before. Where its last
step fails, whatever that step took is free again, and no file has a pointer to it.
-/

namespace InodeVolume

section Returns

variable {α : Type} [Allocator α] [MappedAllocator α] {v : Flat α} {g : Registry} {a : Archive}
  {id : InodeId} {o : Opening}

theorem Represents.returns_write_rewritten (h : Represents v g a) (found : a.openings id = some o)
    (undenied : o.denials = 0) (offset : Nat) (data : List UInt8) :
    ((Registry.write id offset data).run g).Returns v fun (n, g') w =>
      n = Layout.writable (v.recordAt o.home).size v.map.free offset data.length ∧
        g' = g.withInode id (o.inode (w.recordAt o.home)) ∧
        v.Rewritten o.home (v.recordAt o.home) w (w.recordAt o.home) ∧
        (w.recordAt o.home).bytes w.content =
          overlay ((v.recordAt o.home).bytes v.content) offset (data.take n) := by
  have stores := (h.keeps.files (h.matched.live found)).stores
  have allowed : ¬ 0 < (o.inode (v.recordAt o.home)).denials := by
    change ¬ 0 < o.denials
    rw [undenied]
    exact Nat.lt_irrefl 0
  simp only [Registry.write, StateT.run_bind, Program.returns_bind,
    Registry.returns_inode (h.matched.inode found), if_neg allowed, Program.returns_lift]
  refine stores.returns_write h.keeps.ready fun r w rewritten bytes => ?_
  obtain rfl : w.recordAt o.home = r := rewritten.stores.record
  simp only [Registry.run_put, StateT.run_pure, Program.returns_pure]
  exact ⟨trivial, rfl, rewritten, bytes⟩

end Returns

/-- The size of a record tells how many bytes were written. -/
theorem Record.size_of_overlay {content content' : Sector → Block} {r r' : Record} {offset n : Nat}
    {data : List UInt8} (inside : n ≤ data.length)
    (bytes : r'.bytes content' = overlay (r.bytes content) offset (data.take n)) :
    r'.size = if n = 0 then r.size else max r.size (offset + n) := by
  have length := congrArg List.length bytes
  rw [length_bytes] at length
  rcases Nat.eq_zero_or_pos n with rfl | some_bytes
  · rw [if_pos rfl, length, List.take_zero, overlay_nil, length_bytes]
  · have taken : (data.take n).length = n := List.length_take_of_le inside
    have nonempty : data.take n ≠ [] := List.ne_nil_of_length_pos (taken.symm ▸ some_bytes)
    rw [if_neg (Nat.ne_of_gt some_bytes), length, length_overlay nonempty, taken, length_bytes]

namespace FileSystem

variable {δ : Type} [Device δ] [LawfulDevice δ] {fs fs' : FileSystem δ (Ledger SpaceMap)}
  {a : Archive} {id : InodeId} {i : Inode} {offset n : Nat} {data : List UInt8}

def spaceMap (fs : FileSystem δ (Ledger SpaceMap)) : SpaceMap := fs.volume.allocator.allocator

/-- The first `n` bytes of `data` were written at an offset of the file of inode `i`. -/
structure Wrote (fs : FileSystem δ (Ledger SpaceMap)) (id : InodeId) (i : Inode) (offset : Nat)
    (data : List UInt8) (n : Nat) (fs' : FileSystem δ (Ledger SpaceMap)) : Prop where
  /-- Those who have the file open hold its record as it stands on the volume. -/
  entry : fs'.registry.inodes[id]? = some { i with record := fs'.recordAt i.home }
  size : (fs'.recordAt i.home).size =
    if n = 0 then i.record.size else max i.record.size (offset + n)
  free : fs'.spaceMap.free = fs.spaceMap.free -
    (Layout.footprint (fs'.recordAt i.home).size - Layout.footprint i.record.size)
  bytes : (fs'.recordAt i.home).bytes fs'.volume.cache.content =
    overlay (i.record.bytes fs.volume.cache.content) offset (data.take n)
  /-- What no sector of the file held is as it was. -/
  content {s : Sector} : fs.spaceMap.isAllocated s = true → s ∉ fs.owned i.home →
    fs'.volume.cache.content s = fs.volume.cache.content s

structure Obtained (fs : FileSystem δ (Ledger SpaceMap)) (home : Sector) (kept : List Sector)
    (fs' : FileSystem δ (Ledger SpaceMap)) : Prop where
  nodup : kept.Nodup
  fresh {s : Sector} : s ∈ kept → fs.spaceMap.isAllocated s = false
  isAllocated (s : Sector) :
    fs'.spaceMap.isAllocated s = true ↔ fs.spaceMap.isAllocated s = true ∨ s ∈ kept
  owned (s : Sector) : s ∈ fs'.owned home ↔ s ∈ fs.owned home ∨ s ∈ kept

/-- Growth was given up: the sectors that it took are free again, and no live file points at
any of them. -/
structure RolledBack (a : Archive) (held : List Sector) (fs' : FileSystem δ (Ledger SpaceMap)) :
    Prop where
  free {s : Sector} : s ∈ held → fs'.spaceMap.isAllocated s = false
  unowned {s home : Sector} : s ∈ held → home ∈ a.live → s ∉ fs'.owned home

variable {o : Opening} {kept held : List Sector}

theorem Realizes.wrote (h : fs.Realizes a) (found : a.openings id = some o)
    (entry : fs'.registry = fs.registry.withInode id (o.inode (fs'.recordAt o.home)))
    (rewritten : fs.volume.flat.Rewritten o.home (fs.recordAt o.home) fs'.volume.flat
      (fs'.recordAt o.home))
    (inside : n ≤ data.length)
    (bytes : (fs'.recordAt o.home).bytes fs'.volume.cache.content =
      overlay ((fs.recordAt o.home).bytes fs.volume.cache.content) offset (data.take n)) :
    fs.Wrote id (o.inode (fs.recordAt o.home)) offset data n fs' := by
  have stores := (h.represents.keeps.files (h.represents.matched.live found)).stores
  have size := Record.size_of_overlay inside bytes
  have longer : (fs.recordAt o.home).size ≤ (fs'.recordAt o.home).size := by
    rw [size]
    split
    · exact Nat.le_refl _
    · exact Nat.le_max_left _ _
  have total : fs'.spaceMap.free + Layout.footprint (fs'.recordAt o.home).size =
      fs.spaceMap.free + Layout.footprint (fs.recordAt o.home).size := rewritten.free stores
  have more := Layout.footprint_mono longer
  refine ⟨?_, size, ?_, bytes, fun used outside => rewritten.exchanged.content used outside⟩
  · rw [entry]
    exact (Registry.getElem?_withInode (h.represents.matched.inode found) _ _).trans (if_pos rfl)
  · change fs'.spaceMap.free = fs.spaceMap.free -
      (Layout.footprint (fs'.recordAt o.home).size - Layout.footprint (fs.recordAt o.home).size)
    omega

theorem obtained_of_rewritten {home : Sector}
    (rewritten : fs.volume.flat.Rewritten home (fs.recordAt home) fs'.volume.flat
      (fs'.recordAt home))
    (took : fs.spaceMap.Took kept fs'.spaceMap) : fs.Obtained home kept fs' := by
  have exchanged := rewritten.exchanged
  have unheld {s : Sector} (new : s ∈ kept) : ¬ fs.volume.flat.map.isAllocated s = true := by
    rw [Bool.not_eq_true]
    exact took.fresh new
  refine ⟨took.nodup, took.fresh, took.isAllocated, fun s => ⟨fun member => ?_, ?_⟩⟩
  · refine (exchanged.fresh member).imp_right fun unused => ?_
    refine ((took.isAllocated s).mp (exchanged.isAllocated_of_mem member)).resolve_left ?_
    exact Bool.not_eq_true _ ▸ unused
  · rintro (old | new)
    · exact rewritten.owned_subset old
    · refine ((exchanged.isAllocated s).mp ((took.isAllocated s).mpr (.inr new))).resolve_left ?_
      exact fun used => unheld new used.1

theorem Realizes.rolledBack (h : fs'.Realizes a)
    (free : ∀ s ∈ held, fs'.spaceMap.isAllocated s = false) : RolledBack a held fs' where
  free := free _
  unowned {s home} member live owned := by
    have used : fs'.spaceMap.isAllocated s = true :=
      (h.represents.keeps.files live).stores.used s owned
    rw [free s member] at used
    cases used

/-- In every run, a write to an inode in use puts down as many bytes as the free sectors and the
greatest length of a file allow, and takes what these need. Growth that fails leaves nothing
behind. -/
theorem write_exact {device : δ} {capacity total reserved : Nat} {map : SpaceMap}
    (healthy : LawfulDevice.Healthy device) (enough : total ≤ Device.blockCount device)
    (small : total ≤ UInt32.size) (made : SpaceMap.new total reserved = .ok map)
    {fs₀ fs : FileSystem δ (Ledger SpaceMap)} (mounted : mount device capacity ⟨map, []⟩ = .ok fs₀)
    (run : Run fs₀ { total, reserved } fs a) (inUse : (a.openings id).isSome)
    (entry : fs.registry.inodes[id]? = some i) (undenied : i.denials = 0) (offset : Nat)
    (data : List UInt8) :
    ∃ n fs' kept, perform (.write id offset data) fs = .ok (.written n) fs' ∧
      IsGreatest {n | n ≤ data.length ∧ (n = 0 ∨ offset + n ≤ Layout.maxLength ∧
        Layout.footprint (max i.record.size (offset + n)) - Layout.footprint i.record.size ≤
          fs.spaceMap.free)} n ∧
      fs.Wrote id i offset data n fs' ∧ fs.Obtained i.home kept fs' ∧
      (fs'.volume.allocator.calls = takings kept ++ fs.volume.allocator.calls ∨
        ∃ held, RolledBack a held fs' ∧ fs'.volume.allocator.calls =
          fruitless held ++ takings kept ++ fs.volume.allocator.calls) := by
  have stored : HoldsArchive device map { total, reserved } :=
    (Mountable.blank healthy enough small made).holdsArchive
  have realizes := run.realizes (stored.realizes (simulatesFlat_of_mount healthy mounted))
  obtain ⟨o, found⟩ := Option.isSome_iff_exists.mp inUse
  obtain rfl : i = o.inode (fs.recordAt o.home) := by
    have current := realizes.represents.matched.inode found
    rw [entry] at current
    exact Option.some.inj current
  obtain ⟨⟨n, g⟩, w, done, ⟨count, registry, rewritten, bytes⟩, log, spends, calls, history⟩ :=
    (realizes.represents.returns_write_rewritten found undenied offset data).and_logs
      (Registry.logs_write fs.registry id offset data)
  obtain ⟨fs', ran, simulates⟩ := onFiles_flat realizes.consistent done
  have after := simulates.realizes (registry ▸ realizes.represents.rewritten found rewritten rfl)
  obtain ⟨_, rfl, rfl⟩ := simulates
  obtain ⟨kept, took, ends⟩ := spends.exists_kept realizes.represents.keeps.ready.sound history
  refine ⟨n, fs', kept, by rw [perform, Action.bind_ok ran]; rfl, ?_, ?_, ?_, ?_⟩
  · rw [count]
    exact Layout.isGreatest_writable _ _ _ _
  · refine realizes.wrote found registry rewritten ?_ bytes
    rw [count]
    exact Nat.findGreatest_le _
  · exact obtained_of_rewritten rewritten took
  · rcases ends with rfl | ⟨held, rfl, free⟩
    · exact .inl calls
    · have back := after.rolledBack free
      exact .inr ⟨held, ⟨back.free, back.unowned⟩, calls⟩

/-- One sector is too little for more than what is pointed at directly, as the table would have
to have it: a write of one sector more stops there, and leaves that sector free. -/
theorem write_exact_at_table : ∃ (map : SpaceMap)
    (fs₀ fs fs' : FileSystem MemoryDisk (Ledger SpaceMap)) (a : Archive) (id : InodeId) (i : Inode),
      LawfulDevice.Healthy (MemoryDisk.zeroed 126) ∧
      126 ≤ Device.blockCount (MemoryDisk.zeroed 126) ∧ 126 ≤ UInt32.size ∧
      SpaceMap.new 126 1 = .ok map ∧ mount (MemoryDisk.zeroed 126) 1 ⟨map, []⟩ = .ok fs₀ ∧
      Run fs₀ { total := 126, reserved := 1 } fs a ∧ (a.openings id).isSome ∧
      fs.registry.inodes[id]? = some i ∧ i.denials = 0 ∧
      perform (.write id 0 (List.replicate 63488 7)) fs = .ok (.written 62976) fs' ∧
      fs'.spaceMap.free = 1 := by
  have healthy : LawfulDevice.Healthy (MemoryDisk.zeroed 126) :=
    MemoryDisk.healthy_zeroed (by decide)
  have enough := (MemoryDisk.blockCount_zeroed 126).ge
  have small : 126 ≤ UInt32.size := by decide
  obtain ⟨map, made⟩ : ∃ map, SpaceMap.new 126 1 = .ok map := ⟨_, rfl⟩
  have mountable : Mountable (MemoryDisk.zeroed 126) map { total := 126, reserved := 1 } :=
    .blank healthy enough small made
  obtain ⟨fs₀, mounted, simulates⟩ := mount_eq healthy Nat.zero_lt_one (⟨map, []⟩ : Ledger SpaceMap)
  obtain ⟨fs, a, home, id, run, realizes, occupied⟩ :=
    (mountable.holdsArchive.realizes simulates).exists_occupied .start (.new 126) (by decide)
  have represents := realizes.represents
  have inUse : (a.openings id).isSome := by rw [occupied.found]; rfl
  have entry := represents.matched.inode occupied.found
  have empty : (fs.volume.flat.recordAt home).size = 0 := by
    refine (represents.keeps.files (represents.matched.live occupied.found)).size.trans ?_
    rw [occupied.file]
    rfl
  have free : fs.spaceMap.free = 124 := represents.keeps.free.trans occupied.free
  obtain ⟨n, fs', _, done, greatest, wrote, _⟩ := write_exact healthy enough small made mounted run
    inUse entry rfl 0 (List.replicate 63488 7)
  change IsGreatest {n | n ≤ (List.replicate 63488 (7 : UInt8)).length ∧ (n = 0 ∨
    0 + n ≤ Layout.maxLength ∧ Layout.footprint (max (fs.volume.flat.recordAt home).size (0 + n)) -
      Layout.footprint (fs.volume.flat.recordAt home).size ≤ fs.spaceMap.free)} n at greatest
  rw [empty, free, List.length_replicate] at greatest
  have exactly : IsGreatest {n | n ≤ 63488 ∧ (n = 0 ∨ 0 + n ≤ Layout.maxLength ∧
      Layout.footprint (max 0 (0 + n)) - Layout.footprint 0 ≤ 124)} 62976 := by
    refine ⟨⟨by decide, .inr ⟨by decide, by decide⟩⟩, ?_⟩
    rintro n ⟨_, rfl | ⟨_, fits⟩⟩
    · exact Nat.zero_le _
    · by_contra more
      have too_many := Layout.footprint_mono (by omega : 62977 ≤ max 0 (0 + n))
      have count : Layout.footprint 62977 = 125 := by decide
      have none : Layout.footprint 0 = 0 := by decide
      omega
  obtain rfl := greatest.unique exactly
  have left := wrote.free
  rw [wrote.size, if_neg (by decide), free] at left
  change fs'.spaceMap.free = 124 - (Layout.footprint (max (fs.volume.flat.recordAt home).size
    (0 + 62976)) - Layout.footprint (fs.volume.flat.recordAt home).size) at left
  rw [empty] at left
  exact ⟨map, fs₀, fs, fs', a, id, _, healthy, enough, small, made, mounted, run, inUse, entry, rfl,
    done, left⟩

end FileSystem

end InodeVolume
