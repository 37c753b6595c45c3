import InodeVolume.Proofs.File.Splitting
import InodeVolume.Proofs.System.Changes
import InodeVolume.Proofs.System.Upkeep

/-!
# Split writes

It does not matter whether bytes are written at once or in two parts, provided that the first
part is written whole: the same sectors are taken in the same order, and the same is put into
them. That holds as well where the second part ends short.
-/

namespace InodeVolume

namespace Registry

variable {α : Type} [Allocator α] {g : Registry} {v : Flat α} {id : InodeId} {i : Inode}

theorem returns_write (found : g.inodes[id]? = some i) (undenied : i.denials = 0) (offset : Nat)
    (data : List UInt8) {post : Nat × Registry → Flat α → Prop} :
    ((write id offset data).run g).Returns v post ↔ (i.record.write i.home offset data).Returns v
      fun (n, record) w => post (n, g.withInode id { i with record }) w := by
  have allowed : ¬ 0 < i.denials := Nat.not_lt.mpr (Nat.le_of_eq undenied)
  simp only [write, StateT.run_bind, Program.returns_bind, returns_inode found, if_neg allowed,
    Program.returns_lift, run_put, StateT.run_pure, Program.returns_pure]

theorem withInode_withInode (g : Registry) (id : InodeId) (i i' : Inode) :
    (g.withInode id i).withInode id i' = g.withInode id i' := by
  simp only [withInode, Array.setIfInBounds_setIfInBounds]

theorem returns_write_append [MappedAllocator α] (ready : v.Ready)
    (stores : v.Stores i.home i.record) (found : g.inodes[id]? = some i) (undenied : i.denials = 0)
    {offset : Nat} {data more : List UInt8} {post : Nat × Registry → Flat α → Prop}
    (split : ((write id offset data).run g).Returns v fun (n, g₁) w => n = data.length ∧
      ((write id (offset + data.length) more).run g₁).Returns w fun (m, g₂) u =>
        post (data.length + m, g₂) u) :
    ((write id offset (data ++ more)).run g).Returns v post := by
  rw [returns_write found undenied] at split ⊢
  refine stores.returns_write_append ready (split.mono ?_)
  rintro ⟨n, r₁⟩ w ⟨whole, second⟩
  refine ⟨whole, ?_⟩
  have found₁ : (g.withInode id { i with record := r₁ }).inodes[id]? =
      some { i with record := r₁ } := (getElem?_withInode found _ id).trans (if_pos rfl)
  rw [returns_write found₁ undenied] at second
  refine second.mono ?_
  rintro ⟨m, r₂⟩ u holds
  change post (data.length + m, (g.withInode id _).withInode id { i with record := r₂ }) u at holds
  rw [withInode_withInode] at holds
  exact holds

end Registry

namespace FileSystem

variable {δ α : Type} [Device δ] [LawfulDevice δ] {fs fs₁ : FileSystem δ α} {a : Archive}
  {id : InodeId} {o : Opening} {i : Inode} {offset : Nat}

variable [Allocator α] [MappedAllocator α]

/-- After a write of some bytes, the next one leads to where a write of all of them leads. -/
theorem Realizes.write_append (h : fs.Realizes a) (found : a.openings id = some o)
    (undenied : o.denials = 0) {data : List UInt8}
    (first : perform (.write id offset data) fs = .ok (.written data.length) fs₁)
    (more : List UInt8) :
    ∃ m fs₂ fs', perform (.write id (offset + data.length) more) fs₁ = .ok (.written m) fs₂ ∧
      perform (.write id offset (data ++ more)) fs = .ok (.written (data.length + m)) fs' ∧
      fs₂.Alike fs' := by
  have stores := (h.represents.keeps.files (h.represents.matched.live found)).stores
  have inode := h.represents.matched.inode found
  obtain ⟨⟨n, g₁⟩, w, done, represents⟩ : ((Registry.write id offset data).run fs.registry).Returns
      fs.volume.flat fun (n, g₁) w => ∃ a₁, Represents w g₁ a₁ ∧ a₁.openings id = some o := by
    rw [Registry.returns_write inode undenied]
    refine stores.returns_write h.represents.keeps.ready fun r w rewritten bytes => ?_
    exact ⟨_, h.represents.rewritten found rewritten rfl, found⟩
  obtain ⟨fs₁', ran, simulates⟩ := onFiles_flat h.consistent done
  have ran : perform (.write id offset data) fs = .ok (.written n) fs₁' := by
    rw [perform, Action.bind_ok ran]
    rfl
  rw [first] at ran
  cases ran
  obtain ⟨a₁, represents, found₁⟩ := represents
  have stores₁ := (represents.keeps.files (represents.matched.live found₁)).stores
  obtain ⟨⟨m, g₂⟩, u, done', _⟩ : ((Registry.write id (offset + data.length) more).run g₁).Returns w
      fun _ _ => True := by
    rw [Registry.returns_write (represents.matched.inode found₁) undenied]
    exact stores₁.returns_write represents.keeps.ready fun _ _ _ _ => trivial
  have split : ((Registry.write id offset data).run fs.registry).Returns fs.volume.flat
      fun (n, g₁) w => n = data.length ∧
        ((Registry.write id (offset + data.length) more).run g₁).Returns w fun (m', g') u' =>
          (data.length + m', g') = (data.length + m, g₂) ∧ u' = u :=
    ⟨_, _, done, rfl, _, _, done', rfl, rfl⟩
  obtain ⟨_, _, joined, rfl, rfl⟩ : ((Registry.write id offset (data ++ more)).run
      fs.registry).Returns fs.volume.flat fun result u' => result = (data.length + m, g₂) ∧ u' = u :=
    Registry.returns_write_append h.represents.keeps.ready stores inode undenied split
  obtain ⟨registry₁, flat₁⟩ : fs₁.registry = g₁ ∧ fs₁.volume.flat = w :=
    ⟨simulates.registry, simulates.flat⟩
  subst registry₁ flat₁
  obtain ⟨fs₂, ran₂, simulates₂⟩ := onFiles_flat simulates.consistent done'
  obtain ⟨fs', ran', simulates'⟩ := onFiles_flat h.consistent joined
  exact ⟨m, fs₂, fs', by rw [perform, Action.bind_ok ran₂]; rfl,
    by rw [perform, Action.bind_ok ran']; rfl, simulates₂.alike simulates'⟩

omit [Allocator α] [MappedAllocator α]

/-- In every run, a write through an inode in use that puts down all its bytes may be followed by
another one or go on by itself: as many bytes are written, and nothing differs afterwards, be it
in what the allocator was asked for. -/
theorem split_write {device : δ} {capacity total reserved : Nat} {map : SpaceMap}
    (healthy : LawfulDevice.Healthy device) (enough : total ≤ Device.blockCount device)
    (small : total ≤ UInt32.size) (made : SpaceMap.new total reserved = .ok map)
    {fs₀ fs fs₁ : FileSystem δ (Ledger SpaceMap)}
    (mounted : mount device capacity ⟨map, []⟩ = .ok fs₀) (run : Run fs₀ { total, reserved } fs a)
    (inUse : (a.openings id).isSome) (entry : fs.registry.inodes[id]? = some i)
    (undenied : i.denials = 0) {data : List UInt8}
    (first : perform (.write id offset data) fs = .ok (.written data.length) fs₁)
    (more : List UInt8) :
    ∃ m fs₂ fs', perform (.write id (offset + data.length) more) fs₁ = .ok (.written m) fs₂ ∧
      perform (.write id offset (data ++ more)) fs = .ok (.written (data.length + m)) fs' ∧
      fs₂.Alike fs' := by
  have stored : HoldsArchive device map { total, reserved } :=
    (Mountable.blank healthy enough small made).holdsArchive
  have realizes := run.realizes (stored.realizes (simulatesFlat_of_mount healthy mounted))
  obtain ⟨o, found⟩ := Option.isSome_iff_exists.mp inUse
  have current := realizes.represents.matched.inode found
  rw [entry] at current
  cases current
  exact realizes.write_append found undenied first more

/-- Of four sectors, two are left for the data of a file. A write behind its end takes both, and
what goes on from there in mid-sector ends short at the end of that sector; written at once,
just as many bytes find room. -/
theorem split_write_short : ∃ (map : SpaceMap)
    (fs₀ fs fs₁ fs₂ fs' : FileSystem MemoryDisk (Ledger SpaceMap)) (a : Archive) (id : InodeId)
    (i : Inode), LawfulDevice.Healthy (MemoryDisk.zeroed 4) ∧
      4 ≤ Device.blockCount (MemoryDisk.zeroed 4) ∧ 4 ≤ UInt32.size ∧
      SpaceMap.new 4 1 = .ok map ∧ mount (MemoryDisk.zeroed 4) 1 ⟨map, []⟩ = .ok fs₀ ∧
      Run fs₀ { total := 4, reserved := 1 } fs a ∧ (a.openings id).isSome ∧
      fs.registry.inodes[id]? = some i ∧ i.denials = 0 ∧
      perform (.write id 510 [1, 2, 3]) fs = .ok (.written 3) fs₁ ∧
      perform (.write id 513 (List.replicate 512 4)) fs₁ = .ok (.written 511) fs₂ ∧
      perform (.write id 510 ([1, 2, 3] ++ List.replicate 512 4)) fs = .ok (.written 514) fs' ∧
      fs₂.Alike fs' := by
  have small : 4 ≤ UInt32.size := by decide
  obtain ⟨map, fs₀, fs, a, home, id, healthy, enough, made, mounted, run, realizes, occupied⟩ :=
    exists_started (by decide) small
  have inUse : (a.openings id).isSome := by rw [occupied.found]; rfl
  have entry := realizes.represents.matched.inode occupied.found
  have allowed : a.Allows (.write id 510 [1, 2, 3]) := inUse
  obtain ⟨answer, fs₁, first, admitted, realizes₁⟩ := realizes.perform_eq allowed
  have whole : Layout.writable (a.fileOf id).size a.free 510
      ([1, 2, 3] : List UInt8).length = 3 := by
    rw [occupied.fileOf, occupied.free]
    decide
  have written := admitted.write (by rw [occupied.opening])
  rw [whole] at written
  subst written
  obtain ⟨m, fs₂, fs', second, joined, alike⟩ := split_write healthy enough small made mounted run
    inUse entry rfl first (List.replicate 512 4)
  obtain ⟨bytes, bytes_eq⟩ : ∃ bytes, bytes = overlay [] 510 ([1, 2, 3] : List UInt8) := ⟨_, rfl⟩
  have next : a.next (.write id 510 [1, 2, 3]) (.written 3) = a.withBytes id bytes := by
    rw [Archive.next, occupied.fileOf, bytes_eq]
    rfl
  have length : bytes.length = 513 := by
    rw [bytes_eq, length_overlay (by simp)]
    rfl
  rw [next] at realizes₁
  have allowed : (a.withBytes id bytes).Allows (.write id 513 (List.replicate 512 4)) := inUse
  obtain ⟨_, _, second', admitted, _⟩ := realizes₁.perform_eq allowed
  have second : perform (.write id 513 (List.replicate 512 4)) fs₁ = .ok (.written m) fs₂ := second
  rw [second] at second'
  cases second'
  have fileOf : (a.withBytes id bytes).fileOf id = ⟨.file, bytes⟩ := by
    simp only [Archive.fileOf, Archive.withBytes, Archive.opening, occupied.found,
      Option.getD_some, Function.update_self, occupied.file]
  have sectors : (⟨.file, bytes⟩ : File).sectorCount = 3 := by
    rw [File.sectorCount, File.size, length]
    rfl
  have free : (a.withBytes id bytes).free = 0 := by
    simp [Archive.free, Archive.withBytes, occupied.total, occupied.reserved, occupied.granted,
      occupied.live, occupied.opening, occupied.fileOf, sectors]
  have short := admitted.write (by rw [Archive.withBytes, Archive.opening, occupied.found]; rfl)
  rw [fileOf, free, File.size, length, List.length_replicate] at short
  have rest : Layout.writable 513 0 513 512 = 511 := by decide
  rw [rest] at short
  cases short
  exact ⟨map, fs₀, fs, fs₁, fs₂, fs', a, id, _, healthy, enough, small, made, mounted, run, inUse,
    entry, rfl, first, second, joined, alike⟩

end FileSystem

end InodeVolume
