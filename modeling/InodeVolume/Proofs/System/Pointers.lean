import InodeVolume.Proofs.System.Continuity

/-!
# Sectors of data

A sector that was located for some byte of a file is where the data of that byte stay, until the
file is removed and closed for the last time: however files grow or fail to, whoever closes and
opens them, and whenever the file system is synced and mounted anew. No other data are in that
sector, nor is it a record or a table of any file.
-/

namespace InodeVolume

variable {α β : Type} {v w : Flat α} {a a' : Archive} {home home' s t : Sector}
  {offset offset' : Nat}

/-- The data of the file in `home` at an offset are in sector `s`. -/
def Flat.LeadsAt (v : Flat α) (home : Sector) (offset : Nat) (s : Sector) : Prop :=
  (v.recordAt home).Leads v.content offset s

namespace Flat.LeadsAt

theorem prolonged (h : v.LeadsAt home offset s) (prolongs : v.Prolongs home w) :
    w.LeadsAt home offset s := by
  obtain ⟨p, index, present, same⟩ := h
  have kept : (w.recordAt home).links w.content (.data p) = (v.recordAt home).links v.content
    (.data p) := prolongs (.data p) present
  exact ⟨p, index, kept.trans_ne present, (congrArg UInt32.toNat kept).trans same⟩

theorem of_sector (h : v.LeadsAt home offset s)
    (sector : offset' / blockSize = offset / blockSize) : v.LeadsAt home offset' s := by
  obtain ⟨p, index, found⟩ := h
  exact ⟨p, index.trans sector.symm, found⟩

theorem transfer {w : Flat β} (h : v.LeadsAt home offset s) (content : w.content = v.content) :
    w.LeadsAt home offset s := by
  rw [LeadsAt, recordAt, content]
  exact h

theorem unique (h : v.LeadsAt home offset s) (h' : v.LeadsAt home offset' t)
    (sector : offset' / blockSize = offset / blockSize) : t = s := by
  obtain ⟨p, index, _, rfl⟩ := h
  obtain ⟨q, index', _, rfl⟩ := h'
  have same : q = p := Position.index_injective (index'.trans (sector.trans index.symm))
  rw [same]

theorem linked (h : v.LeadsAt home offset s) : s ∈ (v.linksAt home).sectors := by
  obtain ⟨p, _, present, rfl⟩ := h
  exact Links.mem_sectors.mpr ⟨.data p, present, rfl⟩

theorem owned (h : v.LeadsAt home offset s) : s ∈ v.ownedAt home := by
  rw [ownedAt, Record.owned_eq]
  exact List.mem_cons_of_mem home h.linked

variable [Allocator α] [MappedAllocator α]

/-- A sector is owned by one file only. -/
theorem home_eq (keeps : v.Keeps a) (live : home ∈ a.live) (live' : home' ∈ a.live)
    (member : s ∈ v.ownedAt home) (member' : s ∈ v.ownedAt home') : home' = home := by
  by_contra other
  have apart := keeps.apart other
  rw [holding_live live, holding_live live'] at apart
  exact apart member' member

/-- The data of different sectors of files are in different sectors of the volume. -/
theorem injective (keeps : v.Keeps a) (live : home ∈ a.live) (live' : home' ∈ a.live)
    (h : v.LeadsAt home offset s) (h' : v.LeadsAt home' offset' s) :
    home' = home ∧ offset' / blockSize = offset / blockSize := by
  obtain rfl := home_eq keeps live live' h.owned h'.owned
  refine ⟨rfl, ?_⟩
  obtain ⟨p, index, present, same⟩ := h
  obtain ⟨q, index', present', same'⟩ := h'
  have distinct := (keeps.files live).stores.sound.nodup_links
  cases Links.eq_of_nodup distinct (.data q) (.data p) present' (same'.trans same.symm)
  exact index'.symm.trans index

/-- Data are in no sector of a record and in none of a table. -/
theorem apart (keeps : v.Keeps a) (live : home ∈ a.live) (live' : home' ∈ a.live)
    (h : v.LeadsAt home offset s) : s ≠ home' ∧
      ∀ b, v.linksAt home' (.table b) ≠ 0 → (v.linksAt home' (.table b)).toNat ≠ s := by
  have sound := (keeps.files live).stores.sound
  constructor
  · rintro rfl
    obtain rfl := home_eq keeps live live' h.owned (v.home_mem_ownedAt _)
    exact sound.home_notMem h.linked
  · rintro b table same
    have member : s ∈ v.ownedAt home' := by
      rw [ownedAt, Record.owned_eq]
      exact List.mem_cons_of_mem home' (Links.mem_sectors.mpr ⟨.table b, table, same⟩)
    obtain rfl := home_eq keeps live live' h.owned member
    obtain ⟨p, _, present, same'⟩ := h
    exact Links.table_ne_data sound.nodup_links b present (same.trans same'.symm)

end Flat.LeadsAt

theorem Flat.Readable.returns_locate [Allocator α] {f : File} {g : Registry} {id : InodeId}
    (h : v.Readable home f) (faithful : g.Faithful v) (seen : g.opened[home]? = some id)
    (leads : v.LeadsAt home offset s) (inside : offset < (v.recordAt home).size) (count : Nat) :
    ((Registry.locate id offset count false).run g).Returns v fun (found, _) _ =>
      found = some s := by
  obtain ⟨i, found, _, record⟩ := faithful home id seen
  obtain ⟨p, index, present, at_offset⟩ := h.sound.returns_sectorAt h.holds inside
  have here : v.LeadsAt home offset ((v.recordAt home).links v.content (.data p)).toNat :=
    ⟨p, index, present, rfl⟩
  simp only [Registry.locate, Bool.false_eq_true, if_false, StateT.run_bind, Program.returns_bind,
    Registry.returns_inode found, Program.returns_lift]
  rw [record]
  exact (at_offset _).mpr (congrArg some (leads.unique here rfl))

namespace FileSystem

variable {δ : Type} [Device δ] [LawfulDevice δ] {fs₀ fs fs' synced : FileSystem δ SpaceMap}
  {a₀ : Archive} {id : InodeId} {o : Opening} {op : Operation} {answer : Answer}

/-- On the way from one state to another one, the file in sector `home` is there at all times.
The way goes by operations in order, and by mounting a synced file system anew. -/
inductive Stays (home : Sector) (fs₀ : FileSystem δ SpaceMap) (a₀ : Archive) :
    FileSystem δ SpaceMap → Archive → Prop where
  | start : home ∈ a₀.live → Stays home fs₀ a₀ fs₀ a₀
  | step {fs fs' : FileSystem δ SpaceMap} {a : Archive} {op : Operation} {answer : Answer} :
    Stays home fs₀ a₀ fs a → a.Allows op → perform op fs = .ok answer fs' →
      home ∈ (a.next op answer).live → Stays home fs₀ a₀ fs' (a.next op answer)
  | remounted {fs synced fs' : FileSystem δ SpaceMap} {a : Archive} {capacity : Nat} :
    Stays home fs₀ a₀ fs a → perform .sync fs = .ok .nothing synced →
      mount synced.volume.cache.device capacity synced.volume.allocator = .ok fs' →
        Stays home fs₀ a₀ fs' a.unopened

/-- A file system that was synced and mounted anew shows the same volume. -/
theorem Realizes.remounted (h : fs.Realizes a) (done : perform .sync fs = .ok .nothing synced)
    {capacity : Nat}
    (mounted : mount synced.volume.cache.device capacity synced.volume.allocator = .ok fs') :
    fs'.Realizes a.unopened ∧ fs'.volume.flat = fs.volume.flat := by
  obtain ⟨synced', done', saved⟩ := sync_eq h.consistent
  rw [done] at done'
  cases done'
  have stored := h.holdsArchive saved
  have simulates := simulatesFlat_of_mount stored.healthy mounted
  exact ⟨stored.realizes simulates, simulates.flat.trans saved.device⟩

theorem Stays.prolongs (stays : Stays home fs₀ a₀ fs a) (h : fs₀.Realizes a₀) :
    fs.Realizes a ∧ home ∈ a.live ∧ fs₀.volume.flat.Prolongs home fs.volume.flat := by
  induction stays with
  | start live => exact ⟨h, live, fun _ _ => rfl⟩
  | step _ allowed done live ih =>
    obtain ⟨realizes, before, prolongs⟩ := ih
    obtain ⟨after, spares⟩ := realizes.spares allowed done
    exact ⟨after, live, prolongs.trans (spares home before live)⟩
  | remounted _ done mounted ih =>
    obtain ⟨realizes, before, prolongs⟩ := ih
    obtain ⟨after, same⟩ := realizes.remounted done mounted
    exact ⟨after, before, same ▸ prolongs⟩

theorem live_next_locate (count : Nat) (forWrite : Bool) (s : Option Sector) :
    (a.next (.locate id offset count forWrite) (.located s)).live = a.live := by
  cases forWrite <;> cases s <;> rfl

theorem Realizes.leadsAt (h : fs.Realizes a) (found : a.openings id = some o) {count : Nat}
    {forWrite : Bool}
    (done : perform (.locate id offset count forWrite) fs = .ok (.located (some s)) fs') :
    fs'.Realizes (a.next (.locate id offset count forWrite) (.located (some s))) ∧
      fs.volume.flat.Spares a fs'.volume.flat a ∧ fs'.volume.flat.LeadsAt o.home offset s := by
  have allowed : a.Allows (.locate id offset count forWrite) := by
    rw [Archive.Allows, found]
    rfl
  obtain ⟨s', fs'', done', _, after, leads⟩ := h.locate_eq allowed offset count forWrite
  rw [done] at done'
  cases done'
  obtain ⟨_, spares⟩ := h.spares allowed done
  have leads := leads s rfl
  rw [Archive.opening_of_some found] at leads
  refine ⟨after, fun home live still => spares home live ?_, leads⟩
  rw [live_next_locate]
  exact still

/-- Whoever reads inside the file is led to its data. -/
theorem Realizes.locate_read_eq (h : fs.Realizes a) (found : a.openings id = some o)
    (leads : fs.volume.flat.LeadsAt o.home offset s)
    (sector : offset' / blockSize = offset / blockSize)
    (inside : offset' < (fs.recordAt o.home).size) (count : Nat) :
    ∃ fs', perform (.locate id offset' count false) fs = .ok (.located (some s)) fs' := by
  have live := h.represents.matched.live found
  have inUse : (a.openings id).isSome := by rw [found]; rfl
  have size : (fs.recordAt o.home).size = (a.file o.home).size :=
    (h.represents.keeps.files live).size
  obtain ⟨located, fs', done, admitted, _⟩ := h.locate_eq inUse offset' count false
  have isSome : located.isSome := by
    refine admitted.mpr (.inl ?_)
    rw [Archive.fileOf_of_some found, ← size]
    exact inside
  obtain ⟨t, rfl⟩ := Option.isSome_iff_exists.mp isSome
  obtain ⟨_, spares, leads'⟩ := h.leadsAt found done
  obtain rfl := (leads.prolonged (spares _ live live)).unique leads' sector
  exact ⟨fs', done⟩

/-- Sector `s` has the data of the file in `home` that lie in one sector with an offset. -/
structure Pins (fs : FileSystem δ SpaceMap) (a : Archive) (home : Sector) (offset : Nat)
    (s : Sector) : Prop where
  /-- All who have the file open are led there. -/
  found {id : InodeId} {o : Opening} {i : Inode} {offset' : Nat} : a.openings id = some o →
    o.home = home → fs.registry.inodes[id]? = some i → offset' < i.record.size →
      offset' / blockSize = offset / blockSize → ∀ count,
        ∃ fs', perform (.locate id offset' count false) fs = .ok (.located (some s)) fs'
  /-- Those who locate something else are led elsewhere. -/
  injective {id : InodeId} {o : Opening} {offset' count : Nat} {forWrite : Bool} {s' : Sector}
    {fs' : FileSystem δ SpaceMap} : a.openings id = some o →
    perform (.locate id offset' count forWrite) fs = .ok (.located (some s')) fs' →
      o.home ≠ home ∨ offset' / blockSize ≠ offset / blockSize → s' ≠ s
  /-- There is neither a record nor a table. -/
  apart {home' : Sector} : home' ∈ a.live → s ≠ home' ∧
    ∀ b, fs.links home' (.table b) ≠ 0 → (fs.links home' (.table b)).toNat ≠ s
  /-- Whoever syncs and mounts anew, with any cache and any allocator, is led there as well. -/
  remounted {β : Type} [Allocator β] {synced : FileSystem δ SpaceMap} {allocator : β}
    {capacity : Nat} {fresh : FileSystem δ β} : perform .sync fs = .ok .nothing synced →
    mount synced.volume.cache.device capacity allocator = .ok fresh →
      ∃ id opened, perform (.openAt home) fresh = .ok (.opened id) opened ∧
        ∀ offset', offset' / blockSize = offset / blockSize → offset' < (fs.recordAt home).size →
          ∀ count, ∃ fs', perform (.locate id offset' count false) opened =
            .ok (.located (some s)) fs'

theorem Realizes.locate_ne (h : fs.Realizes a) (live : home ∈ a.live)
    (leads : fs.volume.flat.LeadsAt home offset s) (found : a.openings id = some o) {count : Nat}
    {forWrite : Bool}
    (done : perform (.locate id offset' count forWrite) fs = .ok (.located (some t)) fs')
    (differ : o.home ≠ home ∨ offset' / blockSize ≠ offset / blockSize) : t ≠ s := by
  rintro rfl
  obtain ⟨after, spares, leads'⟩ := h.leadsAt found done
  have live' := h.represents.matched.live found
  have same : (a.next (.locate id offset' count forWrite) (.located (some t))).live = a.live :=
    live_next_locate count forWrite (some t)
  have keeps := after.represents.keeps
  obtain ⟨here, sector⟩ := Flat.LeadsAt.injective keeps (same ▸ live) (same ▸ live')
    (leads.prolonged (spares home live live)) leads'
  rcases differ with other | other
  · exact other here
  · exact other sector

/-- Whoever mounts anew what was synced is led to the same data. -/
theorem Realizes.locate_remounted [Allocator β] (h : fs.Realizes a) (live : home ∈ a.live)
    (leads : fs.volume.flat.LeadsAt home offset s) {allocator : β} {capacity : Nat}
    {fresh : FileSystem δ β} (done : perform .sync fs = .ok .nothing synced)
    (mounted : mount synced.volume.cache.device capacity allocator = .ok fresh) :
    ∃ id opened, perform (.openAt home) fresh = .ok (.opened id) opened ∧
      ∀ offset', offset' / blockSize = offset / blockSize → offset' < (fs.recordAt home).size →
        ∀ count, ∃ fs', perform (.locate id offset' count false) opened =
          .ok (.located (some s)) fs' := by
  obtain ⟨synced', done', saved⟩ := sync_eq h.consistent
  rw [done] at done'
  cases done'
  have simulates := simulatesFlat_of_mount (h.holdsArchive saved).healthy mounted
  obtain ⟨id, opened, ran, serves, same, seen⟩ :=
    (saved.serves_mounted h.serves simulates).openAt_eq live
  have content : opened.volume.flat.content = fs.volume.flat.content :=
    (congrArg Flat.content (same.trans simulates.flat)).trans (congrArg Flat.content saved.device)
  have record : opened.volume.flat.recordAt home = fs.recordAt home := by
    rw [Flat.recordAt, content, recordAt]
    rfl
  refine ⟨id, opened, ran, fun offset' sector inside count => ?_⟩
  obtain ⟨⟨_, _⟩, w, filed, rfl⟩ := (serves.readable live).returns_locate serves.faithful seen
    ((leads.of_sector sector).transfer content) (record ▸ inside) count
  obtain ⟨fs', ran, _⟩ := onFiles_flat serves.consistent filed
  exact ⟨fs', by rw [perform, Action.bind_ok ran]; rfl⟩

theorem Realizes.pins (h : fs.Realizes a) (live : home ∈ a.live)
    (leads : fs.volume.flat.LeadsAt home offset s) : fs.Pins a home offset s := by
  refine ⟨?_, ?_, ?_, ?_⟩
  · rintro id o i offset' found rfl entry inside sector count
    have current := h.represents.matched.inode found
    rw [entry, Option.some.injEq] at current
    rw [current] at inside
    exact h.locate_read_eq found leads sector inside count
  · intro id o offset' count forWrite s' fs' found done differ
    exact h.locate_ne live leads found done differ
  · intro home' live'
    have links : fs.links home' = fs.volume.flat.linksAt home' := rfl
    rw [links]
    exact leads.apart h.represents.keeps live live'
  · intro β _ synced allocator capacity fresh done mounted
    exact h.locate_remounted live leads done mounted

/-- In every run, also one that goes on after remounts, a sector that was located is that of the
data from then on, as long as the file is there. -/
theorem located_for_good {device : δ} {map : SpaceMap} {capacity : Nat}
    (mountable : Mountable device map a₀) (mounted : mount device capacity map = .ok fs₀)
    (run : Run fs₀ a₀ fs a) (found : a.openings id = some o) {count : Nat} {forWrite : Bool}
    {fs₁ : FileSystem δ SpaceMap}
    (located : perform (.locate id offset count forWrite) fs = .ok (.located (some s)) fs₁)
    (stays : Stays o.home fs₁ (a.next (.locate id offset count forWrite) (.located (some s)))
      fs' a') : fs'.Pins a' o.home offset s := by
  have stored := mountable.holdsArchive
  have realizes := run.realizes (stored.realizes (simulatesFlat_of_mount stored.healthy mounted))
  obtain ⟨after, _, leads⟩ := realizes.leadsAt found located
  obtain ⟨realizes', live, prolongs⟩ := stays.prolongs after
  exact realizes'.pins live (leads.prolonged prolongs)

/-- What was located behind the first table of a file is found there after a remount with another
cache, by whoever opens the file anew. -/
theorem located_for_good_remounted : ∃ (map : SpaceMap)
    (fs₀ fs fs₁ fs' : FileSystem MemoryDisk SpaceMap) (a a' : Archive) (id id' : InodeId)
    (home s : Sector), Mountable (MemoryDisk.zeroed 128) map { total := 128, reserved := 1 } ∧
      mount (MemoryDisk.zeroed 128) 1 map = .ok fs₀ ∧
      Run fs₀ { total := 128, reserved := 1 } fs a ∧ a.openings id = some { home } ∧
      perform (.locate id 62976 1 true) fs = .ok (.located (some s)) fs₁ ∧
      Stays home fs₁ (a.next (.locate id 62976 1 true) (.located (some s))) fs' a' ∧
      a'.openings id' = some { home } ∧
      ∃ fs'', perform (.locate id' 62978 1 false) fs' = .ok (.located (some s)) fs'' := by
  obtain ⟨fs₀, fs, a, id, home, made, run, found, live, _, file⟩ := exists_run
  obtain ⟨map, mapped, mounted⟩ := mount_of_new made
  have mountable : Mountable (MemoryDisk.zeroed 128) map { total := 128, reserved := 1 } :=
    .blank (MemoryDisk.healthy_zeroed (by decide)) (MemoryDisk.blockCount_zeroed 128).ge (by decide)
      mapped
  have stored := mountable.holdsArchive
  have realizes := run.realizes (stored.realizes (simulatesFlat_of_mount stored.healthy mounted))
  have size : (a.file home).size = 62979 := by
    rw [file, File.size, length_overlay (by simp)]
    rfl
  have here : home ∈ a.live := live ▸ Finset.mem_singleton_self home
  obtain ⟨answer, fs₁, located, admitted, realizes₁, _⟩ :=
    realizes.locate_eq (by rw [found]; rfl) 62976 1 true
  have isSome : answer.isSome := by
    refine admitted.mpr (.inl ?_)
    rw [Archive.fileOf_of_some found, size]
    decide
  obtain ⟨s, rfl⟩ := Option.isSome_iff_exists.mp isSome
  obtain ⟨a₁, next⟩ : ∃ a₁, a₁ = a.next (.locate id 62976 1 true) (.located (some s)) := ⟨_, rfl⟩
  have live₁ : home ∈ a₁.live := by
    rw [next, live_next_locate]
    exact here
  obtain ⟨synced, saved, durable⟩ := sync_eq realizes₁.consistent
  obtain ⟨fresh, remounted, _⟩ := mount_eq (realizes₁.holdsArchive durable).healthy
    (by decide : 0 < 2) synced.volume.allocator
  rw [← next] at realizes₁
  have stays : Stays home fs₁ a₁ fresh a₁.unopened := .remounted (.start live₁) saved remounted
  obtain ⟨realizes₂, _⟩ := realizes₁.remounted saved remounted
  have allowed : a₁.unopened.Allows (.openAt home) := live₁
  obtain ⟨answer, fs', opened, admitted, realizes'⟩ := realizes₂.perform_eq allowed
  obtain ⟨id', rfl⟩ := admitted.openAt
  obtain ⟨a', next'⟩ : ∃ a', a' = a₁.unopened.next (.openAt home) (.opened id') := ⟨_, rfl⟩
  have inUse : a'.openings id' = some { home } := by
    rw [next', Archive.next]
    exact Function.update_self ..
  have still : home ∈ a'.live := next' ▸ live₁
  have stays' : Stays home fs₁ a₁ fs' a' := by
    subst next'
    exact stays.step live₁ opened still
  rw [← next'] at realizes'
  rw [next] at stays'
  have pins := located_for_good mountable mounted run found located stays'
  have entry := realizes'.represents.matched.inode inUse
  have grown : (a'.file home).bytes = (a.file home).bytes ++ List.replicate
      (Layout.sizeFor (a.file home).size 62976 1 - (a.file home).size) 0 := by
    have unopened : a'.file home = a₁.file home := by
      rw [next']
      rfl
    rw [unopened, next, Archive.next, Archive.withBytes, Archive.fileOf_of_some found,
      Archive.opening_of_some found]
    change (Function.update a.file home _ home).bytes = _
    rw [Function.update_self]
  have inside : 62978 < (fs'.volume.flat.recordAt home).size := by
    rw [(realizes'.represents.keeps.files still).size, File.size, grown, List.length_append]
    exact Nat.lt_of_lt_of_le (by rw [size]; decide) (Nat.le_add_right (a.file home).size _)
  exact ⟨map, fs₀, fs, fs₁, fs', a, a', id, id', home, s, mountable, mounted, run, found, located,
    stays', inUse, pins.found inUse rfl entry inside rfl 1⟩

end FileSystem

end InodeVolume
