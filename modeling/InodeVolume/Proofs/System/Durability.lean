import InodeVolume.File.Probe
import InodeVolume.Proofs.System.Invariants
import InodeVolume.Proofs.System.Mounting

/-!
# Durability

What was done to the files of a synced file system is on its device. Whoever mounts
the device anew, with any cache and any allocator, finds each live file with its
record and its bytes, and goes on finding them while files are opened and read; and
the kind of a file can be told from the device alone.
-/

namespace InodeVolume

variable {α β : Type} {v : Flat α} {g : Registry} {home : Sector} {f : File} {id : InodeId}

/-- The volume has a file that can be read, for which its allocator does not matter. -/
structure Flat.Readable (v : Flat α) (home : Sector) (f : File) : Prop where
  ne_null : home ≠ Sector.null
  inside : home < v.limit
  sound : (v.recordAt home).Sound v.content home
  holds : v.Holds ((v.recordAt home).links v.content).sectors
  tag : (v.recordAt home).tag = f.kind.tag
  bytes : (v.recordAt home).bytes v.content = f.bytes

theorem Flat.Shows.readable [Allocator α] [MappedAllocator α] (h : v.Shows home f)
    (ready : v.Ready) : v.Readable home f where
  ne_null := h.stores.home_ne_null
  inside := ready.lt_limit h.stores.home_used
  sound := h.stores.sound
  holds := h.stores.holds ready
  tag := h.tag
  bytes := h.bytes

theorem Flat.Readable.transfer (h : v.Readable home f) {w : Flat β} (content : w.content = v.content)
    (limit : w.limit = v.limit) : w.Readable home f := by
  obtain ⟨wcontent, wlimit, allocator⟩ := w
  obtain rfl : wcontent = v.content := content
  obtain rfl : wlimit = v.limit := limit
  exact ⟨h.ne_null, h.inside, h.sound, h.holds, h.tag, h.bytes⟩

/-- Whoever finds an inode in the registry finds it with the record on the volume. -/
def Registry.Faithful (g : Registry) (v : Flat α) : Prop :=
  ∀ home id, g.opened[home]? = some id →
    ∃ i, g.inodes[id]? = some i ∧ i.home = home ∧ i.record = v.recordAt home

theorem Registry.Matches.faithful {a : Archive} (h : g.Matches v a) : g.Faithful v := by
  intro home id seen
  obtain ⟨o, found, rfl⟩ := h.opened.mp seen
  exact ⟨_, h.inode found, rfl, rfl⟩

namespace Registry.Faithful

theorem withInode (h : g.Faithful v) {i i' : Inode} (found : g.inodes[id]? = some i)
    (here : i'.home = i.home) (record : i'.record = i.record) : (g.withInode id i').Faithful v := by
  intro s id' seen
  obtain ⟨i₀, found₀, here₀, record₀⟩ := h s id' seen
  simp only [Registry.withInode, Array.getElem?_setIfInBounds]
  by_cases same : id = id'
  · subst same
    rw [found] at found₀
    cases found₀
    have inside : id < g.inodes.size := (Array.getElem?_eq_some_iff.mp found).1
    exact ⟨i', by rw [if_pos rfl, if_pos inside], here.trans here₀, record.trans record₀⟩
  · exact ⟨i₀, by rw [if_neg same]; exact found₀, here₀, record₀⟩

theorem enter (h : g.Faithful v) (home : Sector) :
    Faithful { inodes := g.inodes.push { home, record := v.recordAt home }
               opened := g.opened.insert home g.inodes.size } v := by
  intro s id seen
  simp only [Std.TreeMap.getElem?_insert, Nat.compare_eq_eq] at seen
  by_cases same : home = s
  · subst same
    rw [if_pos rfl, Option.some.injEq] at seen
    subst seen
    exact ⟨_, Array.getElem?_push_size, rfl, rfl⟩
  · rw [if_neg same] at seen
    obtain ⟨i, found, here, record⟩ := h s id seen
    have inside : id < g.inodes.size := (Array.getElem?_eq_some_iff.mp found).1
    exact ⟨i, by rw [Array.getElem?_push, if_neg (Nat.ne_of_lt inside)]; exact found, here, record⟩

end Registry.Faithful

namespace Flat.Readable

theorem kind (h : v.Readable home f) : (v.recordAt home).kind = .ok f.kind := by
  rw [Record.kind, h.tag, Kind.ofTag?_tag]

theorem size (h : v.Readable home f) : (v.recordAt home).size = f.size := by
  rw [File.size, ← h.bytes, Record.length_bytes]

variable [Allocator α]

theorem returns_openAt (h : v.Readable home f) (faithful : g.Faithful v) :
    ((Registry.openAt home).run g).Returns v fun (id, g') w =>
      w = v ∧ g'.Faithful v ∧ g'.opened[home]? = some id ∧
        ∀ s, g'.opened[s]?.isSome → s = home ∨ g.opened[s]?.isSome := by
  simp only [Registry.openAt, StateT.run_bind, StateT.run_get, Program.returns_bind,
    Program.returns_pure]
  cases seen : g.opened[home]? with
  | some id =>
    obtain ⟨i, found, _⟩ := faithful home id seen
    simp only [Registry.reopen, StateT.run_bind, Program.returns_bind,
      Registry.returns_inode found, Registry.run_put, Program.returns_pure, StateT.run_pure]
    exact ⟨trivial, faithful.withInode found rfl rfl, seen, fun _ => .inr⟩
  | none =>
    have kind : (Kind.ofTag? (Record.decode (v.content home)).tag).isSome := h.sound.kind
    simp only [StateT.run_bind, Program.returns_bind, Program.returns_lift, Program.returns_read,
      Program.returns_require, h.inside, kind, true_and, Registry.enter, StateT.run_get,
      StateT.run_set, StateT.run_pure, Program.returns_pure]
    refine ⟨faithful.enter home, by simp, fun s => ?_⟩
    simp only [Std.TreeMap.getElem?_insert, Nat.compare_eq_eq]
    by_cases same : home = s
    · exact fun _ => .inl same.symm
    · rw [if_neg same]
      exact .inr

theorem returns_read (h : v.Readable home f) (faithful : g.Faithful v)
    (seen : g.opened[home]? = some id) (offset count : Nat) :
    ((Registry.read id offset count).run g).Returns v fun (bytes, g') w =>
      w = v ∧ g' = g ∧ bytes = (f.bytes.drop offset).take count := by
  obtain ⟨i, found, _, record⟩ := faithful home id seen
  simp only [Registry.read, StateT.run_bind, Program.returns_bind, Registry.returns_inode found,
    Program.returns_lift]
  rw [record]
  refine (h.sound.returns_read h.holds).mpr ⟨rfl, trivial, ?_⟩
  rw [h.bytes]

end Flat.Readable

namespace FileSystem

variable {δ : Type} [Device δ]

/-- Whoever opens the file at `home` gets an inode with the record `r`, and reads the bytes of
`f` through it. -/
def Offers [Allocator α] (fs : FileSystem δ α) (home : Sector) (r : Record) (f : File) : Prop :=
  ∃ id fs' i, perform (.openAt home) fs = .ok (.opened id) fs' ∧
    fs'.registry.inodes[id]? = some i ∧ i.home = home ∧ i.record = r ∧
    ∀ offset count, ∃ fs'', perform (.read id offset count) fs' =
      .ok (.bytes ((f.bytes.drop offset).take count)) fs''

/-- What a file system comes to when live files are opened, and read from once they are open. -/
inductive Browsed [Allocator α] (fs₀ : FileSystem δ α) (a : Archive) : FileSystem δ α → Prop where
  | start : Browsed fs₀ a fs₀
  | openAt {fs fs' : FileSystem δ α} {home : Sector} {answer : Answer} :
    Browsed fs₀ a fs → home ∈ a.live → perform (.openAt home) fs = .ok answer fs' →
      Browsed fs₀ a fs'
  | read {fs fs' : FileSystem δ α} {home : Sector} {id : InodeId} {offset count : Nat}
    {answer : Answer} : Browsed fs₀ a fs → fs.registry.opened[home]? = some id →
      perform (.read id offset count) fs = .ok answer fs' → Browsed fs₀ a fs'

variable [LawfulDevice δ]

/-- The live files can be read, and those that are open have inodes with their records. -/
structure Serves (fs : FileSystem δ α) (a : Archive) : Prop where
  consistent : fs.volume.cache.Consistent
  readable {home : Sector} : home ∈ a.live → fs.volume.flat.Readable home (a.file home)
  faithful : fs.registry.Faithful fs.volume.flat
  opened (home : Sector) : fs.registry.opened[home]?.isSome → home ∈ a.live

theorem Realizes.serves [Allocator α] [MappedAllocator α] {fs : FileSystem δ α} {a : Archive}
    (h : fs.Realizes a) : fs.Serves a where
  consistent := h.consistent
  readable live := (h.represents.keeps.files live).readable h.represents.keeps.ready
  faithful := h.represents.matched.faithful
  opened home seen := by
    obtain ⟨id, seen⟩ := Option.isSome_iff_exists.mp seen
    obtain ⟨o, found, rfl⟩ := h.represents.matched.opened.mp seen
    exact h.represents.matched.live found

namespace Serves

variable [Allocator α] {fs fs₀ : FileSystem δ α} {a : Archive}

theorem openAt_eq (h : fs.Serves a) (live : home ∈ a.live) :
    ∃ id fs', perform (.openAt home) fs = .ok (.opened id) fs' ∧ fs'.Serves a ∧
      fs'.volume.flat = fs.volume.flat ∧ fs'.registry.opened[home]? = some id := by
  obtain ⟨⟨id, g⟩, w, done, rfl, faithful, seen, others⟩ :=
    (h.readable live).returns_openAt h.faithful
  obtain ⟨fs', ran, consistent, rfl, same⟩ := onFiles_flat h.consistent done
  refine ⟨id, fs', by rw [perform, Action.bind_ok ran]; rfl, ⟨consistent, ?_, ?_, ?_⟩, same, seen⟩
  · exact fun live' => same ▸ h.readable live'
  · exact same ▸ faithful
  · intro s seen'
    rcases others s seen' with rfl | old
    · exact live
    · exact h.opened s old

theorem read_eq (h : fs.Serves a) (seen : fs.registry.opened[home]? = some id)
    (offset count : Nat) :
    ∃ fs', perform (.read id offset count) fs =
        .ok (.bytes (((a.file home).bytes.drop offset).take count)) fs' ∧ fs'.Serves a ∧
      fs'.volume.flat = fs.volume.flat := by
  have live : home ∈ a.live := h.opened home (by rw [seen]; rfl)
  obtain ⟨⟨bytes, g⟩, w, done, rfl, rfl, rfl⟩ :=
    (h.readable live).returns_read h.faithful seen offset count
  obtain ⟨fs', ran, consistent, registry, same⟩ := onFiles_flat h.consistent done
  refine ⟨fs', by rw [perform, Action.bind_ok ran]; rfl, ⟨consistent, ?_, ?_, ?_⟩, same⟩
  · exact fun live' => same ▸ h.readable live'
  · rw [registry, same]
    exact h.faithful
  · rw [registry]
    exact h.opened

theorem offers (h : fs.Serves a) (live : home ∈ a.live) :
    fs.Offers home (fs.recordAt home) (a.file home) := by
  obtain ⟨id, fs', done, serves, same, seen⟩ := h.openAt_eq live
  obtain ⟨i, found, here, record⟩ := serves.faithful home id seen
  refine ⟨id, fs', i, done, found, here, ?_, fun offset count => ?_⟩
  · rw [record, same]
    rfl
  · obtain ⟨fs'', read, _⟩ := serves.read_eq seen offset count
    exact ⟨fs'', read⟩

/-- Browsing changes nothing that can be seen. -/
theorem browsed (h : fs₀.Serves a) (browsed : Browsed fs₀ a fs) :
    fs.Serves a ∧ fs.volume.flat = fs₀.volume.flat := by
  induction browsed with
  | start => exact ⟨h, rfl⟩
  | openAt _ live done ih =>
    obtain ⟨id, fs', done', serves, same, _⟩ := ih.1.openAt_eq live
    rw [done] at done'
    cases done'
    exact ⟨serves, same.trans ih.2⟩
  | read _ seen done ih =>
    obtain ⟨fs', done', serves, same⟩ := ih.1.read_eq seen _ _
    rw [done] at done'
    cases done'
    exact ⟨serves, same.trans ih.2⟩

end Serves

/-- The device alone tells the kind of a file, and does not change by that. -/
theorem probe_eq {device : δ} {allocator : α} (healthy : LawfulDevice.Healthy device)
    (h : (bare device allocator).Readable home f) :
    ∃ d, Kind.probe home device = .ok (.ok f.kind) d ∧ LawfulDevice.Healthy d ∧
      bare d allocator = bare device allocator := by
  obtain ⟨d, done, sound, count, same⟩ := LawfulDevice.readBlock_eq healthy h.inside
  have named : (home.isNull || decide (Device.blockCount device ≤ home)) = false := by
    have present := h.ne_null
    have inside : home < Device.blockCount device := h.inside
    simp [Sector.isNull, present, inside]
  have tag : (Record.decode (LawfulDevice.content device home)).tag = f.kind.tag := h.tag
  refine ⟨d, ?_, sound, by rw [bare, same, count, bare]⟩
  unfold Kind.probe
  rw [Action.get_bind, named, if_neg Bool.false_ne_true, Action.bind_ok done]
  simp only [tag, Kind.ofTag?_tag]
  rfl

/-- Where the device of a synced file system is mounted anew, the same files are served. -/
theorem Synced.serves_mounted {fs synced : FileSystem δ α} {fresh : FileSystem δ β} {a : Archive}
    (h : Synced fs synced) (serves : fs.Serves a) {allocator : β}
    (simulates : fresh.SimulatesFlat {} (bare synced.volume.cache.device allocator)) :
    fresh.Serves a where
  consistent := simulates.consistent
  readable live := by
    have readable := serves.readable live
    rw [← h.device] at readable
    rw [simulates.flat]
    exact readable.transfer rfl rfl
  faithful home id seen := by
    rw [simulates.registry] at seen
    simp at seen
  opened home seen := by
    rw [simulates.registry] at seen
    simp at seen

/-- What becomes of the file in sector `home` when its file system is synced: it is served as
before, and so it is, with any cache and any allocator, by whoever mounts the device anew. -/
structure Durable (fs synced : FileSystem δ SpaceMap) (a : Archive) (home : Sector) : Prop where
  kind : (fs.recordAt home).kind = .ok (a.file home).kind
  size : (fs.recordAt home).size = (a.file home).size
  probe : ∃ d, Kind.probe home synced.volume.cache.device = .ok (.ok (a.file home).kind) d
  served : synced.Offers home (fs.recordAt home) (a.file home)
  /-- Those who had the file open go on reading its bytes. -/
  handles {id : InodeId} {o : Opening} : a.openings id = some o → o.home = home →
    ∀ offset count, ∃ fs', perform (.read id offset count) synced =
      .ok (.bytes (((a.file home).bytes.drop offset).take count)) fs'
  remounted {α : Type} [Allocator α] (allocator : α) {capacity : Nat} : 0 < capacity →
    ∃ fresh, mount synced.volume.cache.device capacity allocator = .ok fresh ∧
      ∀ browsed, Browsed fresh a browsed → browsed.Offers home (fs.recordAt home) (a.file home)

theorem Realizes.durable {fs synced : FileSystem δ SpaceMap} {a : Archive} (h : fs.Realizes a)
    (saved : Synced fs synced) (live : home ∈ a.live) : Durable fs synced a home := by
  have readable := h.serves.readable live
  have after : synced.Realizes a := saved.simulates.realizes h.represents
  have same : synced.recordAt home = fs.recordAt home :=
    congrArg (·.recordAt home) saved.simulates.flat
  have stored := h.holdsArchive saved
  refine ⟨readable.kind, readable.size, ?_, same ▸ after.serves.offers live, ?_, ?_⟩
  · obtain ⟨d, probed, _⟩ := probe_eq stored.healthy (saved.device ▸ readable)
    exact ⟨d, probed⟩
  · rintro id o found rfl offset count
    have seen := after.represents.matched.opened.mpr ⟨o, found, rfl⟩
    obtain ⟨fs', read, _⟩ := after.serves.read_eq seen offset count
    exact ⟨fs', read⟩
  · intro α _ allocator capacity positive
    obtain ⟨fresh, mounted, simulates⟩ := mount_eq stored.healthy positive allocator
    refine ⟨fresh, mounted, fun browsed browsing => ?_⟩
    obtain ⟨serves, still⟩ := (saved.serves_mounted h.serves simulates).browsed browsing
    have remounted := congrArg Flat.content (still.trans simulates.flat)
    have content : browsed.volume.cache.content = fs.volume.cache.content :=
      remounted.trans (congrArg Flat.content saved.device)
    have record : browsed.recordAt home = fs.recordAt home := by
      rw [recordAt, content, recordAt]
    exact record ▸ serves.offers live

/-- In every run, an inode in use has the record that stands in its sector, and when the file
system is synced all live files outlast it. -/
theorem files_durable {device : δ} {map : SpaceMap} {a₀ a : Archive} {capacity : Nat}
    {fs₀ fs : FileSystem δ SpaceMap} (mountable : Mountable device map a₀)
    (mounted : mount device capacity map = .ok fs₀) (run : Run fs₀ a₀ fs a) :
    fs.Current a ∧ ∃ synced, perform .sync fs = .ok .nothing synced ∧
      Mountable synced.volume.cache.device synced.volume.allocator a.unopened ∧
      ∀ home ∈ a.live, Durable fs synced a home := by
  have stored := mountable.holdsArchive
  have realizes := run.realizes (stored.realizes (simulatesFlat_of_mount stored.healthy mounted))
  obtain ⟨synced, done, saved⟩ := sync_eq realizes.consistent
  exact ⟨realizes.current, synced, done, mountable.synced mounted run done,
    fun home live => realizes.durable saved live⟩

/-- The last bytes of a file with a table are read after a remount with another cache, where
nothing at all can be allocated. -/
theorem files_durable_tabled :
    ∃ (map : SpaceMap) (fs₀ fs : FileSystem MemoryDisk SpaceMap) (a : Archive) (home : Sector),
      Mountable (MemoryDisk.zeroed 128) map { total := 128, reserved := 1 } ∧
      mount (MemoryDisk.zeroed 128) 1 map = .ok fs₀ ∧
      Run fs₀ { total := 128, reserved := 1 } fs a ∧
      ∃ synced fresh id fs' fs'', perform .sync fs = .ok .nothing synced ∧
        mount synced.volume.cache.device 5 (⟨1, 0⟩ : Sequence) = .ok fresh ∧
        perform (.openAt home) fresh = .ok (.opened id) fs' ∧
        perform (.read id 62976 10) fs' = .ok (.bytes [1, 2, 3]) fs'' := by
  obtain ⟨fs₀, fs, a, _, home, made, run, _, live, _, file⟩ := exists_run
  obtain ⟨map, mapped, mounted⟩ := mount_of_new made
  have mountable : Mountable (MemoryDisk.zeroed 128) map { total := 128, reserved := 1 } :=
    .blank (MemoryDisk.healthy_zeroed (by decide)) (MemoryDisk.blockCount_zeroed 128).ge (by decide)
      mapped
  obtain ⟨_, synced, done, _, durable⟩ := files_durable mountable mounted run
  have here : home ∈ a.live := live ▸ Finset.mem_singleton_self home
  obtain ⟨fresh, remounted, offers⟩ :=
    (durable home here).remounted (⟨1, 0⟩ : Sequence) (by decide : 0 < 5)
  obtain ⟨id, fs', i, opened, _, _, _, reads⟩ := offers fresh .start
  obtain ⟨fs'', read⟩ := reads 62976 10
  simp only [file] at read
  rw [drop_overlay_past (Nat.zero_le _) (List.cons_ne_nil _ _)] at read
  exact ⟨map, fs₀, fs, a, home, mountable, mounted, run, synced, fresh, id, fs', fs'', done,
    remounted, opened, read⟩

end FileSystem

end InodeVolume
