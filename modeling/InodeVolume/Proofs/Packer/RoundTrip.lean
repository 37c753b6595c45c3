import InodeVolume.Proofs.Cache.FlatArray
import InodeVolume.Proofs.Packer.Packing
import InodeVolume.Proofs.System.Durability

/-!
# The way into an image and back

Whoever gets an image reads each file in it as far as there was space for it, with a cache and a
space map of their own.
-/

namespace InodeVolume

namespace Packer

section Returns

variable {α : Type} [Allocator α] {v : Flat α} {g : Registry} {id : InodeId} {home : Sector}
  {f : File}

theorem returns_close_only {record : Record} (found : g.inodes[id]? = some { home, record }) :
    ((Registry.close id).run g).Returns v fun _ w => w = v := by
  have dropped : Inode.dropOpener { home, record } = .ok { home, record, openers := 0 } := rfl
  simp only [Registry.close, StateT.run_bind, Program.returns_bind, Registry.returns_inode found,
    Program.returns_lift, Program.returns_ofExcept, dropped, Except.ok.injEq, exists_eq_left',
    Registry.run_put, Program.returns_pure, if_true, StateT.run_modify]
  exact Program.returns_pure.mpr rfl

theorem returns_slurp (h : v.Readable home f)
    (found : g.inodes[id]? = some { home, record := v.recordAt home }) :
    ((Registry.inode id).run g).Returns v fun i w => i.1.record.size < sizeLimit ∧
      ((Registry.read id 0 i.1.record.size).run i.2).Returns w fun (bytes, g) w =>
        ((Registry.close id).run g).Returns w fun _ _ => bytes = f.bytes := by
  rw [Registry.returns_inode found]
  refine ⟨Nat.lt_of_le_of_lt h.sound.size_le (by decide), ?_⟩
  simp only [Registry.read, StateT.run_bind, Program.returns_bind, Registry.returns_inode found,
    Program.returns_lift]
  refine (h.sound.returns_read h.holds).mpr ((returns_close_only found).mono fun _ _ _ => ?_)
  rw [List.drop_zero, h.bytes, h.size, File.size, List.take_length]

/-- Who opens a file while nobody else has one open reads it to its end. -/
theorem returns_contentOf (h : v.Readable home f) :
    ((contentOf home).run {}).Returns v fun (bytes, _) _ => bytes = f.bytes := by
  have kind : (Kind.ofTag? (Record.decode (v.content home)).tag).isSome := h.sound.kind
  have unopened : ({} : Registry).opened[home]? = none := Std.TreeMap.getElem?_emptyc
  simp only [contentOf, Registry.openAt, StateT.run_bind, StateT.run_get, Program.returns_bind,
    Program.returns_pure, unopened, Program.returns_lift, Program.returns_read,
    Program.returns_require, h.inside, kind, true_and, Registry.enter, StateT.run_set,
    StateT.run_pure]
  exact returns_slurp h Array.getElem?_push_size

end Returns

open FileSystem

/-- A file that can be read on an image is read by anyone who gets the image. -/
theorem cat_eq {d : ImageDisk} {home : Sector} {f : File} {α : Type} {allocator : α}
    (healthy : LawfulDevice.Healthy d) (h : (bare d allocator).Readable home f) :
    (cat d home).1 = .ok f.bytes := by
  obtain ⟨d', probed, healthy', same⟩ := probe_eq healthy h
  obtain ⟨cache, made, consistent, shows, _, device⟩ :=
    Cache.new_eq healthy' (by decide : 0 < Cache.defaultCapacity)
  have count : d'.blockCount = d.blockCount := congrArg Flat.limit same
  have inside : home < d'.blockCount := count ▸ h.inside
  obtain ⟨map, mapped, _⟩ := SpaceMap.new_eq (Nat.zero_lt_of_lt inside) (Nat.le_refl d'.blockCount)
  have mounted : mount d' d'.blockCount d'.blockCount = .ok ⟨cache, map⟩ := by
    rw [mount, made, mapped]
    rfl
  have readable : (Volume.flat ⟨cache, map⟩).Readable home f := by
    refine h.transfer ?_ ?_
    · exact shows.trans (congrArg Flat.content same)
    · rw [← device] at count
      exact count
  obtain ⟨⟨bytes, g⟩, v, done, _, rfl⟩ :=
    Volume.perform_of_returns consistent (returns_contentOf readable)
  simp only [cat, probed, mounted, done]

/-- What a volume shows is read on its image, once the volume has been given up. -/
theorem cat_unmounted {v : Volume ImageDisk SpaceMap} {home : Sector} {f : File}
    (consistent : v.cache.Consistent) (h : v.flat.Readable home f) :
    (cat (.ofFile v.unmount.file) home).1 = .ok f.bytes := by
  obtain ⟨c, kept, unmounted, saved⟩ := CacheCommand.unmount_eq consistent
  have sized : ImageDisk.Sized c.device := kept.consistent.healthy
  have readable : (bare c.device v.allocator).Readable home f := h.transfer saved kept.blockCount
  rw [unmounted, sized.ofFile_file]
  exact cat_eq kept.consistent.healthy readable

section Pack

variable {size reserved : Nat}

theorem blank_eq (small : size ≤ UInt32.size) :
    blank size = .ok (.ofFile (.zeros (size * blockSize))) := by
  have bound : size * blockSize ≤ UInt32.size * blockSize := Nat.mul_le_mul_right _ small
  rw [blank, if_neg, if_neg, if_neg]
  · exact Nat.not_lt.mpr (bound.trans (by decide))
  · exact Nat.not_le.mpr (bound.trans_lt (by decide))
  · exact Nat.not_le.mpr (bound.trans_lt (by decide))

theorem mount_blank (positive : 1 ≤ reserved) (fits : reserved ≤ size) (small : size ≤ UInt32.size) :
    ∃ volume, mount (.ofFile (.zeros (size * blockSize))) size reserved = .ok volume ∧
      volume.cache.Consistent ∧ volume.flat.Keeps { total := size, reserved } := by
  have healthy : LawfulDevice.Healthy (ImageDisk.ofFile (.zeros (size * blockSize))) :=
    ImageDisk.sized_ofFile ((Nat.mul_le_mul_right _ small).trans_lt (by decide))
  have count : size * blockSize / blockSize = size := Nat.mul_div_cancel _ (by decide)
  obtain ⟨cache, made, consistent, _, _, device⟩ :=
    Cache.new_eq healthy (by decide : 0 < Cache.defaultCapacity)
  obtain ⟨map, mapped, _⟩ := SpaceMap.new_eq positive fits
  refine ⟨⟨cache, map⟩, by rw [mount, made, mapped]; rfl, consistent, .of_new mapped ?_ small⟩
  change size ≤ cache.device.blockCount
  rw [device]
  exact count.ge

def firstLine (name : String) (size : Nat) : String :=
  s!"image={Quoted.encode name} sectors={size}"

theorem pack_of_finish (name : String) (positive : 1 ≤ reserved) (fits : reserved ≤ size)
    (small : size ≤ UInt32.size) {volume : Volume ImageDisk SpaceMap}
    (mounted : mount (.ofFile (.zeros (size * blockSize))) size reserved = .ok volume)
    {files : List (String × Except HostError Source)} {flushes : List Bool}
    {failure : Option Failure} {p : Packing}
    (done : Packing.finish files ⟨volume, [firstLine name size], flushes⟩ = .ok failure p) :
    pack name (.ok ()) size reserved files flushes =
      ⟨p.lines.reverse, some p.volume.unmount.file, failure⟩ := by
  have accepted : refuses size reserved = false := by
    simp [refuses, Nat.one_le_iff_ne_zero.mp positive, Nat.not_lt.mpr fits]
  have made : (do mount (← blank size) size reserved |>.mapError .fault : Except Failure _) =
      .ok volume := by
    rw [blank_eq small]
    change Except.mapError _ (mount _ size reserved) = _
    rw [mounted]
    rfl
  simp only [pack, accepted, Bool.false_eq_true, if_false, made]
  rw [firstLine] at done
  rw [done]

/-- What `cat` makes of the image in which files were placed, in the order of the files. -/
structure Restores (total reserved : Nat) (files : List (String × SparseFile))
    (placed : List (Sector × Nat)) (image : SparseFile) : Prop where
  nodup : (placed.map Prod.fst).Nodup
  /-- Beside its record, a file has as many of its bytes as fit into the sectors that those before
  it have left. These are the bytes that are read. -/
  share {k : Nat} {name : String} {f : SparseFile} {home : Sector} {count : Nat} :
    files[k]? = some (name, f) → placed[k]? = some (home, count) →
      reserved ≤ home ∧ home < total ∧
      (∃ left, reserved + Archive.spent (placed.take k) + 1 + left = total ∧
        IsGreatest {n | n ≤ min f.length Layout.maxLength ∧ Layout.footprint n ≤ left} count) ∧
      (cat (.ofFile image) home).1 = .ok (f.bytes.take count)

theorem restores_of_packs {files : List (String × SparseFile)} {placed : List (Sector × Nat)}
    {a : Archive} {v : Volume ImageDisk SpaceMap} (fits : reserved ≤ size)
    (packs : Archive.Packs { total := size, reserved } (contents files) placed a)
    (keeps : v.flat.Keeps a) (consistent : v.cache.Consistent) :
    Restores size reserved files placed v.unmount.file where
  nodup := packs.nodup
  share {k name f home count} file entry := by
    have data : (contents files)[k]? = some f.bytes := by
      rw [contents, List.getElem?_map, file]
      rfl
    obtain ⟨⟨b, total, same, left, takes⟩, live, shown⟩ := packs.each data entry
    obtain ⟨free, reserved_le, lt_total, _, greatest⟩ := takes
    rw [SparseFile.length_bytes] at greatest
    rw [Archive.free_new] at left
    have readable := (keeps.files live).readable keeps.ready
    refine ⟨same.ge.trans reserved_le, lt_total.trans_eq total, ⟨b.free - 1, by omega, greatest⟩, ?_⟩
    rw [cat_unmounted consistent readable, shown]

/-- Packing files into a fresh image prints where each file went that found a sector for its
record, until the first that finds none, and the free sectors if there is no such file. All sectors
are accounted for, and whatever the agent did meanwhile, each file is read back from the image as
far as there was space for it. -/
theorem pack_then_cat (name : String) (positive : 1 ≤ reserved) (fits : reserved ≤ size)
    (small : size ≤ UInt32.size) (files : List (String × SparseFile)) (flushes : List Bool) :
    ∃ placed image free failure, pack name (.ok ()) size reserved (sources files) flushes =
        ⟨firstLine name size :: fileLines files placed ++ Packing.lastLine free failure,
          some image, failure⟩ ∧
      Packing.Ended files placed failure ∧ reserved + Archive.spent placed + free = size ∧
      (placed.length < files.length → free = 0) ∧ Restores size reserved files placed image := by
  obtain ⟨volume, mounted, consistent, keeps⟩ := mount_blank positive fits small
  have start : Packing.SimulatesFlat ⟨volume, [firstLine name size], flushes⟩ [firstLine name size]
      volume.flat := ⟨consistent, rfl, rfl⟩
  obtain ⟨failure, p, placed, w, a, done, ended, packs, keeps, simulates⟩ :=
    start.finish keeps ⟨rfl, rfl⟩ files
  obtain ⟨consistent, lines, rfl⟩ := simulates
  refine ⟨placed, p.volume.unmount.file, a.free, failure, ?_, ended, ?_, ?_, ?_⟩
  · rw [pack_of_finish name positive fits small mounted done, lines]
    cases failure <;> simp [Packing.lastLine]
  · have counted := packs.free
    rw [Archive.free_new] at counted
    omega
  · intro stopped
    rw [contents] at packs
    exact packs.free_of_lt (by rwa [List.length_map])
  · exact restores_of_packs fits packs keeps consistent

/-- Two sectors are left for two files: the first one loses its second block, and for the second
one there is no sector at all. The bytes of the first come back. -/
theorem pack_then_cat_full : 1 ≤ 1 ∧ 1 ≤ 3 ∧ 3 ≤ UInt32.size ∧ ∃ home image,
    pack "disk" (.ok ()) 3 1 (sources [("a", .ofBytes (List.replicate 600 7)), ("b", .ofBytes [])])
        [true, false, true] =
      ⟨[firstLine "disk" 3, fileLine "a" home 512], some image, some .noSectorForInode⟩ ∧
    (cat (.ofFile image) home).1 = .ok (List.replicate 512 7) := by
  obtain ⟨placed, image, free, failure, packed, ended, counted, full, restores⟩ :=
    pack_then_cat "disk" (by decide : 1 ≤ 1) (by decide : 1 ≤ 3) (by decide)
      [("a", .ofBytes (List.replicate 600 7)), ("b", .ofBytes [])] [true, false, true]
  have one_sector : IsGreatest {n | n ≤ min 600 Layout.maxLength ∧ Layout.footprint n ≤ 1} 512 := by
    refine ⟨by decide, fun n ⟨_, fits⟩ => ?_⟩
    by_contra longer
    exact absurd ((Layout.footprint_mono (Nat.lt_of_not_le longer)).trans fits) (by decide)
  have first {home : Sector} {count : Nat} {rest : List (Sector × Nat)}
      (entry : placed = (home, count) :: rest) :
      count = 512 ∧ (cat (.ofFile image) home).1 = .ok (List.replicate 512 7) := by
    have here : placed[0]? = some (home, count) := by
      rw [entry]
      rfl
    obtain ⟨_, _, ⟨left, two, greatest⟩, read⟩ := restores.share (k := 0) rfl here
    obtain rfl : left = 1 := by
      rw [List.take_zero, Archive.spent, List.map_nil, List.sum_nil] at two
      omega
    rw [SparseFile.length_ofBytes, List.length_replicate] at greatest
    obtain rfl : count = 512 := greatest.unique one_sector
    rw [SparseFile.bytes_ofBytes, List.take_replicate] at read
    exact ⟨rfl, read⟩
  rcases placed with _ | ⟨⟨home, count⟩, _ | ⟨⟨home', count'⟩, rest⟩⟩
  · have none_left := full Nat.two_pos
    rw [Archive.spent, List.map_nil, List.sum_nil] at counted
    omega
  · obtain ⟨rfl, read⟩ := first rfl
    cases ended with
    | all same => cases same
    | full => exact ⟨by decide, by decide, by decide, home, image, packed, read⟩
  · obtain ⟨rfl, _⟩ := first rfl
    rw [Archive.spent_cons, Archive.spent_cons] at counted
    have two : Layout.footprint 512 = 1 := by decide
    omega

end Pack

end Packer

end InodeVolume
