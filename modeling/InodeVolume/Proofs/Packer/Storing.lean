import InodeVolume.Packer.Basic
import InodeVolume.Proofs.Disk.Image
import InodeVolume.Proofs.File.Splitting
import InodeVolume.Proofs.System.FileSystem

/-!
# Storing files one by one

A file that is stored gets a sector for its record and as many of its bytes as there is space
for beside it. In terms of archives, a list of files is packed file by file until no sector is
left for a record; what was packed before is never touched again.
-/

namespace InodeVolume

namespace Archive

variable {a : Archive} {home : Sector} {f : File} {id : InodeId} {count : Nat} {data : List UInt8}

def withFile (a : Archive) (home : Sector) (f : File) : Archive :=
  { a with live := insert home a.live, file := Function.update a.file home f }

theorem withFile_file : (a.withFile home f).file home = f := Function.update_self ..

theorem free_new (total reserved : Nat) :
    ({ total, reserved } : Archive).free = total - reserved := by simp [free]

theorem free_withFile (dead : home ∉ a.live) (room : f.sectorCount ≤ a.free) :
    (a.withFile home f).free + f.sectorCount = a.free := by
  have others : ∑ s ∈ a.live, (Function.update a.file home f s).sectorCount =
      ∑ s ∈ a.live, (a.file s).sectorCount := by
    refine Finset.sum_congr rfl fun s live => ?_
    rw [Function.update_of_ne (ne_of_mem_of_not_mem live dead)]
  simp only [free, withFile, Finset.sum_insert dead, Function.update_self, others] at room ⊢
  omega

/-- No inode is in use, and no sector is handed out that has no file. -/
structure AtRest (a : Archive) : Prop where
  granted : a.granted = ∅
  openings : a.openings = fun _ => none

theorem AtRest.withFile (h : a.AtRest) (home : Sector) (f : File) : (a.withFile home f).AtRest :=
  ⟨h.granted, h.openings⟩

section Opened

def withOpenFile (a : Archive) (home : Sector) (f : File) (id : InodeId) : Archive :=
  (a.withFile home f).withOpening id { home }

theorem openings_withOpenFile : (a.withOpenFile home f id).openings id = some { home } :=
  Function.update_self ..

theorem opening_withOpenFile : (a.withOpenFile home f id).opening id = { home } :=
  opening_of_some openings_withOpenFile

theorem fileOf_withOpenFile : (a.withOpenFile home f id).fileOf id = f :=
  (fileOf_of_some openings_withOpenFile).trans withFile_file

theorem AtRest.next_openAt (h : a.AtRest) :
    ((a.next .allocate (.sector (some home))).next (.create home 0 .file) (.created (.ok ()))).next
      (.openAt home) (.opened id) = a.withOpenFile home ⟨.file, []⟩ id := by
  simp [next, withOpenFile, Archive.withFile, withOpening, h.granted, h.openings]

theorem next_write : (a.withOpenFile home ⟨.file, []⟩ id).next (.write id 0 data) (.written count) =
    a.withOpenFile home ⟨.file, data.take count⟩ id := by
  have bytes : overlay [] 0 (data.take count) = data.take count := by
    by_cases nothing : data.take count = []
    · rw [nothing, overlay_nil]
    · rw [overlay_past (Nat.zero_le _) nothing]
      rfl
  rw [next, withBytes, fileOf_withOpenFile, opening_withOpenFile, bytes]
  simp [withOpenFile, withFile, withOpening]

theorem AtRest.next_close (h : a.AtRest) :
    (a.withOpenFile home f id).next (.close id) .nothing = a.withFile home f := by
  rw [next_close_last openings_withOpenFile rfl, withoutOpening, opening_withOpenFile]
  simp [withOpenFile, Archive.withFile, withOpening, h.openings]

end Opened

/-- There is a sector `home` for the record of a file of the bytes `data`, and space for the first
`count` of them and no more. -/
structure Takes (a : Archive) (data : List UInt8) (home : Sector) (count : Nat) : Prop where
  free : 0 < a.free
  reserved_le : a.reserved ≤ home
  lt_total : home < a.total
  dead : home ∉ a.live
  greatest : IsGreatest {n | n ≤ min data.length Layout.maxLength ∧
    Layout.footprint n ≤ a.free - 1} count

theorem Takes.sectorCount (h : a.Takes data home count) :
    (⟨.file, data.take count⟩ : File).sectorCount = 1 + Layout.footprint count := by
  have inside : count ≤ data.length := h.greatest.1.1.trans (min_le_left _ _)
  rw [File.sectorCount, File.size, List.length_take, min_eq_left inside, Nat.add_comm]

theorem Takes.free_withFile (h : a.Takes data home count) :
    (a.withFile home ⟨.file, data.take count⟩).free + (1 + Layout.footprint count) = a.free := by
  have room : Layout.footprint count ≤ a.free - 1 := h.greatest.1.2
  have positive := h.free
  rw [← h.sectorCount]
  refine Archive.free_withFile h.dead ?_
  rw [h.sectorCount]
  omega

/-- What files take whose records are in these sectors and which have these lengths. -/
def spent (placed : List (Sector × Nat)) : Nat :=
  (placed.map fun (_, count) => 1 + Layout.footprint count).sum

theorem spent_cons (placed : List (Sector × Nat)) :
    spent ((home, count) :: placed) = 1 + Layout.footprint count + spent placed := List.sum_cons

/-- Files of these bytes are packed in order until one finds no sector for its record; `placed`
tells the sector of each that did, and how many of its bytes there was space for. -/
inductive Packs : Archive → List (List UInt8) → List (Sector × Nat) → Archive → Prop where
  | done {a : Archive} : Packs a [] [] a
  | full {a : Archive} {data : List UInt8} {rest : List (List UInt8)} :
    a.free = 0 → Packs a (data :: rest) [] a
  | placed {a a' : Archive} {data : List UInt8} {rest : List (List UInt8)} {home : Sector}
    {count : Nat} {placed : List (Sector × Nat)} : a.Takes data home count →
      Packs (a.withFile home ⟨.file, data.take count⟩) rest placed a' →
        Packs a (data :: rest) ((home, count) :: placed) a'

namespace Packs

variable {a' : Archive} {files : List (List UInt8)} {placed : List (Sector × Nat)}

theorem free (h : Packs a files placed a') : a'.free + spent placed = a.free := by
  induction h with
  | done => rfl
  | full => rfl
  | placed takes _ ih => rw [spent_cons, Nat.add_left_comm, ih, Nat.add_comm, takes.free_withFile]

theorem free_of_lt (h : Packs a files placed a') (stopped : placed.length < files.length) :
    a'.free = 0 := by
  induction h with
  | done => exact absurd stopped (Nat.lt_irrefl _)
  | full none_left => exact none_left
  | placed _ _ ih => exact ih (Nat.lt_of_succ_lt_succ stopped)

theorem kept (h : Packs a files placed a') (live : home ∈ a.live) :
    home ∈ a'.live ∧ a'.file home = a.file home := by
  induction h with
  | done => exact ⟨live, rfl⟩
  | full => exact ⟨live, rfl⟩
  | placed takes _ ih =>
    obtain ⟨still, same⟩ := ih (Finset.mem_insert_of_mem live)
    exact ⟨still, same.trans (Function.update_of_ne (ne_of_mem_of_not_mem live takes.dead) _ _)⟩

theorem dead (h : Packs a files placed a') (member : home ∈ placed.map Prod.fst) :
    home ∉ a.live := by
  induction h with
  | done => cases member
  | full => cases member
  | placed takes _ ih =>
    rcases List.mem_cons.mp member with rfl | later
    · exact takes.dead
    · exact fun live => ih later (Finset.mem_insert_of_mem live)

theorem nodup (h : Packs a files placed a') : (placed.map Prod.fst).Nodup := by
  induction h with
  | done => exact List.nodup_nil
  | full => exact List.nodup_nil
  | placed _ packs ih =>
    exact List.nodup_cons.mpr ⟨fun later => packs.dead later (Finset.mem_insert_self _ _), ih⟩

/-- Each file that was placed had all the space that those before it had left, and is there in the
end with the bytes that there was space for. -/
theorem each (h : Packs a files placed a') {k : Nat} (file : files[k]? = some data)
    (entry : placed[k]? = some (home, count)) :
    (∃ b : Archive, b.total = a.total ∧ b.reserved = a.reserved ∧
      b.free + spent (placed.take k) = a.free ∧ b.Takes data home count) ∧
    home ∈ a'.live ∧ a'.file home = ⟨.file, data.take count⟩ := by
  induction h generalizing k with
  | done => cases entry
  | full => cases entry
  | @placed a a' data' rest home' count' placed takes packs ih =>
    cases k with
    | zero =>
      cases file
      cases entry
      obtain ⟨live, same⟩ := packs.kept (Finset.mem_insert_self home a.live)
      exact ⟨⟨a, rfl, rfl, rfl, takes⟩, live, same.trans withFile_file⟩
    | succ k =>
      obtain ⟨⟨b, total, reserved, left, here⟩, shown⟩ := ih file entry
      refine ⟨⟨b, total, reserved, ?_, here⟩, shown⟩
      rw [List.take_succ_cons, spent_cons, Nat.add_left_comm, left, Nat.add_comm,
        takes.free_withFile]

end Packs

end Archive

namespace Packer

/-- A record describes no more bytes, so those that come after them are as good as not there. -/
theorem store_take (data : List UInt8) : store (data.take Layout.maxLength) = store data := by
  have same (r : Record) (home : Sector) :
      r.write home 0 (data.take Layout.maxLength) = r.write home 0 data := Record.write_take
  simp only [store, Registry.write, same]

theorem storeFile_eq (f : SparseFile) : storeFile f = store f.bytes := by
  rw [storeFile, SparseFile.take_eq_take_bytes, store_take]

variable {α : Type} [Allocator α] [MappedAllocator α] {v : Flat α} {a : Archive}

open Archive

theorem returns_fill {g : Registry} {home : Sector} {id : InodeId} (rest : a.AtRest)
    (h : Represents v g (a.withOpenFile home ⟨.file, []⟩ id)) (data : List UInt8) :
    ((Registry.write id 0 data).run g).Returns v fun (count, g') w =>
      count = Layout.writable 0 (a.withFile home ⟨.file, []⟩).free 0 data.length ∧
        ((Registry.close id).run g').Returns w fun _ u =>
          u.Keeps (a.withFile home ⟨.file, data.take count⟩) := by
  have inUse (f : File) : ((a.withOpenFile home f id).openings id).isSome := by
    rw [openings_withOpenFile]
    rfl
  refine (h.returns_write (inUse _) 0 data).mono ?_
  rintro ⟨count, g'⟩ w written
  have exactly := written.admitted.write (by rw [opening_withOpenFile])
  rw [fileOf_withOpenFile] at exactly
  have represents := written.represents
  rw [next_write] at represents
  refine ⟨Answer.written.inj exactly, ?_⟩
  refine (represents.returns_close (inUse _) ?_).mono ?_
  · rw [opening_withOpenFile]
    exact Nat.one_pos
  · rintro _ u closed
    exact rest.next_close ▸ closed.represents.keeps

/-- A file is stored unless no sector is left for its record. -/
theorem returns_store (keeps : v.Keeps a) (rest : a.AtRest) (data : List UInt8) :
    ((store data).run {}).Returns v fun (result, _) w =>
      (result = .error .noSectorForInode ∧ a.free = 0 ∧ w.Keeps a) ∨
      ∃ home count, result = .ok (home, count) ∧ a.Takes data home count ∧
        w.Keeps (a.withFile home ⟨.file, data.take count⟩) := by
  have represents : Represents v {} a := ⟨keeps, .empty v (congrFun rest.openings)⟩
  rw [store, StateT.run_bind, Program.returns_bind, Program.returns_lift]
  refine represents.returns_allocate.mono fun s w allocated => ?_
  cases s with
  | none => exact Program.returns_pure.mpr (.inl ⟨rfl, allocated.admitted, allocated.represents.keeps⟩)
  | some home =>
    obtain ⟨free, reserved_le, lt_total, -, dead⟩ := allocated.admitted
    have granted := Finset.mem_insert_self home a.granted
    simp only [StateT.run_bind, Program.returns_bind]
    refine (allocated.represents.returns_create granted 0 .file).mono ?_
    rintro ⟨result, g⟩ w created
    obtain rfl : result = .ok () := Answer.created.inj created.admitted.create_empty
    simp only [StateT.run_bind, Program.returns_bind]
    refine (created.represents.returns_openAt (Finset.mem_insert_self _ _)).mono ?_
    rintro ⟨id, g⟩ w opened
    have represents := opened.represents
    rw [rest.next_openAt] at represents
    refine (returns_fill rest represents data).mono ?_
    rintro ⟨count, g⟩ w ⟨exactly, closes⟩
    refine closes.mono fun _ u keeps => Program.returns_pure.mpr (.inr ⟨home, count, rfl, ?_, keeps⟩)
    have one : (a.withFile home ⟨.file, []⟩).free = a.free - 1 :=
      Nat.eq_sub_of_add_eq (free_withFile dead free)
    rw [one] at exactly
    exact ⟨free, reserved_le, lt_total, dead, exactly ▸ Layout.isGreatest_writable_new _ _⟩

end Packer

end InodeVolume
