import InodeVolume.File.Lookup
import InodeVolume.Proofs.File.Shape
import InodeVolume.Proofs.Volume.Returns

/-!
# Reading a sound file

Looking through the tables of a sound file never fails. Below its end every
offset has a sector, from there on none has, and reading gives the bytes of the
file from the offset on. None of it changes the volume.
-/

namespace InodeVolume

namespace Block

theorem length_slice (b : Block) {start count : Nat} (inside : start + count ≤ 512) :
    (b.slice start count).length = count := by
  simp only [slice, List.length_take, List.length_drop, Vector.length_toList]
  omega

theorem slice_eq (b : Block) (start count : Nat) (inside : start + count ≤ 512) :
    b.slice start count = (List.range count).map fun j => b.byte (start + j) := by
  refine List.ext_getElem ?_ fun i left right => ?_
  · simp [slice]
    omega
  · simp only [slice, List.length_take, List.length_drop, Vector.length_toList] at left
    have below : start + i < 512 := by omega
    simp [slice, byte, below]

end Block

variable {α : Type} [Allocator α] {v : Flat α}

def Flat.Holds (v : Flat α) (sectors : List Sector) : Prop := ∀ s ∈ sectors, s < v.limit

omit [Allocator α] in
theorem Flat.Holds.link {f : Links} (h : v.Holds f.sectors) {l : Link} (present : f l ≠ 0) :
    (f l).toNat < v.limit := h _ (Links.mem_sectors.mpr ⟨l, present, rfl⟩)

theorem PointerTable.returns_load {s : Sector} (inside : s < v.limit)
    (tagged : (PointerTable.decode (v.content s)).isTagged) {post : PointerTable → Flat α → Prop} :
    (PointerTable.load s).Returns v post ↔ post (.decode (v.content s)) v := by
  simp only [PointerTable.load, Program.returns_bind, Program.returns_read, Program.returns_require,
    Program.returns_pure, inside, tagged, true_and]

namespace Record

variable {home : Sector} {r : Record}

theorem returns_dataSector (tagged : ∀ b, r.tables.get b ≠ 0 → (r.tableAt v.content b).isTagged)
    (holds : v.Holds (r.links v.content).sectors) {i : Nat} {p : Position}
    (place : Position.ofIndex? i = some p) {post : Option Sector → Flat α → Prop} :
    (r.dataSector i).Returns v post ↔ post (Sector.ofPointer (r.links v.content (.data p))) v := by
  rw [dataSector, place]
  match p with
  | .direct slot => exact Program.returns_pure
  | .tabled b e =>
    simp only [links]
    by_cases absent : r.tables.get b = 0
    · simp [absent, Sector.ofPointer]
    · have inside : (r.tables.get b).toNat < v.limit := holds.link (l := .table b) absent
      simp only [Sector.ofPointer, absent, if_false]
      rw [Program.returns_bind, PointerTable.returns_load inside (tagged b absent)]
      exact Program.returns_pure

theorem Sound.returns_dataSector (h : r.Sound v.content home)
    (holds : v.Holds (r.links v.content).sectors) {i : Nat} (linked : i < Layout.dataSectors r.size) :
    ∃ p : Position, p.index = i ∧ r.links v.content (.data p) ≠ 0 ∧
      ∀ post : Option Sector → Flat α → Prop, (r.dataSector i).Returns v post ↔
        post (some (r.links v.content (.data p)).toNat) v := by
  obtain ⟨p, rfl⟩ := Position.exists_index (Nat.lt_of_lt_of_le linked h.dataSectors_le)
  have present : r.links v.content (.data p) ≠ 0 := (h.filled.data p).mpr linked
  refine ⟨p, rfl, present, fun post => ?_⟩
  rw [Record.returns_dataSector h.tagged holds p.ofIndex?_index,
    Sector.ofPointer_eq_some_iff.mpr ⟨present, rfl⟩]

theorem Sound.returns_sectorAt (h : r.Sound v.content home)
    (holds : v.Holds (r.links v.content).sectors) {offset : Nat} (inside : offset < r.size) :
    ∃ p : Position, p.index = offset / blockSize ∧ r.links v.content (.data p) ≠ 0 ∧
      ∀ post : Option Sector → Flat α → Prop, (r.sectorAt offset).Returns v post ↔
        post (some (r.links v.content (.data p)).toNat) v := by
  obtain ⟨p, index, present, found⟩ :=
    h.returns_dataSector holds (Layout.lt_dataSectors inside)
  refine ⟨p, index, present, fun post => ?_⟩
  rw [sectorAt, if_neg (Nat.not_le.mpr inside), found]

theorem returns_sectorAt_past {offset : Nat} (past : r.size ≤ offset)
    {post : Option Sector → Flat α → Prop} :
    (r.sectorAt offset).Returns v post ↔ post none v := by
  rw [sectorAt, if_pos past]
  exact Program.returns_pure

theorem byteAt_of_position {content : Sector → Block} {k : Nat} {p : Position}
    (place : Position.ofIndex? (k / blockSize) = some p) :
    r.byteAt content k = (content (r.links content (.data p)).toNat).byte (k % blockSize) := by
  simp only [byteAt, place]

theorem getD_bytes (content : Sector → Block) (r : Record) (k : Nat) :
    (r.bytes content).getD k 0 = if k < r.size then r.byteAt content k else 0 := by
  by_cases inside : k < r.size
  · simp [bytes, inside, List.getD_eq_getElem?_getD]
  · rw [if_neg inside, List.getD_eq_default]
    simpa using inside

/-- The data of the file at an offset is in sector `s`. -/
def Leads (content : Sector → Block) (r : Record) (offset : Nat) (s : Sector) : Prop :=
  ∃ p : Position, p.index = offset / blockSize ∧ r.links content (.data p) ≠ 0 ∧
    (r.links content (.data p)).toNat = s

/-- A data sector holds its part of the file, and zeros where the file has ended. -/
theorem Sound.byte_of_leads {content : Sector → Block} (h : r.Sound content home) {offset j : Nat}
    {s : Sector} (leads : r.Leads content offset s) (small : j < blockSize) :
    (content s).byte j = (r.bytes content).getD (offset / blockSize * blockSize + j) 0 := by
  obtain ⟨p, index, present, rfl⟩ := leads
  have sector : (offset / blockSize * blockSize + j) / blockSize = p.index := by
    simp only [index, blockSize] at small ⊢
    omega
  have rest : (offset / blockSize * blockSize + j) % blockSize = j := by
    simp only [blockSize] at small ⊢
    omega
  have here : r.byteAt content (offset / blockSize * blockSize + j) =
      (content (r.links content (.data p)).toNat).byte j := by
    rw [byteAt_of_position (sector ▸ p.ofIndex?_index), rest]
  have linked : p.index < Layout.dataSectors r.size := (h.filled.data p).mp present
  rw [getD_bytes]
  split
  next => exact here.symm
  next past =>
    rw [← here]
    refine h.tail (Nat.le_of_not_lt past) ?_
    rw [index] at linked
    simp only [blockSize] at small linked ⊢
    omega

theorem take_drop_bytes {content : Sector → Block} {offset count : Nat}
    (inside : offset + count ≤ r.size) :
    ((r.bytes content).drop offset).take count =
      (List.range count).map fun j => r.byteAt content (offset + j) := by
  refine List.ext_getElem ?_ fun i left right => ?_
  · simp
    omega
  · simp [bytes]

theorem slice_of_position {content : Sector → Block} {offset count : Nat} {p : Position}
    (place : Position.ofIndex? (offset / blockSize) = some p)
    (within : offset % blockSize + count ≤ blockSize) (inside : offset + count ≤ r.size) :
    (content (r.links content (.data p)).toNat).slice (offset % blockSize) count =
      ((r.bytes content).drop offset).take count := by
  rw [Block.slice_eq _ _ _ within, take_drop_bytes inside]
  refine List.map_congr_left fun j below => ?_
  have below : j < count := List.mem_range.mp below
  have sector : (offset + j) / blockSize = offset / blockSize := by
    simp only [blockSize] at within ⊢
    omega
  have place' : Position.ofIndex? ((offset + j) / blockSize) = some p := sector ▸ place
  rw [byteAt_of_position place']
  congr 1
  simp only [blockSize] at within ⊢
  omega

theorem Sound.returns_read (h : r.Sound v.content home)
    (holds : v.Holds (r.links v.content).sectors) {offset count : Nat}
    {post : List UInt8 → Flat α → Prop} :
    (r.read offset count).Returns v post ↔
      post (((r.bytes v.content).drop offset).take count) v := by
  induction count using Nat.strongRecOn generalizing offset post with
  | ind count ih =>
    rw [Record.read]
    by_cases none_asked : count = 0
    · subst none_asked
      simp
    rw [if_neg none_asked]
    by_cases past : r.size ≤ offset
    · rw [Program.returns_bind, returns_sectorAt_past past,
        List.drop_eq_nil_of_le (by simpa using past)]
      simp
    have inside : offset < r.size := Nat.lt_of_not_le past
    obtain ⟨p, index, present, at_offset⟩ := h.returns_sectorAt holds inside
    have place : Position.ofIndex? (offset / blockSize) = some p := index ▸ p.ofIndex?_index
    have room : offset % blockSize < blockSize := Nat.mod_lt _ (by decide)
    -- A piece ends where the request, the file or the sector does.
    obtain ⟨chunk, chunk_eq⟩ :
        ∃ c, c = min count (min (r.size - offset) (blockSize - offset % blockSize)) := ⟨_, rfl⟩
    have positive : chunk ≠ 0 := by omega
    have within : offset % blockSize + chunk ≤ blockSize := by omega
    have in_file : offset + chunk ≤ r.size := by omega
    rw [Program.returns_bind, at_offset]
    simp only [← chunk_eq, dif_neg positive]
    rw [Program.returns_bind, Program.returns_read, Program.returns_bind,
      ih (count - chunk) (by omega), Program.returns_pure, slice_of_position place within in_file]
    have joined : ((r.bytes v.content).drop offset).take chunk ++
        ((r.bytes v.content).drop (offset + chunk)).take (count - chunk) =
          ((r.bytes v.content).drop offset).take count := by
      rw [← List.drop_drop, ← List.take_add]
      congr 1
      omega
    rw [joined]
    exact and_iff_right (holds.link present)

theorem Sound.returns_sectors (h : r.Sound v.content home)
    (holds : v.Holds (r.links v.content).sectors) {post : List Sector → Flat α → Prop} :
    (r.sectors home).Returns v post ↔ post (r.owned v.content home) v := by
  have each (tables : List UInt32) (inside : ∀ t ∈ tables, t ∈ r.tables.toList)
      {post : List (List Sector) → Flat α → Prop} :
      (tables.mapM tableSectors).Returns v post ↔ post (tables.map (ownedByTable v.content)) v := by
    induction tables generalizing post with
    | nil => simp
    | cons t rest ih =>
      have one {post : List Sector → Flat α → Prop} :
          (tableSectors t).Returns v post ↔ post (ownedByTable v.content t) v := by
        rw [tableSectors, ownedByTable]
        by_cases absent : t = 0
        · simp [absent, Sector.ofPointer]
        · obtain ⟨i, small, rfl⟩ := List.getElem_of_mem (inside t (by simp))
          have bound : i < 3 := by simpa using small
          have entry : r.tables.toList[i] = r.tables.get ⟨i, bound⟩ := by simp [Vector.get]
          rw [entry] at absent ⊢
          have on_volume : (r.tables.get ⟨i, bound⟩).toNat < v.limit :=
            holds.link (l := .table ⟨i, bound⟩) absent
          simp only [Sector.ofPointer, absent, if_false]
          rw [Program.returns_bind, PointerTable.returns_load on_volume (h.tagged _ absent)]
          exact Program.returns_pure
      rw [List.mapM_cons, Program.returns_bind, one, Program.returns_bind,
        ih fun t' member => inside t' (by simp [member])]
      simp
  rw [Record.sectors, Program.returns_bind, each _ fun _ member => member, Program.returns_pure,
    owned, List.flatMap_def]

end Record

end InodeVolume
