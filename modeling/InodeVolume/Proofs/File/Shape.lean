import InodeVolume.Proofs.File.Links

/-!
# Shape of a file

How a record and the content of a volume make up a file: its links, the sectors
it owns, its bytes. A file is sound when its links are just those that its length
needs, no sector is owned twice and nothing but zeros follows its end. All of
this depends on the content of its own sectors only.
-/

namespace InodeVolume

theorem Vector.toList_eq_map_get {γ : Type} {n : Nat} (xs : Vector γ n) :
    xs.toList = (List.finRange n).map xs.get := by
  refine List.ext_getElem (by simp) fun i left right => ?_
  simp [Vector.get]

theorem Vector.get_set {γ : Type} {n : Nat} (xs : Vector γ n) (i j : Fin n) (x : γ) :
    (xs.set i x i.isLt).get j = if i = j then x else xs.get j := by
  change (xs.set i x i.isLt)[j.val] = _
  simp only [Vector.getElem_set, Fin.ext_iff]
  rfl

theorem Layout.lt_dataSectors {offset length : Nat} (inside : offset < length) :
    offset / blockSize < dataSectors length := by
  simp only [dataSectors, blockSize]
  omega

theorem Layout.dataSectors_le {length : Nat} (bound : length ≤ maxLength) :
    dataSectors length ≤ 504 := by
  simp only [maxLength, maxSectors, directCount, tabledSectors, tableCount, tableEntries, blockSize,
    dataSectors] at bound ⊢
  omega

namespace Block

/-- The byte at an offset; zero past the end of the block. -/
def byte (b : Block) (j : Nat) : UInt8 := b.toList.getD j 0

@[simp] theorem byte_zero (j : Nat) : zero.byte j = 0 := by
  simp only [byte, zero, Vector.toList_replicate, List.getD_eq_getElem?_getD, List.getElem?_replicate]
  split <;> rfl

end Block

namespace Record

variable {content content' : Sector → Block}

def tableAt (content : Sector → Block) (r : Record) (b : Fin 3) : PointerTable :=
  .decode (content (r.tables.get b).toNat)

def links (content : Sector → Block) (r : Record) : Links
  | .data (.direct i) => r.direct.get i
  | .data (.tabled b e) => if r.tables.get b = 0 then 0 else (r.tableAt content b).entries.get e
  | .table b => r.tables.get b

def ownedByTable (content : Sector → Block) (p : UInt32) : List Sector :=
  match Sector.ofPointer p with
  | none => []
  | some s => (PointerTable.decode (content s)).sectors ++ [s]

/-- The sector of the record, those pointed at directly, and table by table those that
it points at and its own. -/
def owned (content : Sector → Block) (home : Sector) (r : Record) : List Sector :=
  home :: r.direct.toList.filterMap Sector.ofPointer ++
    r.tables.toList.flatMap (ownedByTable content)

def byteAt (content : Sector → Block) (r : Record) (k : Nat) : UInt8 :=
  match Position.ofIndex? (k / blockSize) with
  | some p => (content (r.links content (.data p)).toNat).byte (k % blockSize)
  | none => 0

def bytes (content : Sector → Block) (r : Record) : List UInt8 :=
  (List.range r.size).map (r.byteAt content)

@[simp] theorem length_bytes (r : Record) : (r.bytes content).length = r.size := by simp [bytes]

theorem owned_eq (r : Record) (home : Sector) :
    r.owned content home = home :: (r.links content).sectors := by
  have direct : r.direct.toList.filterMap Sector.ofPointer =
      ((List.finRange 123).map fun i => Link.data (.direct i)).filterMap
        fun l => Sector.ofPointer (r.links content l) := by
    rw [Vector.toList_eq_map_get, List.filterMap_map, List.filterMap_map]
    rfl
  have tabled (b : Fin 3) : ownedByTable content (r.tables.get b) =
      ((List.finRange 127).map (fun e => Link.data (.tabled b e)) ++ [Link.table b]).filterMap
        fun l => Sector.ofPointer (r.links content l) := by
    rw [List.filterMap_append, List.filterMap_map]
    by_cases absent : r.tables.get b = 0
    · have empty : (List.finRange 127).filterMap ((fun l => Sector.ofPointer (r.links content l)) ∘
          fun e => Link.data (.tabled b e)) = [] := by
        refine List.filterMap_eq_nil_iff.mpr fun e _ => ?_
        simp [links, absent, Sector.ofPointer]
      rw [empty]
      simp [links, absent, Sector.ofPointer, ownedByTable]
    · have entries : (List.finRange 127).filterMap ((fun l => Sector.ofPointer (r.links content l)) ∘
          fun e => Link.data (.tabled b e)) = (r.tableAt content b).sectors := by
        rw [PointerTable.sectors, Vector.toList_eq_map_get, List.filterMap_map]
        refine List.filterMap_congr fun e _ => ?_
        simp [links, absent]
      rw [entries]
      simp [links, absent, Sector.ofPointer, ownedByTable, tableAt]
  rw [owned, Links.sectors, Link.all, List.filterMap_append, direct, Vector.toList_eq_map_get,
    List.flatMap_map, List.filterMap_flatMap]
  simp only [tabled]
  rfl

structure Sound (content : Sector → Block) (home : Sector) (r : Record) : Prop where
  kind : (Kind.ofTag? r.tag).isSome
  size_le : r.size ≤ Layout.maxLength
  filled : (r.links content).Filled (Layout.dataSectors r.size)
  tagged (b : Fin 3) : r.tables.get b ≠ 0 → (r.tableAt content b).isTagged
  nodup : (r.owned content home).Nodup
  tail {k : Nat} : r.size ≤ k → k < Layout.dataSectors r.size * blockSize → r.byteAt content k = 0

namespace Sound

variable {home : Sector} {r : Record}

theorem nodup_links (h : r.Sound content home) : (r.links content).sectors.Nodup := by
  have distinct := h.nodup
  rw [owned_eq] at distinct
  exact distinct.of_cons

theorem home_notMem (h : r.Sound content home) : home ∉ (r.links content).sectors := by
  have distinct := h.nodup
  rw [owned_eq] at distinct
  exact (List.nodup_cons.mp distinct).1

theorem dataSectors_le (h : r.Sound content home) : Layout.dataSectors r.size ≤ 504 :=
  Layout.dataSectors_le h.size_le

theorem length_owned (h : r.Sound content home) :
    (r.owned content home).length = Layout.footprint r.size + 1 := by
  rw [owned_eq, List.length_cons, Links.length_sectors h.filled h.dataSectors_le, Layout.footprint]

theorem exists_position (h : r.Sound content home) {k : Nat} (inside : k < r.size) :
    ∃ p, Position.ofIndex? (k / blockSize) = some p ∧ r.links content (.data p) ≠ 0 := by
  have within := Layout.lt_dataSectors inside
  have bound := h.dataSectors_le
  obtain ⟨p, index⟩ := Position.exists_index (Nat.lt_of_lt_of_le within bound)
  refine ⟨p, index ▸ p.ofIndex?_index, (h.filled.data p).mpr (index ▸ within)⟩

end Sound

theorem mem_links_of_ne_zero {r : Record} {l : Link} (present : r.links content l ≠ 0) :
    (r.links content l).toNat ∈ (r.links content).sectors :=
  Links.mem_sectors.mpr ⟨l, present, rfl⟩

theorem links_congr {r : Record} (same : ∀ b, r.tables.get b ≠ 0 →
    content' (r.tables.get b).toNat = content (r.tables.get b).toNat) :
    r.links content' = r.links content := by
  funext l
  match l with
  | .data (.direct i) => rfl
  | .table b => rfl
  | .data (.tabled b e) =>
    simp only [links, tableAt]
    split
    · rfl
    next present => rw [same b present]

theorem links_congr_sectors {r : Record}
    (same : ∀ s ∈ (r.links content).sectors, content' s = content s) :
    r.links content' = r.links content :=
  links_congr fun b present => same _ (mem_links_of_ne_zero (l := .table b) present)

theorem byteAt_congr {r : Record} (same : ∀ s ∈ (r.links content).sectors, content' s = content s)
    {k : Nat} (linked : ∀ p, Position.ofIndex? (k / blockSize) = some p →
      r.links content (.data p) ≠ 0) : r.byteAt content' k = r.byteAt content k := by
  simp only [byteAt, links_congr_sectors same]
  split
  next p found => rw [same _ (mem_links_of_ne_zero (linked p found))]
  next => rfl

theorem owned_congr {r : Record} (same : ∀ s ∈ (r.links content).sectors, content' s = content s)
    (home : Sector) : r.owned content' home = r.owned content home := by
  rw [owned_eq, owned_eq, links_congr_sectors same]

theorem Sound.bytes_congr {home : Sector} {r : Record} (h : r.Sound content home)
    (same : ∀ s ∈ (r.links content).sectors, content' s = content s) :
    r.bytes content' = r.bytes content := by
  refine List.map_congr_left fun k inside => byteAt_congr same fun p found => ?_
  obtain ⟨q, found', present⟩ := h.exists_position (List.mem_range.mp inside)
  rw [found, Option.some.injEq] at found'
  exact found' ▸ present

/-- A sound file stays sound whatever happens outside its sectors. -/
theorem Sound.congr {home : Sector} {r : Record} (h : r.Sound content home)
    (same : ∀ s ∈ (r.links content).sectors, content' s = content s) : r.Sound content' home where
  kind := h.kind
  size_le := h.size_le
  filled := by
    rw [links_congr_sectors same]
    exact h.filled
  tagged b present := by
    have agree : content' (r.tables.get b).toNat = content (r.tables.get b).toNat :=
      same _ (mem_links_of_ne_zero (l := .table b) present)
    rw [tableAt, agree]
    exact h.tagged b present
  nodup := by
    rw [owned_congr same]
    exact h.nodup
  tail {k} past before := by
    have linked (p : Position) (found : Position.ofIndex? (k / blockSize) = some p) :
        r.links content (.data p) ≠ 0 := by
      rw [h.filled.data, Position.index_ofIndex? found]
      exact Nat.div_lt_of_lt_mul (Nat.mul_comm _ _ ▸ before)
    rw [byteAt_congr same linked]
    exact h.tail past before

end Record

end InodeVolume
