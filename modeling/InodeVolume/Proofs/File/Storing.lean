import InodeVolume.File.Write
import InodeVolume.Proofs.File.Settling

/-!
# Files on a volume

A volume stores a file when its record stands in its home sector, the file is
sound and its sectors are in use. A record that has grown describes the same
bytes followed by zeros, and what happens to other sectors does not concern it.
-/

namespace InodeVolume

namespace Record

variable {content : Sector → Block}

theorem size_new (kind : Kind) : (new kind).size = 0 := rfl

theorem links_new (content : Sector → Block) (kind : Kind) (l : Link) :
    (new kind).links content l = 0 := by
  match l with
  | .data (.direct i) => simp [links, new, Vector.get]
  | .table b => simp [links, new, Vector.get]
  | .data (.tabled b e) =>
    have absent : (new kind).tables.get b = 0 := by simp [new, Vector.get]
    rw [links, if_pos absent]

theorem owned_new (content : Sector → Block) (kind : Kind) (home : Sector) :
    (new kind).owned content home = [home] := by
  rw [owned_eq, Links.sectors, List.filterMap_eq_nil_iff.mpr]
  intro l _
  simp [links_new, Sector.ofPointer]

theorem null_notMem {r : Record} {home : Sector} (live : home ≠ Sector.null) :
    Sector.null ∉ r.owned content home := by
  rw [owned_eq, List.mem_cons]
  rintro (same | member)
  · exact live same.symm
  · obtain ⟨l, present, zero⟩ := Links.mem_sectors.mp member
    exact present (UInt32.toNat.inj zero)

theorem sound_new (kind : Kind) (home : Sector) : (new kind).Sound content home where
  kind := by simp [new, Kind.ofTag?_tag]
  size_le := Nat.zero_le _
  filled := by
    refine ⟨fun p => ?_, fun b => ?_⟩
    · simp [links_new, size_new, Layout.dataSectors, blockSize]
    · simp [links_new, size_new, Layout.dataSectors, Layout.tablesNeeded, blockSize,
        Layout.directCount, Layout.tableEntries]
  tagged b present := absurd (links_new content kind (.table b)) present
  nodup := by
    rw [owned_new]
    exact List.nodup_singleton home
  tail {k} _ before := by
    simp [size_new, Layout.dataSectors, blockSize] at before

end Record

variable {α : Type} [Allocator α] [MappedAllocator α] {v w u : Flat α} {r₀ r : Record} {home : Sector}

namespace Record.Grown

variable {n : Nat}

theorem byteAt (grown : r₀.Grown v home n w r) (h : r₀.Sound v.content home) (small : n ≤ 504)
    {k : Nat} (below : k < n * blockSize) :
    r.byteAt w.content k = if k < r₀.size then r₀.byteAt v.content k else 0 := by
  have within : k / blockSize < n := Nat.div_lt_of_lt_mul (Nat.mul_comm n _ ▸ below)
  obtain ⟨p, index⟩ := Position.exists_index (Nat.lt_of_lt_of_le within small)
  have place : Position.ofIndex? (k / blockSize) = some p := index ▸ p.ofIndex?_index
  have present : r.links w.content (.data p) ≠ 0 := (grown.filled.data p).mpr (index ▸ within)
  rw [byteAt_of_position place, byteAt_of_position place]
  by_cases absent : r₀.links v.content (.data p) = 0
  · have past : ¬ k < r₀.size := by
      intro inside
      obtain ⟨q, place', present'⟩ := h.exists_position inside
      rw [place, Option.some.injEq] at place'
      exact present' (place' ▸ absent)
    rw [if_neg past, grown.blank absent present, Block.byte_zero]
  · rw [grown.kept absent, grown.old absent]
    by_cases inside : k < r₀.size
    · rw [if_pos inside]
    · have old : k / blockSize < Layout.dataSectors r₀.size := index ▸ (h.filled.data p).mp absent
      have zero := h.tail (Nat.le_of_not_lt inside) ((Nat.div_lt_iff_lt_mul (by decide)).mp old)
      rw [if_neg inside, ← zero, byteAt_of_position place]

theorem sound (grown : r₀.Grown v home (Layout.dataSectors r.size) w r)
    (h : r₀.Sound v.content home) (longer : r₀.size ≤ r.size) (bound : r.size ≤ Layout.maxLength) :
    r.Sound w.content home where
  kind := grown.tag ▸ h.kind
  size_le := bound
  filled := grown.filled
  tagged := grown.tagged
  nodup := grown.exchanged.nodup
  tail {k} past before := by
    rw [grown.byteAt h (Layout.dataSectors_le bound) before, if_neg]
    exact Nat.not_lt.mpr (Nat.le_trans longer past)

theorem bytes (grown : r₀.Grown v home (Layout.dataSectors r.size) w r)
    (h : r₀.Sound v.content home) (longer : r₀.size ≤ r.size) (bound : r.size ≤ Layout.maxLength) :
    r.bytes w.content = r₀.bytes v.content ++ List.replicate (r.size - r₀.size) 0 := by
  refine List.ext_getElem ?_ fun k left right => ?_
  · simp
    omega
  · rw [length_bytes] at left
    have before : k < Layout.dataSectors r.size * blockSize := by
      simp only [Layout.dataSectors, blockSize]
      omega
    have here : (r.bytes w.content)[k] = r.byteAt w.content k := by simp [Record.bytes]
    rw [here, grown.byteAt h (Layout.dataSectors_le bound) before]
    by_cases inside : k < r₀.size
    · simp [Record.bytes, inside]
    · simp [inside, List.getElem_append]

end Record.Grown

namespace Flat

/-- The record `r` in sector `home` is that of a file. -/
structure Stores (v : Flat α) (home : Sector) (r : Record) : Prop where
  home_ne_null : home ≠ Sector.null
  record : Record.decode (v.content home) = r
  sound : r.Sound v.content home
  used : ∀ s ∈ r.owned v.content home, v.map.isAllocated s = true

namespace Stores

variable {before after : List Sector}

theorem home_used (h : v.Stores home r) : v.map.isAllocated home = true :=
  h.used home (by rw [Record.owned_eq]; exact List.mem_cons_self)

theorem links_used (h : v.Stores home r) {s : Sector} (member : s ∈ (r.links v.content).sectors) :
    v.map.isAllocated s = true :=
  h.used s (by rw [Record.owned_eq]; exact List.mem_cons_of_mem _ member)

theorem holds (h : v.Stores home r) (ready : v.Ready) : v.Holds (r.links v.content).sectors :=
  fun _ member => ready.lt_limit (h.links_used member)

theorem rooted (h : v.Stores home r) : r.Rooted v home := ⟨h.sound.nodup, h.used, h.sound.tagged⟩

section Frame

variable (h : v.Stores home r) (exchanged : v.Exchanged before w after)
  (apart : ∀ s ∈ r.owned v.content home, s ∉ before)

include h exchanged apart

theorem content_eq {s : Sector} (member : s ∈ r.owned v.content home) : w.content s = v.content s :=
  exchanged.content (h.used s member) (apart s member)

theorem content_eq_links {s : Sector} (member : s ∈ (r.links v.content).sectors) :
    w.content s = v.content s :=
  h.content_eq exchanged apart (by rw [Record.owned_eq]; exact List.mem_cons_of_mem _ member)

theorem owned_eq : r.owned w.content home = r.owned v.content home :=
  Record.owned_congr (fun _ member => h.content_eq_links exchanged apart member) home

theorem links_eq : r.links w.content = r.links v.content :=
  Record.links_congr_sectors fun _ member => h.content_eq_links exchanged apart member

theorem bytes_eq : r.bytes w.content = r.bytes v.content :=
  h.sound.bytes_congr fun _ member => h.content_eq_links exchanged apart member

theorem frame : w.Stores home r where
  home_ne_null := h.home_ne_null
  record := by
    rw [h.content_eq exchanged apart, h.record]
    rw [Record.owned_eq]
    exact List.mem_cons_self
  sound := h.sound.congr fun _ member => h.content_eq_links exchanged apart member
  used s member := by
    rw [h.owned_eq exchanged apart] at member
    exact (exchanged.isAllocated s).mpr (.inl ⟨h.used s member, apart s member⟩)

end Frame

end Stores

/-- The file in `home` was rewritten: it keeps its kind and its sectors, may have got
others, and nothing else changed. -/
structure Rewritten (v : Flat α) (home : Sector) (r₀ : Record) (w : Flat α) (r : Record) :
    Prop where
  stores : w.Stores home r
  exchanged : v.Exchanged (r₀.owned v.content home) w (r.owned w.content home)
  tag : r.tag = r₀.tag
  kept {l : Link} : r₀.links v.content l ≠ 0 → r.links w.content l = r₀.links v.content l

namespace Rewritten

theorem trans {r' : Record} (h : v.Rewritten home r₀ w r) (h' : w.Rewritten home r u r') :
    v.Rewritten home r₀ u r' where
  stores := h'.stores
  exchanged := h.exchanged.trans h'.exchanged
  tag := h'.tag.trans h.tag
  kept {l} present := by
    have kept := h.kept present
    rw [h'.kept (kept.trans_ne present), kept]

/-- Taking sectors and giving them all back is not a change. -/
theorem of_nothing (stores : v.Stores home r) (exchanged : v.Exchanged [] w []) :
    v.Rewritten home r w r where
  stores := stores.frame exchanged fun _ _ => List.not_mem_nil
  exchanged := by
    rw [stores.owned_eq exchanged fun _ _ => List.not_mem_nil]
    exact (exchanged.widen stores.sound.nodup stores.used).perm (by rw [List.append_nil])
  tag := rfl
  kept _ := by rw [stores.links_eq exchanged fun _ _ => List.not_mem_nil]

theorem refl (ready : v.Ready) (stores : v.Stores home r) : v.Rewritten home r v r :=
  .of_nothing stores (.refl ready List.nodup_nil (by simp))

theorem ready (h : v.Rewritten home r₀ w r) (ready : v.Ready) : w.Ready :=
  h.exchanged.ready ready (Record.null_notMem h.stores.home_ne_null)

theorem owned_subset (h : v.Rewritten home r₀ w r) {s : Sector}
    (member : s ∈ r₀.owned v.content home) : s ∈ r.owned w.content home := by
  rw [Record.owned_eq, List.mem_cons] at member ⊢
  refine member.imp_right fun linked => ?_
  obtain ⟨l, present, rfl⟩ := Links.mem_sectors.mp linked
  have kept := h.kept present
  exact Links.mem_sectors.mpr ⟨l, kept.trans_ne present, congrArg UInt32.toNat kept⟩

theorem free (h : v.Rewritten home r₀ w r) (stores : v.Stores home r₀) :
    w.map.free + Layout.footprint r.size = v.map.free + Layout.footprint r₀.size := by
  have counted := h.exchanged.free
  rw [h.stores.sound.length_owned, stores.sound.length_owned] at counted
  omega

end Rewritten

end Flat

/-- Storing a grown record in its home makes the file grow. -/
theorem Record.Grown.returns_store (grown : r₀.Grown v home (Layout.dataSectors r.size) w r)
    (ready : v.Ready) (live : home ≠ Sector.null) (h : r₀.Sound v.content home)
    (longer : r₀.size ≤ r.size) (bound : r.size ≤ Layout.maxLength) {post : Unit → Flat α → Prop}
    (done : ∀ u, v.Rewritten home r₀ u r →
      r.bytes u.content = r₀.bytes v.content ++ List.replicate (r.size - r₀.size) 0 → post () u) :
    (r.store home).Returns w post := by
  have sound := grown.sound h longer bound
  have same (s : Sector) (member : s ∈ (r.links w.content).sectors) :
      Function.update w.content home r.encode s = w.content s :=
    Function.update_of_ne (ne_of_mem_of_not_mem member sound.home_notMem) _ _
  have member : home ∈ r.owned w.content home := by
    rw [owned_eq]
    exact List.mem_cons_self
  have exchanged := grown.exchanged.write member r.encode
  rw [← owned_congr same] at exchanged
  rw [store]
  refine (grown.exchanged.returns_write ready member).mpr (done _ ⟨⟨live, ?_, sound.congr same, ?_⟩,
    exchanged, grown.tag, fun {l} present => ?_⟩ ?_)
  · simp
  · exact fun s => exchanged.isAllocated_of_mem
  · rw [links_congr_sectors same, grown.kept present]
  · exact (sound.bytes_congr same).trans (grown.bytes h longer bound)

end InodeVolume
