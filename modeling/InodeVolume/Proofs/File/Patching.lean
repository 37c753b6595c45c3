import InodeVolume.Proofs.File.Extent
import InodeVolume.Proofs.File.Storing

/-!
# Patching a file

Bytes inside one data sector of a file are replaced. The file stays sound, and
its bytes are overlaid with the new ones.
-/

namespace InodeVolume

namespace Block

theorem byte_setIfInBounds (b : Block) (i : Nat) (x : UInt8) {j : Nat} (inside : j < 512) :
    byte (b.setIfInBounds i x) j = if i = j then x else b.byte j := by
  simp only [byte, Vector.toList_setIfInBounds, List.getD_eq_getElem?_getD, List.getElem?_set]
  by_cases same : i = j
  · simp [same, inside]
  · simp [same]

theorem byte_overwrite (b : Block) (start : Nat) (bytes : List UInt8) {j : Nat} (inside : j < 512) :
    (b.overwrite start bytes).byte j =
      if start ≤ j ∧ j < start + bytes.length then bytes.getD (j - start) 0 else b.byte j := by
  induction bytes generalizing b start with
  | nil =>
    rw [if_neg (by simp)]
    rfl
  | cons x rest ih =>
    rw [overwrite, ih, List.length_cons]
    by_cases later : start + 1 ≤ j ∧ j < start + 1 + rest.length
    · obtain ⟨i, index⟩ : ∃ i, j - start = i + 1 := ⟨j - start - 1, by omega⟩
      have index' : j - (start + 1) = i := by omega
      rw [if_pos later, if_pos (by omega), index, index', List.getD_cons_succ]
    · rw [if_neg later, byte_setIfInBounds b _ _ inside]
      by_cases here : start = j
      · rw [if_pos here, if_pos (by omega), here, Nat.sub_self, List.getD_cons_zero]
      · rw [if_neg here, if_neg (by omega)]

theorem length_of_ofList? {bytes : List UInt8} {b : Block} (whole : ofList? bytes = some b) :
    bytes.length = 512 := by
  by_contra other
  rw [ofList?, dif_neg other] at whole
  cases whole

theorem byte_of_ofList? {bytes : List UInt8} {b : Block} (whole : ofList? bytes = some b) (j : Nat) :
    b.byte j = bytes.getD j 0 := by
  simp only [ofList?, Option.dite_none_right_eq_some, Option.some.injEq] at whole
  obtain ⟨_, rfl⟩ := whole
  rfl

end Block

variable {α : Type} [Allocator α] [MappedAllocator α] {v w : Flat α} {r₀ r : Record} {home : Sector}
  {offset : Nat}

namespace Record

omit [MappedAllocator α] in
theorem returns_storeBytes {s : Sector} {start : Nat} {bytes : List UInt8} (inside : s < v.limit)
    (fits : start + bytes.length ≤ 512) {post : Unit → Flat α → Prop}
    (done : ∀ data : Block, (∀ j < 512, data.byte j =
        if start ≤ j ∧ j < start + bytes.length then bytes.getD (j - start) 0
        else (v.content s).byte j) →
      post () { v with content := Function.update v.content s data }) :
    (storeBytes s start bytes).Returns v post := by
  rw [storeBytes]
  cases whole : Block.ofList? bytes with
  | none =>
    simp only [Program.returns_bind, Program.returns_read, Program.returns_write, inside, true_and]
    exact done _ fun j below => Block.byte_overwrite _ _ _ below
  | some data =>
    have full := Block.length_of_ofList? whole
    refine Program.returns_write.mpr ⟨inside, done data fun j below => ?_⟩
    have first : start = 0 := by omega
    rw [Block.byte_of_ofList? whole, if_pos (by omega), first, Nat.sub_zero]

end Record

namespace Flat.Stores

variable (h : v.Stores home r) {p : Position} (present : r.links v.content (.data p) ≠ 0)
  (data : Block)

include h present

theorem links_update : r.links (Function.update v.content (r.links v.content (.data p)).toNat data) =
    r.links v.content := by
  refine Record.links_congr fun b _ => Function.update_of_ne ?_ _ _
  exact Links.table_ne_data h.sound.nodup_links b present

theorem byteAt_update (k : Nat) :
    r.byteAt (Function.update v.content (r.links v.content (.data p)).toNat data) k =
      if k / blockSize = p.index then data.byte (k % blockSize) else r.byteAt v.content k := by
  rw [Record.byteAt, Record.byteAt, h.links_update present data]
  cases place : Position.ofIndex? (k / blockSize) with
  | none =>
    have past : k / blockSize ≠ p.index := by
      intro same
      rw [same, p.ofIndex?_index] at place
      cases place
    rw [if_neg past]
  | some q =>
    have index := Position.index_ofIndex? place
    by_cases here : q = p
    · rw [here] at index ⊢
      rw [if_pos index.symm]
      simp only [Function.update_self]
    · have apart : (r.links v.content (.data q)).toNat ≠ (r.links v.content (.data p)).toNat := by
        intro same
        cases Links.eq_of_nodup h.sound.nodup_links _ _ present same.symm
        exact here rfl
      rw [if_neg fun same => here (Position.index_injective (index.trans same))]
      simp only [Function.update_of_ne apart]

theorem owned_update :
    r.owned (Function.update v.content (r.links v.content (.data p)).toNat data) home =
      r.owned v.content home := by
  rw [Record.owned_eq, Record.owned_eq, h.links_update present data]

/-- Other bytes in a data sector make another file, as long as zeros follow its end. -/
theorem sound_update
    (tail : ∀ k, r.size ≤ k → k / blockSize = p.index → data.byte (k % blockSize) = 0) :
    r.Sound (Function.update v.content (r.links v.content (.data p)).toNat data) home where
  kind := h.sound.kind
  size_le := h.sound.size_le
  filled := by
    rw [h.links_update present data]
    exact h.sound.filled
  tagged b table := by
    have apart : (r.tables.get b).toNat ≠ (r.links v.content (.data p)).toNat :=
      Links.table_ne_data h.sound.nodup_links b present
    rw [Record.tableAt, Function.update_of_ne apart]
    exact h.sound.tagged b table
  nodup := by
    rw [h.owned_update present data]
    exact h.sound.nodup
  tail {k} past before := by
    rw [h.byteAt_update present data]
    by_cases here : k / blockSize = p.index
    · rw [if_pos here, tail k past here]
    · rw [if_neg here, h.sound.tail past before]

theorem rewritten_update (ready : v.Ready)
    (tail : ∀ k, r.size ≤ k → k / blockSize = p.index → data.byte (k % blockSize) = 0) :
    v.Rewritten home r
      { v with content := Function.update v.content (r.links v.content (.data p)).toNat data } r := by
  have member : (r.links v.content (.data p)).toNat ∈ (r.links v.content).sectors :=
    Record.mem_links_of_ne_zero present
  have owned := h.owned_update present data
  have inside : (r.links v.content (.data p)).toNat ∈ r.owned v.content home := by
    rw [Record.owned_eq]
    exact List.mem_cons_of_mem _ member
  have apart : home ≠ (r.links v.content (.data p)).toNat :=
    (ne_of_mem_of_not_mem member h.sound.home_notMem).symm
  have exchanged := (Exchanged.refl ready h.sound.nodup h.used).write inside data
  refine ⟨⟨h.home_ne_null, ?_, h.sound_update present data tail, ?_⟩, ?_, rfl, fun {l} _ => ?_⟩
  · exact (congrArg Record.decode (Function.update_of_ne apart _ _)).trans h.record
  · intro s used
    rw [owned] at used
    exact h.used s used
  · rw [owned]
    exact exchanged
  · rw [h.links_update present data]

theorem returns_storeBytes (ready : v.Ready) (place : p.index = offset / blockSize)
    {piece : List UInt8} (nonempty : piece ≠ []) (within : offset % blockSize + piece.length ≤ 512)
    (inside : offset + piece.length ≤ r.size) {post : Unit → Flat α → Prop}
    (done : ∀ w, v.Rewritten home r w r →
      r.bytes w.content = overlay (r.bytes v.content) offset piece → post () w) :
    (Record.storeBytes (r.links v.content (.data p)).toNat (offset % blockSize) piece).Returns v
      post := by
  have on_volume : (r.links v.content (.data p)).toNat < v.limit :=
    (h.holds ready).link (l := .data p) present
  refine Record.returns_storeBytes on_volume within fun data patched => ?_
  have old (k : Nat) (here : k / blockSize = p.index) : r.byteAt v.content k =
      (v.content (r.links v.content (.data p)).toNat).byte (k % blockSize) :=
    Record.byteAt_of_position (by rw [here]; exact p.ofIndex?_index)
  -- The bytes of the piece are those of one sector between two places in it.
  have here_iff (k : Nat) : offset ≤ k ∧ k < offset + piece.length ↔ k / blockSize = p.index ∧
      offset % blockSize ≤ k % blockSize ∧
        k % blockSize < offset % blockSize + piece.length := by
    rw [place]
    simp only [blockSize] at within ⊢
    omega
  have byteAt (k : Nat) :
      r.byteAt (Function.update v.content (r.links v.content (.data p)).toNat data) k =
        if offset ≤ k ∧ k < offset + piece.length then piece.getD (k - offset) 0
        else r.byteAt v.content k := by
    rw [h.byteAt_update present data]
    by_cases here : k / blockSize = p.index
    · rw [if_pos here, patched (k % blockSize) (Nat.mod_lt _ (by decide)), old k here]
      by_cases new : offset ≤ k ∧ k < offset + piece.length
      · have shifted : k % blockSize - offset % blockSize = k - offset := by
          rw [place] at here
          simp only [blockSize] at here ⊢
          omega
        rw [if_pos new, if_pos ((here_iff k).mp new).2, shifted]
      · rw [if_neg new, if_neg fun inside => new ((here_iff k).mpr ⟨here, inside⟩)]
    · rw [if_neg here, if_neg fun new => here ((here_iff k).mp new).1]
  refine done _ (h.rewritten_update present data ready fun k past here => ?_) ?_
  · have zero := byteAt k
    rw [h.byteAt_update present data, if_pos here, if_neg (by omega)] at zero
    rw [zero]
    refine h.sound.tail past ?_
    have linked := (h.sound.filled.data p).mp present
    rw [← here] at linked
    exact (Nat.div_lt_iff_lt_mul (by decide)).mp linked
  · refine List.eq_of_getD ?_ fun k => ?_
    · rw [length_overlay nonempty, Record.length_bytes, Record.length_bytes]
      omega
    · rw [getD_overlay, Record.getD_bytes, Record.getD_bytes, byteAt]
      by_cases below : k < r.size
      · rw [if_pos below, if_pos below]
      · rw [if_neg below, if_neg below, if_neg (by omega)]

end Flat.Stores

end InodeVolume
