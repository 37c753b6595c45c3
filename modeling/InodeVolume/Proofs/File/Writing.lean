import InodeVolume.Proofs.File.Patching

/-!
# Writing files

Growth fails only where it has to, and then nothing has changed. A write
overlays the bytes of the file with as many of its own as there is room for.
-/

namespace InodeVolume

variable {α : Type} [Allocator α] [MappedAllocator α] {v w : Flat α} {r₀ r : Record} {home : Sector}
  {offset count : Nat}

theorem Drafted.of_record (ready : v.Ready)
    (tagged : ∀ b, r.tables.get b ≠ 0 → (r.tableAt v.content b).isTagged) :
    Drafted v r v (.ofRecord r) where
  exchanged := .refl ready List.nodup_nil (by simp)
  length := rfl
  tag := rfl
  coherent := Draft.coherent_ofRecord tagged
  linked := by
    rw [Draft.links_ofRecord]
    exact .refl _

namespace Record

variable {r : Record} {data : List UInt8}

/-- The part of a write that stays in one sector: how many bytes, and the record after it. -/
def writePiece (r : Record) (home : Sector) (offset : Nat) (data : List UInt8) :
    Program (Nat × Record) := do
  let room := blockSize - offset % blockSize
  let (target, r) ← r.sectorForWrite home offset (data.take room).length
  match target with
  | none => return (0, r)
  | some s =>
    let piece := data.take (min (r.size - offset) room)
    if piece.length = 0 then return (0, r)
    storeBytes s (offset % blockSize) piece
    return (piece.length, r)

/-- A write goes on piece by piece, until a piece has no bytes. -/
theorem write_eq (nonempty : data ≠ []) : r.write home offset data = (do
    let (n, r) ← r.writePiece home offset data
    if n = 0 then return (0, r)
    let (count, r) ← r.write home (offset + n) (data.drop n)
    return (n + count, r)) := by
  rw [write, if_neg nonempty, writePiece, bind_assoc]
  refine bind_congr ?_
  rintro ⟨target, r⟩
  cases target with
  | none => rfl
  | some s =>
    simp only
    split
    next nothing_left => rfl
    next some_left =>
      rw [bind_assoc]
      refine bind_congr fun _ => ?_
      rw [pure_bind, if_neg some_left]

theorem write_nil : r.write home offset [] = pure (0, r) := by
  rw [write, if_pos rfl]

end Record

namespace Layout

theorem reach_lt_lengthLimit (positive : 0 < count ∨ 0 < offset % blockSize)
    (near : offset / blockSize < maxSectors) : reach offset count < Record.lengthLimit := by
  have bound := (reach_le_maxLength positive).mpr near
  exact Nat.lt_of_le_of_lt bound (by decide)

end Layout

namespace Flat.Stores

variable (ready : v.Ready) (h : v.Stores home r₀)

include ready h

theorem returns_grow (past : r₀.size ≤ offset) {post : Option Record → Flat α → Prop}
    (stuck : ∀ w, v.Exchanged [] w [] →
      ¬ Layout.Extensible r₀.size v.map.free offset count → post none w)
    (done : ∀ r w, v.Rewritten home r₀ w r →
      Layout.Extensible r₀.size v.map.free offset count → r.size = Layout.reach offset count →
      r.bytes w.content = r₀.bytes v.content ++ List.replicate (r.size - r₀.size) 0 →
      post (some r) w) :
    (r₀.grow home offset count).Returns v post := by
  have longer : r₀.size ≤ Layout.reach offset count := Nat.le_trans past (Nat.le_add_right _ _)
  have reached : offset + min count (blockSize - offset % blockSize) =
      Layout.reach offset count := rfl
  simp only [Record.grow, reached, Bool.or_eq_true, decide_eq_true_eq]
  by_cases far : Layout.maxSectors ≤ offset / blockSize ∨
      Layout.dataSectors (Layout.reach offset count) ≤ offset / blockSize
  · have no_room : ¬ Layout.Extensible r₀.size v.map.free offset count := by
      intro extensible
      obtain ⟨near, wanted⟩ := extensible.near
      omega
    rw [if_pos far]
    exact Program.returns_pure.mpr (stuck v (.refl ready List.nodup_nil (by simp)) no_room)
  rw [if_neg far]
  push Not at far
  have positive := Layout.lt_dataSectors_reach.mp far.2
  have short := (Layout.reach_le_maxLength positive).mpr far.1
  have sectors := Layout.dataSectors_reach positive
  have small := Layout.dataSectors_le short
  have count₀ : (r₀.links v.content).sectors.length = Layout.footprint r₀.size :=
    Links.length_sectors h.sound.filled h.sound.dataSectors_le
  have above : Layout.dataSectors r₀.size ≤ offset / blockSize + 1 := by
    simp only [Layout.dataSectors, blockSize]
    omega
  have attempt := Draft.returns_backfill ready (fun _ member => h.links_used member)
    (.of_record ready h.sound.tagged) (n := Layout.dataSectors r₀.size)
    (i := offset / blockSize + 1) (sectors ▸ small) above (Nat.le_refl _) fun l => by
      rw [Draft.links_ofRecord, Links.filled_iff.mp h.sound.filled,
        or_iff_left (Link.not_spans (Nat.le_refl _))]
  rw [Program.returns_bind]
  refine Draft.returns_settle ready h.rooted (sectors ▸ small) attempt
    (Layout.reach_lt_lengthLimit positive far.1) ?_ ?_
  · intro w nothing few
    refine Program.returns_pure.mpr (stuck w nothing fun extensible => ?_)
    have fits := extensible.2.2
    rw [max_eq_right longer, Layout.footprint, sectors] at fits
    omega
  · intro r w size grown
    rw [← sectors, ← size] at grown
    have bound : r.size ≤ Layout.maxLength := size ▸ short
    have longer' : r₀.size ≤ r.size := size ▸ longer
    simp only [Program.returns_bind]
    refine grown.returns_store ready h.home_ne_null h.sound longer' bound fun u rewritten bytes => ?_
    refine Program.returns_pure.mpr (done r u rewritten ⟨positive, short, ?_⟩ size bytes)
    have counted := rewritten.free h
    rw [size] at counted
    rw [max_eq_right longer]
    omega

theorem returns_sectorForWrite {post : Option Sector × Record → Flat α → Prop}
    (stuck : ∀ w, v.Exchanged [] w [] → r₀.size ≤ offset →
      ¬ Layout.Extensible r₀.size v.map.free offset count → post (none, r₀) w)
    (done : ∀ (p : Position) r w, p.index = offset / blockSize → v.Rewritten home r₀ w r →
      r.links w.content (.data p) ≠ 0 →
      (r₀.size ≤ offset → Layout.Extensible r₀.size v.map.free offset count) →
      r.size = Layout.sizeFor r₀.size offset count →
      r.bytes w.content = r₀.bytes v.content ++ List.replicate (r.size - r₀.size) 0 →
      post (some (r.links w.content (.data p)).toNat, r) w) :
    (r₀.sectorForWrite home offset count).Returns v post := by
  rw [Record.sectorForWrite]
  by_cases inside : offset < r₀.size
  · obtain ⟨p, index, present, found⟩ :=
      h.sound.returns_dataSector (h.holds ready) (Layout.lt_dataSectors inside)
    rw [if_pos inside, Program.returns_bind, found]
    refine Program.returns_pure.mpr (done p r₀ v index (.refl ready h) present ?_ ?_ ?_)
    · exact fun past => absurd inside (Nat.not_lt.mpr past)
    · rw [Layout.sizeFor, if_pos inside]
    · simp
  have past : r₀.size ≤ offset := Nat.le_of_not_lt inside
  rw [if_neg inside, Program.returns_bind]
  refine h.returns_grow ready past ?_ ?_
  · exact fun w nothing no_room => Program.returns_pure.mpr (stuck w nothing past no_room)
  intro r w rewritten extensible size bytes
  have linked : offset / blockSize < Layout.dataSectors r.size := by
    rw [size]
    exact Layout.lt_dataSectors_reach.mpr extensible.1
  have ready' := rewritten.ready ready
  obtain ⟨p, index, present, found⟩ :=
    rewritten.stores.sound.returns_dataSector (rewritten.stores.holds ready') linked
  simp only [Program.returns_bind, found, Program.returns_pure]
  refine done p r w index rewritten present (fun _ => extensible) ?_ bytes
  rw [Layout.sizeFor, if_neg inside, size]

theorem returns_writePiece {data : List UInt8} (nonempty : data ≠ [])
    {post : Nat × Record → Flat α → Prop}
    (stuck : ∀ w, v.Exchanged [] w [] → r₀.size ≤ offset →
      ¬ Layout.Extensible r₀.size v.map.free offset
        (data.take (blockSize - offset % blockSize)).length → post (0, r₀) w)
    (done : ∀ n r w, 0 < n → n = Layout.piece r₀.size offset data.length →
      r.size = max r₀.size (offset + n) → v.Rewritten home r₀ w r →
      r.bytes w.content = overlay (r₀.bytes v.content) offset (data.take n) → post (n, r) w) :
    (r₀.writePiece home offset data).Returns v post := by
  have positive : 0 < data.length := List.length_pos_iff.mpr nonempty
  have room : offset % blockSize < blockSize := Nat.mod_lt _ (by decide)
  simp only [Record.writePiece, Program.returns_bind]
  refine h.returns_sectorForWrite ready ?_ ?_
  · exact fun w unchanged past no_room =>
      Program.returns_pure.mpr (stuck w unchanged past no_room)
  intro p r w index rewritten present extensible size bytes
  obtain ⟨piece, piece_eq⟩ : ∃ piece, piece =
      data.take (min (r.size - offset) (blockSize - offset % blockSize)) := ⟨_, rfl⟩
  simp only [← piece_eq]
  rw [List.length_take] at size
  have count : piece.length =
      min (min (r.size - offset) (blockSize - offset % blockSize)) data.length := by
    rw [piece_eq, List.length_take]
  have ends : piece.length = Layout.piece r₀.size offset data.length ∧
      r.size = max r₀.size (offset + piece.length) ∧ 0 < piece.length ∧
        offset % blockSize + piece.length ≤ blockSize := by
    simp only [Layout.sizeFor, Layout.reach] at size
    rw [Layout.piece]
    split at size
    next inside =>
      rw [if_pos inside]
      omega
    next past =>
      rw [if_neg past]
      omega
  obtain ⟨exactly, longer, some_bytes, within⟩ := ends
  have nonempty' : piece ≠ [] := List.length_pos_iff.mp some_bytes
  have first : data.take piece.length = piece := by
    rw [piece_eq, eq_comm, List.take_eq_take_iff]
    simp
  rw [if_neg (Nat.ne_of_gt some_bytes), Program.returns_bind]
  refine rewritten.stores.returns_storeBytes present (rewritten.ready ready) index nonempty' within
    (by omega) fun u patched overlaid => ?_
  refine Program.returns_pure.mpr
    (done piece.length r u some_bytes exactly longer (rewritten.trans patched) ?_)
  rw [first, overlaid, bytes, overlay_append_zeros nonempty']
  rw [Record.length_bytes]
  omega

theorem returns_write {data : List UInt8} {post : Nat × Record → Flat α → Prop}
    (done : ∀ r w, v.Rewritten home r₀ w r →
      r.bytes w.content = overlay (r₀.bytes v.content) offset
        (data.take (Layout.writable r₀.size v.map.free offset data.length)) →
      post (Layout.writable r₀.size v.map.free offset data.length, r) w) :
    (r₀.write home offset data).Returns v post := by
  induction count : data.length using Nat.strongRecOn generalizing v r₀ offset data post with
  | ind count ih =>
    by_cases nothing : data = []
    · rw [nothing, Record.write_nil]
      subst nothing
      exact Program.returns_pure.mpr (done r₀ v (.refl ready h) (by simp))
    have positive : 0 < data.length := List.length_pos_iff.mpr nothing
    rw [Record.write_eq nothing, Program.returns_bind]
    refine h.returns_writePiece ready nothing ?_ ?_
    · intro w unchanged past no_room
      have chunk : 0 < (data.take (blockSize - offset % blockSize)).length := by
        have room : offset % blockSize < blockSize := Nat.mod_lt _ (by decide)
        rw [List.length_take]
        omega
      have none_fits := Layout.writable_eq_zero past chunk no_room data.length
      have same := done r₀ w (.of_nothing h unchanged)
      rw [none_fits, List.take_zero, overlay_nil] at same
      exact Program.returns_pure.mpr (same (h.bytes_eq unchanged fun _ _ => List.not_mem_nil))
    intro n r w some_bytes exactly longer rewritten bytes
    have bound : n ≤ data.length := exactly ▸ Nat.min_le_left _ _
    -- The file has what the volume lost, so what is writable from here on adds up with the piece.
    have total : Layout.footprint r.size + w.map.free = Layout.footprint r₀.size + v.map.free := by
      rw [Nat.add_comm, rewritten.free h, Nat.add_comm]
    have later := Layout.writable_add longer.symm total rewritten.stores.sound.size_le
      (data.length - n)
    rw [Nat.add_sub_cancel' (by omega)] at later
    simp only [if_neg (Nat.ne_of_gt some_bytes), Program.returns_bind, Program.returns_pure]
    refine ih (data.length - n) (by omega) (rewritten.ready ready) rewritten.stores
      (fun r' w' rest bytes' => ?_) List.length_drop
    rw [List.length_drop] at bytes' ⊢
    rw [← later]
    refine done r' w' (rewritten.trans rest) ?_
    have taken : (data.take n).length = n := List.length_take_of_le (by omega)
    have joined : data.take (Layout.writable r₀.size v.map.free offset data.length) =
        data.take n ++ (data.drop n).take (Layout.writable r.size w.map.free (offset + n)
          (data.length - n)) := by
      rw [later, List.take_add]
    have further (more : List UInt8) :
        overlay (overlay (r₀.bytes v.content) offset (data.take n)) (offset + n) more =
          overlay (r₀.bytes v.content) offset (data.take n ++ more) := by
      rw [← overlay_overlay more, taken]
    rw [joined, ← further, bytes', bytes]

end Flat.Stores

end InodeVolume
