import InodeVolume.Proofs.File.Writing
import InodeVolume.Proofs.Volume.Outcomes

/-!
# Writes in two parts

Bytes that are written one part after the other leave the volume as they do when they are
written at once. Where the parts meet inside a sector, the second one finds that sector in its
place, and only the length of the record and the bytes of the sector change once more.
-/

namespace InodeVolume

namespace Block

theorem overwrite_append (b : Block) (start : Nat) (bytes more : List UInt8) :
    b.overwrite start (bytes ++ more) =
      (b.overwrite start bytes).overwrite (start + bytes.length) more := by
  induction bytes generalizing b start with
  | nil => rfl
  | cons x rest ih =>
    rw [List.cons_append, overwrite, overwrite, ih, List.length_cons, Nat.add_right_comm,
      Nat.add_assoc]

theorem overwrite_of_ofList? {bytes : List UInt8} {data : Block} (b : Block)
    (whole : ofList? bytes = some data) : b.overwrite 0 bytes = data := by
  have full := length_of_ofList? whole
  apply Vector.toList_inj.mp
  refine List.eq_of_getD (by simp) fun j => ?_
  by_cases inside : j < 512
  · have here := byte_overwrite b 0 bytes inside
    rw [if_pos (by omega), Nat.sub_zero] at here
    exact here.trans (byte_of_ofList? whole j).symm
  · rw [List.getD_eq_default _ _ (by simpa using inside),
      List.getD_eq_default _ _ (by simpa using inside)]

end Block

namespace Layout

variable {offset n : Nat} (within : offset % blockSize + n < blockSize)

include within

theorem add_div : (offset + n) / blockSize = offset / blockSize := by
  simp only [blockSize] at within ⊢
  omega

theorem add_mod : (offset + n) % blockSize = offset % blockSize + n := by
  simp only [blockSize] at within ⊢
  omega

theorem left_add (size : Nat) :
    min (size - (offset + n)) (blockSize - (offset + n) % blockSize) =
      min (size - offset) (blockSize - offset % blockSize) - n := by
  rw [add_mod within, Nat.sub_add_eq, Nat.sub_add_eq, Nat.sub_min_sub_right]

theorem reach_add (m : Nat) :
    reach (offset + n) (min (blockSize - (offset + n) % blockSize) m) =
      offset + min (n + m) (blockSize - offset % blockSize) := by
  rw [reach, add_mod within]
  omega

end Layout

variable {α : Type} [Allocator α] {v w : Flat α} {r : Record} {home s : Sector}
  {offset count : Nat} {a b data : List UInt8}

def Flat.withRecord (v : Flat α) (home : Sector) (r : Record) : Flat α :=
  { v with content := Function.update v.content home r.encode }

def Flat.patched (v : Flat α) (s : Sector) (start : Nat) (bytes : List UInt8) : Flat α :=
  { v with content := Function.update v.content s ((v.content s).overwrite start bytes) }

namespace Flat

omit [Allocator α]

theorem patched_patched (v : Flat α) (s : Sector) (start : Nat) (bytes more : List UInt8) :
    (v.patched s start bytes).patched s (start + bytes.length) more =
      v.patched s start (bytes ++ more) := by
  simp only [patched, Function.update_self, Function.update_idem, Block.overwrite_append]

theorem withRecord_withRecord (v : Flat α) (home : Sector) (r r' : Record) :
    (v.withRecord home r).withRecord home r' = v.withRecord home r' := by
  simp only [withRecord, Function.update_idem]

theorem withRecord_patched (apart : s ≠ home) (start : Nat) (bytes : List UInt8) (r : Record) :
    (v.patched s start bytes).withRecord home r = (v.withRecord home r).patched s start bytes := by
  simp only [withRecord, patched, Function.update_of_ne apart]
  rw [Function.update_comm apart.symm]

end Flat

namespace Record

def resized (r : Record) (n : Nat) : Record := { r with length := Int32.ofNat n }

theorem withSize_resized {n : Nat} (small : n < lengthLimit) : r.withSize n = .ok (r.resized n) :=
  if_pos small

theorem returns_storeBytes_iff {start : Nat} {bytes : List UInt8}
    (fits : start + bytes.length ≤ 512) {post : Unit → Flat α → Prop} :
    (storeBytes s start bytes).Returns v post ↔ s < v.limit ∧ post () (v.patched s start bytes) := by
  rw [storeBytes]
  cases whole : Block.ofList? bytes with
  | none =>
    simp only [Program.returns_bind, Program.returns_read, Program.returns_write, Flat.patched,
      ← and_assoc, and_self]
  | some data =>
    have full := Block.length_of_ofList? whole
    obtain rfl : start = 0 := by omega
    rw [Program.returns_write, Flat.patched, Block.overwrite_of_ofList? _ whole]

/-- To grow further inside the same sector takes the same sectors; only the length differs. -/
theorem returns_grow_further {n m : Nat} (positive : 0 < n) (more : n ≤ m)
    (within : offset % blockSize + m ≤ blockSize) {post : Record → Flat α → Prop}
    (h : (r.grow home offset n).Returns v fun grown w => ∃ r₁, grown = some r₁ ∧ post r₁ w) :
    (r.grow home offset m).Returns v fun grown u => ∃ r₁ w, post r₁ w ∧
      grown = some (r₁.resized (offset + m)) ∧ u = w.withRecord home (r₁.resized (offset + m)) := by
  have whole : min n (blockSize - offset % blockSize) = n := by omega
  have whole' : min m (blockSize - offset % blockSize) = m := by omega
  have sectors (k : Nat) (some_bytes : 0 < k) (room : offset % blockSize + k ≤ blockSize) :
      Layout.dataSectors (offset + k) = offset / blockSize + 1 := by
    simp only [Layout.dataSectors, blockSize] at room ⊢
    omega
  simp only [grow, whole, whole', sectors n positive (by omega), sectors m (by omega) within] at h ⊢
  by_cases far : Layout.maxSectors ≤ offset / blockSize
  · simp only [far, decide_true, Bool.true_or, if_true, Program.returns_pure] at h
    obtain ⟨r₁, none_grown, _⟩ := h
    cases none_grown
  have small (k : Nat) (room : offset % blockSize + k ≤ blockSize) :
      offset + k < lengthLimit := by
    simp only [Layout.maxSectors, Layout.directCount, Layout.tabledSectors, Layout.tableCount,
      Layout.tableEntries, blockSize, lengthLimit] at far room ⊢
    omega
  have none_beyond : ¬ offset / blockSize + 1 ≤ offset / blockSize := by omega
  simp only [far, none_beyond, decide_false, Bool.or_self, Bool.false_eq_true, if_false,
    Draft.settle, Program.returns_bind] at h ⊢
  refine h.mono ?_
  rintro ⟨success, d⟩ u outcome
  cases success with
  | false =>
    simp only [Bool.false_eq_true, if_false, Program.returns_bind, Program.returns_pure] at outcome ⊢
    refine outcome.mono ?_
    rintro _ u' ⟨r₁, none_grown, _⟩
    cases none_grown
  | true =>
    simp only [if_true, Draft.carryOut, store, Program.returns_bind, Program.returns_write,
      Program.returns_ofExcept, withSize_resized (small n (by omega)),
      withSize_resized (small m within), Except.ok.injEq, exists_eq_left', Program.returns_pure]
      at outcome ⊢
    refine outcome.mono fun _ u₁ rest => rest.mono ?_
    rintro _ u₂ ⟨inside, r₁, same, finished⟩
    cases same
    refine ⟨inside, _, _, finished, rfl, ?_⟩
    exact (Flat.withRecord_withRecord u₂ home (d.record.resized (offset + n))
      (d.record.resized (offset + m))).symm

/-- A piece that ends with the first part, or before, is a piece of that part. -/
theorem writePiece_append (ends : blockSize - offset % blockSize ≤ a.length ∨
    offset < r.size ∧ r.size - offset ≤ a.length) :
    r.writePiece home offset (a ++ b) = r.writePiece home offset a := by
  rcases ends with room | ⟨inside, room⟩
  · have piece (size : Nat) : (a ++ b).take (min (size - offset) (blockSize - offset % blockSize)) =
        a.take (min (size - offset) (blockSize - offset % blockSize)) :=
      List.take_append_of_le_length (by omega)
    simp only [writePiece, List.take_append_of_le_length room, piece]
  · have piece : (a ++ b).take (min (r.size - offset) (blockSize - offset % blockSize)) =
        a.take (min (r.size - offset) (blockSize - offset % blockSize)) :=
      List.take_append_of_le_length (by omega)
    simp only [writePiece, sectorForWrite, if_pos inside, bind_assoc, pure_bind, piece]

/-- From the greatest length on nothing is written, whatever is in the record. -/
theorem write_beyond (beyond : Layout.maxLength ≤ offset) :
    r.write home offset data = pure (0, r) := by
  have far : Layout.maxSectors ≤ offset / blockSize :=
    (Nat.le_div_iff_mul_le (by decide)).mpr beyond
  have nowhere (count : Nat) : r.sectorForWrite home offset count = pure (none, r) := by
    have no_position := Position.ofIndex?_eq_none_iff.mpr far
    simp only [sectorForWrite, dataSector, no_position, grow, far, decide_true, Bool.true_or,
      if_true, pure_bind, ite_self]
  by_cases nothing : data = []
  · rw [nothing, write_nil]
  · rw [write_eq nothing, writePiece]
    simp only [nowhere, pure_bind, if_true]

/-- What comes after bytes that reach the greatest length is never looked at. -/
theorem write_append_beyond (full : Layout.maxLength ≤ offset + a.length) :
    r.write home offset (a ++ b) = r.write home offset a := by
  induction length : a.length using Nat.strongRecOn generalizing r offset a with
  | ind length ih =>
    subst length
    by_cases beyond : Layout.maxLength ≤ offset
    · rw [write_beyond beyond, write_beyond beyond]
    have nonempty : a ≠ [] := by
      rintro rfl
      exact beyond full
    -- The greatest length is a whole number of sectors, so the first piece does not go past `a`.
    have room : blockSize - offset % blockSize ≤ a.length := by
      simp only [Layout.maxLength, Layout.maxSectors, blockSize] at beyond full ⊢
      omega
    rw [write_eq nonempty, write_eq (List.append_ne_nil_of_left_ne_nil nonempty b),
      writePiece_append (.inl room)]
    refine bind_congr ?_
    rintro ⟨n, r₁⟩
    by_cases none_written : n = 0
    · simp only [none_written, if_true]
    simp only [if_neg none_written]
    have rest : r₁.write home (offset + n) ((a ++ b).drop n) =
        r₁.write home (offset + n) (a.drop n) := by
      by_cases past : a.length ≤ n
      · have beyond : Layout.maxLength ≤ offset + n := by omega
        rw [write_beyond beyond, write_beyond beyond]
      · rw [List.drop_append_of_le_length (by omega)]
        exact ih (a.drop n).length (by rw [List.length_drop]; omega)
          (by rw [List.length_drop]; omega) rfl
    rw [rest]

/-- A write takes no more of its bytes than a file can hold. -/
theorem write_take : r.write home offset (data.take (Layout.maxLength - offset)) =
    r.write home offset data := by
  by_cases short : data.length ≤ Layout.maxLength - offset
  · rw [List.take_of_length_le short]
  · conv_rhs => rw [← List.take_append_drop (Layout.maxLength - offset) data]
    refine (write_append_beyond ?_).symm
    rw [List.length_take]
    omega

end Record

/-- A program has one result, so it is enough to know what is true of it. -/
theorem Program.Returns.congr {β : Type} {p : Program β} {sure post post' : β → Flat α → Prop}
    (h : p.Returns v sure) (same : ∀ b w, sure b w → (post b w ↔ post' b w)) :
    p.Returns v post ↔ p.Returns v post' :=
  ⟨fun returns => (h.and returns).mono fun b w ⟨known, holds⟩ => (same b w known).mp holds,
    fun returns => (h.and returns).mono fun b w ⟨known, holds⟩ => (same b w known).mpr holds⟩

theorem Program.Returns.iff_of_eq {β : Type} {p : Program β} {b : β} {post : β → Flat α → Prop}
    (h : p.Returns v fun b' w' => b' = b ∧ w' = w) : p.Returns v post ↔ post b w := by
  constructor
  · intro returns
    obtain ⟨_, _, _, ⟨rfl, rfl⟩, holds⟩ := h.and returns
    exact holds
  · rintro holds
    refine h.mono ?_
    rintro _ _ ⟨rfl, rfl⟩
    exact holds

/-- A draft that has only looked at tables has nothing to write that is not there. -/
theorem Draft.returns_writeTables_alike {d d' : Draft} (alike : Alike v.content d d')
    (coherent : d'.Coherent v.content) (fresh : ∀ b, d.tables.get b = none)
    (holds : v.Holds (d.links v.content).sectors) {post : Unit → Flat α → Prop} (done : post () v) :
    d'.writeTables.Returns v post := by
  have unwritten := Program.returns_forM (List.finRange 3) d'.writeTable (fun _ w => w = v) (v := v)
    rfl ?_
  · exact unwritten.mono fun _ w same => same ▸ done
  rintro earlier b later w _ rfl
  unfold writeTable
  cases seen : d'.tables.get b with
  | none => exact Program.returns_pure.mpr rfl
  | some entry =>
    obtain ⟨t, changed⟩ := entry
    cases changed with
    | false => exact Program.returns_pure.mpr rfl
    | true =>
      have view := alike.tableView b
      simp only [tableView, seen, fresh] at view
      have present := coherent.cached seen
      rw [alike.record] at present ⊢
      refine Program.returns_write.mpr ⟨holds.link (l := .table b) present, ?_⟩
      rw [view, Record.tableAt, PointerTable.encode_decode, Function.update_eq_self]

namespace Flat.Stores

variable [MappedAllocator α] (ready : v.Ready) (h : v.Stores home r)

include ready h

/-- A file that ends inside a sector grows there without taking a sector. -/
theorem returns_grow_inside (inside : 0 < r.size % blockSize)
    {post : Option Record → Flat α → Prop} :
    (r.grow home r.size count).Returns v post ↔
      post (some (r.resized (Layout.reach r.size count)))
        (v.withRecord home (r.resized (Layout.reach r.size count))) := by
  refine Program.Returns.iff_of_eq ?_
  have near : r.size / blockSize < Layout.maxSectors := by
    have bound := h.sound.size_le
    simp only [Layout.maxLength, blockSize] at bound inside ⊢
    omega
  have linked : r.size / blockSize < Layout.dataSectors r.size := by
    simp only [Layout.dataSectors, blockSize] at inside ⊢
    omega
  have beyond : r.size / blockSize < Layout.dataSectors (Layout.reach r.size count) :=
    Layout.lt_dataSectors_reach.mpr (.inr inside)
  obtain ⟨p, index⟩ := Position.exists_index (Nat.lt_of_lt_of_le linked h.sound.dataSectors_le)
  have present : r.links v.content (.data p) ≠ 0 := (h.sound.filled.data p).mpr (index ▸ linked)
  have reached : r.size + min count (blockSize - r.size % blockSize) =
      Layout.reach r.size count := rfl
  simp only [Record.grow, reached, Nat.not_le.mpr near, Nat.not_le.mpr beyond, decide_false,
    Bool.or_self, Bool.false_eq_true, if_false, Draft.settle, Draft.backfill, Program.returns_bind,
    StateT.run_bind]
  refine Draft.returns_has (Draft.coherent_ofRecord h.sound.tagged)
    (by rw [Draft.links_ofRecord]; exact h.holds ready) (index ▸ p.ofIndex?_index)
    fun d coherent alike => ?_
  have there : ((Draft.ofRecord r).links v.content (.data p) != 0) = true := by
    rw [Draft.links_ofRecord]
    exact bne_iff_ne.mpr present
  have no_data : (Draft.ofRecord r).newData.forM (fun s => Program.write s .zero) = pure () := rfl
  simp only [there, if_true, StateT.run_pure, Program.returns_pure, Draft.carryOut,
    Program.returns_bind, alike.newData, alike.record, no_data]
  refine Draft.returns_writeTables_alike alike coherent (Draft.get_tables_ofRecord r)
    (by rw [Draft.links_ofRecord]; exact h.holds ready) ?_
  rw [Program.returns_ofExcept]
  refine ⟨_, Record.withSize_resized (Layout.reach_lt_lengthLimit (.inr inside) near), ?_⟩
  exact Program.returns_write.mpr ⟨ready.lt_limit h.home_used, rfl, rfl⟩

variable {post : Nat × Record → Flat α → Prop}

theorem returns_writePiece_inside (inside : offset < r.size) {p : Position}
    (index : p.index = offset / blockSize) (nonempty : data ≠ []) :
    (r.writePiece home offset data).Returns v post ↔
      post (min (min (r.size - offset) (blockSize - offset % blockSize)) data.length, r)
        (v.patched (r.links v.content (.data p)).toNat (offset % blockSize)
          (data.take (min (r.size - offset) (blockSize - offset % blockSize)))) := by
  have linked := Layout.lt_dataSectors inside
  obtain ⟨q, index', present, found⟩ := h.sound.returns_dataSector (h.holds ready) linked
  obtain rfl := Position.index_injective (index'.trans index.symm)
  have on_volume : (r.links v.content (.data q)).toNat < v.limit :=
    (h.holds ready).link (l := .data q) present
  have room : offset % blockSize < blockSize := Nat.mod_lt _ (by decide)
  have positive : 0 < data.length := List.length_pos_iff.mpr nonempty
  have some_bytes : min (min (r.size - offset) (blockSize - offset % blockSize)) data.length ≠ 0 := by
    omega
  have within : offset % blockSize +
      (data.take (min (r.size - offset) (blockSize - offset % blockSize))).length ≤ 512 := by
    rw [List.length_take]
    simp only [blockSize] at room ⊢
    omega
  simp only [Record.writePiece, Record.sectorForWrite, if_pos inside, Program.returns_bind, found,
    Program.returns_pure, List.length_take, if_neg some_bytes,
    Record.returns_storeBytes_iff within, on_volume, true_and]

/-- Where the file ends before the piece, it grows and then has the piece inside. -/
theorem returns_writePiece_past (past : r.size ≤ offset) (nonempty : data ≠ []) :
    (r.writePiece home offset data).Returns v post ↔
      (r.grow home offset (data.take (blockSize - offset % blockSize)).length).Returns v
        fun grown w => match grown with
          | none => post (0, r) w
          | some r₁ => (r₁.writePiece home offset data).Returns w post := by
  have room : offset % blockSize < blockSize := Nat.mod_lt _ (by decide)
  have positive : 0 < data.length := List.length_pos_iff.mpr nonempty
  have grows : (r.grow home offset (data.take (blockSize - offset % blockSize)).length).Returns v
      fun grown _ => ∀ r₁, grown = some r₁ → offset < r₁.size := by
    refine h.returns_grow ready past (fun w _ _ r₁ => nofun) fun r₁ w _ _ size _ r₂ same => ?_
    obtain rfl := Option.some.inj same
    rw [size, Layout.reach, List.length_take]
    omega
  simp only [Record.writePiece, Record.sectorForWrite, if_neg (Nat.not_lt.mpr past),
    Program.returns_bind]
  refine grows.congr fun grown w beyond => ?_
  cases grown with
  | none => simp only [Program.returns_pure]
  | some r₁ => simp only [if_pos (beyond r₁ rfl), Program.returns_bind, Program.returns_pure]

theorem returns_writePiece_stores (nonempty : data ≠ []) :
    (r.writePiece home offset data).Returns v fun (n, r₁) w => w.Ready ∧ w.Stores home r₁ ∧
      (n ≠ 0 → n = Layout.piece r.size offset data.length) := by
  refine h.returns_writePiece ready nonempty ?_ ?_
  · intro w unchanged _ _
    have rewritten : v.Rewritten home r w r := .of_nothing h unchanged
    exact ⟨rewritten.ready ready, rewritten.stores, fun some_bytes => absurd rfl some_bytes⟩
  · exact fun n r₁ w _ exactly _ rewritten _ =>
      ⟨rewritten.ready ready, rewritten.stores, fun _ => exactly⟩

/-- Two parts that meet inside a sector which the file has are one piece. -/
theorem returns_writePiece_append_inside (some_bytes : a ≠ []) (more : b ≠ [])
    (first : a.length < min (r.size - offset) (blockSize - offset % blockSize))
    (split : (r.writePiece home offset a).Returns v fun (_, r₁) w =>
      (r₁.writePiece home (offset + a.length) b).Returns w post) :
    (r.writePiece home offset (a ++ b)).Returns v fun (n, r₂) u =>
      ∃ m, 0 < m ∧ n = a.length + m ∧ post (m, r₂) u := by
  have positive : 0 < b.length := List.length_pos_iff.mpr more
  obtain ⟨in_file, in_sector⟩ := Nat.lt_min.mp first
  have inside : offset < r.size := Nat.lt_of_sub_pos (Nat.zero_lt_of_lt in_file)
  have inside' : offset + a.length < r.size := Nat.add_lt_of_lt_sub' in_file
  have within : offset % blockSize + a.length < blockSize := Nat.add_lt_of_lt_sub' in_sector
  obtain ⟨p, place, present⟩ := h.sound.exists_position inside
  have index := Position.index_ofIndex? place
  have both := split.and (h.returns_writePiece_stores ready some_bytes)
  rw [h.returns_writePiece_inside ready inside index some_bytes] at both
  rw [List.take_of_length_le (Nat.le_of_lt first)] at both
  obtain ⟨second, ready', stores', _⟩ := both
  have index' : p.index = (offset + a.length) / blockSize := by rw [index, Layout.add_div within]
  have links := h.links_update present ((v.content (r.links v.content (.data p)).toNat).overwrite
    (offset % blockSize) a)
  have second := (stores'.returns_writePiece_inside ready' inside' index' more).mp second
  change post _ ((v.patched _ _ a).patched (r.links (Function.update _ _ _) (.data p)).toNat
    _ _) at second
  rw [links, Layout.left_add within, Layout.add_mod within, Flat.patched_patched] at second
  rw [h.returns_writePiece_inside ready inside index (by simp [more]), List.take_append,
    List.take_of_length_le (Nat.le_of_lt first), List.length_append]
  generalize min (r.size - offset) (blockSize - offset % blockSize) = left at first second ⊢
  exact ⟨_, Nat.lt_min.mpr ⟨Nat.sub_pos_of_lt first, positive⟩, by omega, second⟩

omit ready in
theorem links_withRecord (n : Nat) (r' : Record) :
    (r.resized n).links (v.withRecord home r').content = r.links v.content := by
  refine Record.links_congr (r := r) fun b present => Function.update_of_ne ?_ _ _
  have member : (r.tables.get b).toNat ∈ (r.links v.content).sectors :=
    Record.mem_links_of_ne_zero (l := .table b) present
  exact ne_of_mem_of_not_mem member h.sound.home_notMem

theorem returns_grow_by (past : r.size ≤ offset) {n : Nat} (positive : 0 < n)
    (within : offset % blockSize + n ≤ blockSize) :
    (r.grow home offset n).Returns v fun grown w => ∀ r₁, grown = some r₁ →
      w.Ready ∧ w.Stores home r₁ ∧ r₁.size = offset + n := by
  refine h.returns_grow ready past (fun w _ _ r₁ => nofun) fun r₁ w rewritten _ size _ r₂ same => ?_
  obtain rfl := Option.some.inj same
  refine ⟨rewritten.ready ready, rewritten.stores, size.trans ?_⟩
  rw [Layout.reach]
  omega

/-- Two parts that meet inside a sector which the file does not have are one piece: the first
one takes the sector, the second one is put into it. -/
theorem returns_writePiece_append_past (past : r.size ≤ offset) (some_bytes : a ≠ []) (more : b ≠ [])
    (first : a.length < blockSize - offset % blockSize)
    (split : (r.writePiece home offset a).Returns v fun (n, r₁) w => n = a.length ∧
      (r₁.writePiece home (offset + a.length) b).Returns w post) :
    (r.writePiece home offset (a ++ b)).Returns v fun (n, r₂) u =>
      ∃ m, 0 < m ∧ n = a.length + m ∧ post (m, r₂) u := by
  have positive : 0 < a.length := List.length_pos_iff.mpr some_bytes
  have positive' : 0 < b.length := List.length_pos_iff.mpr more
  have within : offset % blockSize + a.length < blockSize := Nat.add_lt_of_lt_sub' first
  obtain ⟨total, total_eq⟩ :
      ∃ total, total = min (a.length + b.length) (blockSize - offset % blockSize) := ⟨_, rfl⟩
  have longer : a.length < total :=
    total_eq ▸ Nat.lt_min.mpr ⟨Nat.lt_add_of_pos_right positive', first⟩
  have room : offset % blockSize + total ≤ blockSize := by omega
  -- The sector is taken in the same way for both parts as for the first one alone.
  rw [h.returns_writePiece_past ready past some_bytes, List.take_of_length_le (Nat.le_of_lt first)]
    at split
  have grows : (r.grow home offset a.length).Returns v fun grown w => ∃ r₁, grown = some r₁ ∧
      w.Ready ∧ w.Stores home r₁ ∧ r₁.size = offset + a.length ∧
        (r₁.writePiece home offset a).Returns w fun (_, r₁) w =>
          (r₁.writePiece home (offset + a.length) b).Returns w post := by
    refine (split.and (h.returns_grow_by ready past positive (Nat.le_of_lt within))).mono ?_
    rintro grown w ⟨rest, facts⟩
    cases grown with
    | none => exact absurd rest.1.symm (Nat.ne_of_gt positive)
    | some r₁ =>
      obtain ⟨ready₁, stores₁, size₁⟩ := facts r₁ rfl
      exact ⟨r₁, rfl, ready₁, stores₁, size₁, rest.mono fun _ _ => And.right⟩
  have further := Record.returns_grow_further positive (Nat.le_of_lt longer) room grows
  rw [h.returns_writePiece_past ready past (by simp [more]), List.length_take, List.length_append,
    Nat.min_comm, ← total_eq]
  refine (further.and (h.returns_grow_by ready past (Nat.zero_lt_of_lt longer) room)).mono ?_
  rintro grown u ⟨⟨r₁, w, ⟨ready₁, stores₁, size₁, second⟩, rfl, rfl⟩, facts⟩
  obtain ⟨ready₂, stores₂, size₂⟩ := facts _ rfl
  have inside : offset < r₁.size := size₁ ▸ Nat.lt_add_of_pos_right positive
  have whole : a.length ≤ min (r₁.size - offset) (blockSize - offset % blockSize) := by
    rw [size₁, Nat.add_sub_cancel_left]
    exact Nat.le_min.mpr ⟨Nat.le_refl _, Nat.le_of_lt first⟩
  obtain ⟨p, place, present⟩ := stores₁.sound.exists_position inside
  have index := Position.index_ofIndex? place
  have apart : (r₁.links w.content (.data p)).toNat ≠ home :=
    ne_of_mem_of_not_mem (Record.mem_links_of_ne_zero present) stores₁.sound.home_notMem
  -- The second part finds the sector there, and only the length grows.
  have both := second.and (stores₁.returns_writePiece_stores ready₁ some_bytes)
  rw [stores₁.returns_writePiece_inside ready₁ inside index some_bytes,
    List.take_of_length_le whole] at both
  obtain ⟨second, ready', stores', _⟩ := both
  have second := (stores'.returns_writePiece_past ready' (Nat.le_of_eq size₁) more).mp second
  rw [← size₁] at second
  have mid_sector : 0 < r₁.size % blockSize := by
    rw [size₁, Layout.add_mod within]
    exact Nat.add_pos_right _ positive
  rw [stores'.returns_grow_inside ready' mid_sector] at second
  have reached : Layout.reach r₁.size (b.take (blockSize - r₁.size % blockSize)).length =
      offset + total := by
    rw [List.length_take, size₁, Layout.reach_add within, total_eq]
  rw [reached, size₁] at second
  -- Seen from the whole, both parts lie inside the file that has grown.
  have inside₂ : offset < (r₁.resized (offset + total)).size :=
    Nat.lt_of_lt_of_eq (Nat.lt_add_of_pos_right (Nat.zero_lt_of_lt longer)) size₂.symm
  have fits : a.length < min ((r₁.resized (offset + total)).size - offset)
      (blockSize - offset % blockSize) := by
    rw [size₂, Nat.add_sub_cancel_left]
    exact Nat.lt_min.mpr ⟨longer, first⟩
  refine stores₂.returns_writePiece_append_inside ready₂ some_bytes more fits ?_
  rw [stores₂.returns_writePiece_inside ready₂ inside₂ index some_bytes,
    stores₁.links_withRecord, List.take_of_length_le (Nat.le_of_lt fits)]
  rw [Flat.withRecord_patched apart] at second
  exact second

/-- Bytes that can be written in two parts are written at once with the same result. -/
theorem returns_write_append
    (split : (r.write home offset a).Returns v fun (n, r₁) w => n = a.length ∧
      (r₁.write home (offset + a.length) b).Returns w fun (m, r₂) u =>
        post (a.length + m, r₂) u) :
    (r.write home offset (a ++ b)).Returns v post := by
  induction length : a.length using Nat.strongRecOn generalizing v r offset a post with
  | ind length ih =>
    subst length
    by_cases nothing : a = []
    · subst nothing
      simpa only [Record.write_nil, Program.returns_pure, List.length_nil, true_and, Nat.zero_add,
        Nat.add_zero, List.nil_append] using split
    by_cases finished : b = []
    · subst finished
      rw [List.append_nil]
      refine split.mono ?_
      rintro ⟨n, r₁⟩ w ⟨whole, rest⟩
      rw [Record.write_nil, Program.returns_pure] at rest
      exact whole ▸ rest
    have positive : 0 < a.length := List.length_pos_iff.mpr nothing
    rw [Record.write_eq nothing, Program.returns_bind] at split
    have pieces := split.and (h.returns_writePiece_stores ready nothing)
    rw [Record.write_eq (by simp [nothing]), Program.returns_bind]
    by_cases early : blockSize - offset % blockSize ≤ a.length ∨
        offset < r.size ∧ r.size - offset ≤ a.length
    · -- Both writes begin with the same piece, and go on with what is left of the first part.
      rw [Record.writePiece_append early]
      refine pieces.mono ?_
      rintro ⟨n, r₁⟩ w ⟨rest, ready₁, stores₁, exactly⟩
      by_cases no_bytes : n = 0
      · simp only [no_bytes, if_true, Program.returns_pure] at rest
        exact absurd rest.1 (by omega)
      have bound : n ≤ a.length := exactly no_bytes ▸ Nat.min_le_left _ _
      simp only [if_neg no_bytes, Program.returns_bind, Program.returns_pure]
        at rest ⊢
      rw [List.drop_append_of_le_length bound]
      refine ih (a.drop n).length (by rw [List.length_drop]; omega) ready₁ stores₁
        (rest.mono ?_) rfl
      rintro ⟨m, r₂⟩ u ⟨whole, more⟩
      rw [List.length_drop]
      refine ⟨by omega, ?_⟩
      rw [Nat.add_assoc, Nat.add_sub_cancel' bound]
      refine more.mono ?_
      rintro ⟨k, r₃⟩ u' holds
      have total : n + (a.length - n + k) = a.length + k := by omega
      change post (n + (a.length - n + k), r₃) u'
      rw [total]
      exact holds
    · -- The first part ends inside a sector, and its last piece is one with the next.
      push Not at early
      have pieces : (r.writePiece home offset a).Returns v fun (n, r₁) w => n = a.length ∧
          (r₁.writePiece home (offset + a.length) b).Returns w fun (m, r₂) u => 0 < m →
            (r₂.write home (offset + a.length + m) (b.drop m)).Returns u fun (k, r₃) =>
              post (a.length + (m + k), r₃) := by
        refine pieces.mono ?_
        rintro ⟨n, r₁⟩ w ⟨rest, ready₁, stores₁, exactly⟩
        by_cases no_bytes : n = 0
        · simp only [no_bytes, if_true, Program.returns_pure] at rest
          exact absurd rest.1 (by omega)
        have whole : n = a.length := by
          rw [exactly no_bytes, Layout.piece]
          split <;> omega
        subst whole
        simp only [if_neg no_bytes, List.drop_length, Record.write_nil,
          Program.returns_bind, Program.returns_pure, Nat.add_zero, true_and] at rest
        rw [Record.write_eq finished, Program.returns_bind] at rest
        refine ⟨rfl, rest.mono ?_⟩
        rintro ⟨m, r₂⟩ u rest more
        simpa only [if_neg (Nat.ne_of_gt more), Program.returns_bind, Program.returns_pure] using rest
      have joined : (r.writePiece home offset (a ++ b)).Returns v fun (n, r₂) u =>
          ∃ m, 0 < m ∧ n = a.length + m ∧ (0 < m →
            (r₂.write home (offset + a.length + m) (b.drop m)).Returns u fun (k, r₃) =>
              post (a.length + (m + k), r₃)) := by
        by_cases inside : offset < r.size
        · have first := early.2 inside
          exact h.returns_writePiece_append_inside ready nothing finished (by omega)
            (pieces.mono fun _ _ => And.right)
        · exact h.returns_writePiece_append_past ready (Nat.le_of_not_lt inside) nothing finished
            early.1 pieces
      refine joined.mono ?_
      rintro ⟨n, r₂⟩ u ⟨m, more, rfl, rest⟩
      have some_bytes : a.length + m ≠ 0 := by omega
      simp only [if_neg some_bytes, Program.returns_bind, Program.returns_pure, List.drop_append,
        Nat.add_sub_cancel_left, List.drop_of_length_le (Nat.le_add_right a.length m),
        List.nil_append, ← Nat.add_assoc] at rest ⊢
      exact rest more

end Flat.Stores

end InodeVolume
