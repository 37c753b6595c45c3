import InodeVolume.Proofs.File.Growing

/-!
# Settling a draft

A draft that is carried out leaves a record with the links of the draft: new data
sectors hold zeros, old ones what they held. One that is abandoned leaves nothing
behind, and then the free sectors did not suffice.
-/

namespace InodeVolume

variable {α : Type} [Allocator α] [MappedAllocator α] {v₀ v w : Flat α} {r₀ r : Record} {d : Draft}
  {home : Sector} {n length : Nat}

namespace Record

/-- The sectors of the record are in use, each once, and its tables are tables. -/
structure Rooted (v : Flat α) (home : Sector) (r : Record) : Prop where
  nodup : (r.owned v.content home).Nodup
  used : ∀ s ∈ r.owned v.content home, v.map.isAllocated s = true
  tagged (b : Fin 3) : r.tables.get b ≠ 0 → (r.tableAt v.content b).isTagged

theorem Rooted.isAllocated (h : r₀.Rooted v₀ home) {s : Sector}
    (member : s ∈ (r₀.links v₀.content).sectors) : v₀.map.isAllocated s = true := by
  refine h.used s ?_
  rw [owned_eq]
  exact List.mem_cons_of_mem _ member

/-- The record `r` on `w` has what `r₀` had on `v`, and zeros beyond up to `n` data
sectors. -/
structure Grown (v : Flat α) (home : Sector) (r₀ : Record) (n : Nat) (w : Flat α) (r : Record) :
    Prop where
  exchanged : v.Exchanged (r₀.owned v.content home) w (r.owned w.content home)
  tag : r.tag = r₀.tag
  filled : (r.links w.content).Filled n
  kept {l : Link} : r₀.links v.content l ≠ 0 → r.links w.content l = r₀.links v.content l
  tagged (b : Fin 3) : r.tables.get b ≠ 0 → (r.tableAt w.content b).isTagged
  old {p : Position} : r₀.links v.content (.data p) ≠ 0 →
    w.content (r₀.links v.content (.data p)).toNat = v.content (r₀.links v.content (.data p)).toNat
  blank {p : Position} : r₀.links v.content (.data p) = 0 → r.links w.content (.data p) ≠ 0 →
    w.content (r.links w.content (.data p)).toNat = .zero

theorem withSize_eq (r : Record) (small : length < lengthLimit) :
    ∃ r', r.withSize length = .ok r' ∧ r'.size = length ∧ r'.tag = r.tag ∧
      r'.direct = r.direct ∧ r'.tables = r.tables := by
  refine ⟨{ r with length := Int32.ofNat length }, if_pos small, ?_, rfl, rfl, rfl⟩
  have value : (Int32.ofNat length).toInt = length := Int32.toInt_ofNat_of_lt small
  simp only [size, value]

theorem size_of_withSize {r r' : Record} (h : r.withSize length = .ok r') :
    r'.size = length := by
  by_cases small : length < lengthLimit
  · obtain ⟨r'', sized, size, _⟩ := r.withSize_eq small
    rw [h] at sized
    cases sized
    exact size
  · rw [withSize, if_neg small] at h
    cases h

end Record

namespace Draft

theorem returns_zeroData {owned : List Sector} {before : List Sector}
    (ready : v₀.Ready) (exchanged : v₀.Exchanged before v owned) (inside : ∀ s ∈ d.newData, s ∈ owned)
    {post : Unit → Flat α → Prop}
    (done : ∀ w, v₀.Exchanged before w owned → (∀ s ∈ d.newData, w.content s = .zero) →
      (∀ s, s ∉ d.newData → w.content s = v.content s) → post () w) :
    (d.newData.forM fun s => Program.write s .zero).Returns v post := by
  have zeroed := Program.returns_forM d.newData (fun s => Program.write s .zero)
    (fun earlier w => v₀.Exchanged before w owned ∧ (∀ s ∈ earlier, w.content s = .zero) ∧
      ∀ s, s ∉ d.newData → w.content s = v.content s) (v := v)
    ⟨exchanged, by simp, fun _ _ => rfl⟩ ?_
  · exact zeroed.mono fun _ w ⟨exchanged, zero, same⟩ => done w exchanged zero same
  rintro earlier s later w whole ⟨exchanged, zero, same⟩
  have member : s ∈ d.newData := by simp [whole]
  refine (exchanged.returns_write ready (inside s member)).mpr
    ⟨exchanged.write (inside s member) _, ?_, ?_⟩
  · intro t listed
    by_cases here : t = s
    · subst here
      exact Function.update_self _ _ _
    · refine (Function.update_of_ne here _ _).trans (zero t ?_)
      simpa [here] using listed
  · intro t outside
    exact (Function.update_of_ne (ne_of_mem_of_not_mem member outside).symm _ _).trans (same t outside)

theorem returns_writeTable {owned before : List Sector} {b : Fin 3} (ready : v₀.Ready)
    (exchanged : v₀.Exchanged before w owned) (coherent : d.Coherent v.content)
    (inside : ∀ s ∈ (d.links v.content).sectors, s ∈ owned)
    (pending : d.record.tables.get b ≠ 0 →
      d.record.tableAt w.content b = d.record.tableAt v.content b)
    {post : Unit → Flat α → Prop}
    (done : ∀ u, v₀.Exchanged before u owned →
      (d.record.tables.get b ≠ 0 → d.record.tableAt u.content b = d.tableView v.content b) →
      (∀ s, (d.record.tables.get b ≠ 0 → (d.record.tables.get b).toNat ≠ s) →
        u.content s = w.content s) → post () u) :
    (d.writeTable b).Returns w post := by
  unfold writeTable
  cases seen : d.tables.get b with
  | none =>
    refine Program.returns_pure.mpr (done w exchanged (fun present => ?_) fun _ _ => rfl)
    rw [pending present]
    simp only [tableView, seen]
  | some entry =>
    obtain ⟨t, changed⟩ := entry
    have view : d.tableView v.content b = t := by simp only [tableView, seen]
    cases changed with
    | false =>
      refine Program.returns_pure.mpr (done w exchanged (fun present => ?_) fun _ _ => rfl)
      rw [pending present, view, coherent.unchanged seen]
    | true =>
      have present := coherent.cached seen
      have member : (d.record.tables.get b).toNat ∈ owned :=
        inside _ (Links.mem_sectors.mpr ⟨.table b, present, rfl⟩)
      refine (exchanged.returns_write ready member).mpr
        (done _ (exchanged.write member _) (fun _ => ?_) fun s other => ?_)
      · simp [Record.tableAt, view]
      · exact Function.update_of_ne (other present).symm _ _

theorem returns_writeTables {owned before : List Sector} (ready : v₀.Ready)
    (exchanged : v₀.Exchanged before v owned) (coherent : d.Coherent v.content)
    (distinct : (d.links v.content).sectors.Nodup)
    (inside : ∀ s ∈ (d.links v.content).sectors, s ∈ owned) {post : Unit → Flat α → Prop}
    (done : ∀ w, v₀.Exchanged before w owned →
      (∀ b, d.record.tables.get b ≠ 0 → d.record.tableAt w.content b = d.tableView v.content b) →
      (∀ s, (∀ b, d.record.tables.get b ≠ 0 → (d.record.tables.get b).toNat ≠ s) →
        w.content s = v.content s) → post () w) :
    d.writeTables.Returns v post := by
  have apart {b c : Fin 3} (present : d.record.tables.get b ≠ 0) (differ : b ≠ c) :
      (d.record.tables.get b).toNat ≠ (d.record.tables.get c).toNat := fun same =>
    differ (Link.table.inj (Links.eq_of_nodup distinct (.table b) (.table c) present same))
  have written := Program.returns_forM (List.finRange 3) d.writeTable
    (fun earlier w => v₀.Exchanged before w owned ∧
      (∀ b ∈ earlier, d.record.tables.get b ≠ 0 →
        d.record.tableAt w.content b = d.tableView v.content b) ∧
      ∀ s, (∀ b ∈ earlier, d.record.tables.get b ≠ 0 → (d.record.tables.get b).toNat ≠ s) →
        w.content s = v.content s) (v := v)
    ⟨exchanged, by simp, fun _ _ => rfl⟩ ?_
  · refine written.mono fun _ w ⟨exchanged, tables, others⟩ => done w exchanged ?_ ?_
    · exact fun b => tables b (List.mem_finRange b)
    · exact fun s elsewhere => others s fun b _ => elsewhere b
  rintro earlier b later w whole ⟨exchanged, tables, others⟩
  have new : b ∉ earlier := by
    have nodup := List.nodup_finRange 3
    rw [whole, List.nodup_middle, List.nodup_cons, List.mem_append, not_or] at nodup
    exact nodup.1.1
  refine returns_writeTable ready exchanged coherent inside ?_ fun u exchanged view same =>
    ⟨exchanged, ?_, ?_⟩
  · intro present
    have same : w.content (d.record.tables.get b).toNat = v.content (d.record.tables.get b).toNat :=
      others _ fun c member present' => apart present' (ne_of_mem_of_not_mem member new)
    rw [Record.tableAt, same]
    rfl
  · intro c member present
    rcases List.mem_append.mp member with old | here
    · rw [Record.tableAt, same _ fun _ => (apart present (ne_of_mem_of_not_mem old new)).symm]
      exact tables c old present
    · obtain rfl := List.mem_singleton.mp here
      exact view present
  · intro s elsewhere
    rw [same s (elsewhere b (by simp)), others s fun c member => elsewhere c (by simp [member])]

variable (ready : v₀.Ready) (rooted : r₀.Rooted v₀ home)

include ready rooted

theorem returns_carryOut (h : Drafted v₀ r₀ v d) (filled : (d.links v.content).Filled n)
    (small : length < Record.lengthLimit) {post : Record → Flat α → Prop}
    (done : ∀ r w, r.size = length → r₀.Grown v₀ home n w r → post r w) :
    (d.carryOut length).Returns v post := by
  obtain ⟨r, sized, size, tag, direct, tables⟩ := d.record.withSize_eq small
  have exchanged : v₀.Exchanged (r₀.owned v₀.content home) v
      (home :: (d.links v.content).sectors) := by
    refine (h.exchanged.widen rooted.nodup rooted.used).perm ?_
    rw [Record.owned_eq]
    exact h.linked.perm.symm.cons home
  have distinct := exchanged.nodup.of_cons
  simp only [carryOut, Program.returns_bind]
  refine returns_zeroData ready exchanged
    (fun s member => List.mem_cons_of_mem _ (h.linked.mem_sectors_of_newData member))
    fun w₁ exchanged₁ zero same₁ => ?_
  have unchanged (b : Fin 3) (_ : d.record.tables.get b ≠ 0) :
      w₁.content (d.record.tables.get b).toNat = v.content (d.record.tables.get b).toNat :=
    same₁ _ (h.linked.table_notMem distinct b)
  have links₁ := links_congr unchanged
  rw [← links₁] at exchanged₁
  refine returns_writeTables ready exchanged₁ (h.coherent.congr unchanged)
    (by rw [links₁]; exact distinct) (fun s member => List.mem_cons_of_mem _ member)
    fun w₂ exchanged₂ written same₂ => ?_
  have view (b : Fin 3) (table : d.record.tables.get b ≠ 0) :
      d.record.tableAt w₂.content b = d.tableView v.content b := by
    rw [written b table, tableView_congr unchanged table]
  have links₂ : r.links w₂.content = d.links v.content := links_record direct tables view
  -- Data sectors were not touched when the tables were written.
  have data {p : Position} (present : d.links v.content (.data p) ≠ 0) :
      w₂.content (d.links v.content (.data p)).toNat =
        w₁.content (d.links v.content (.data p)).toNat :=
    same₂ _ fun b _ => Links.table_ne_data distinct b present
  have grown : r₀.Grown v₀ home n w₂ r := {
    exchanged := by
      rw [Record.owned_eq r, links₂, ← links₁]
      exact exchanged₂
    tag := tag.trans h.tag
    filled := links₂ ▸ filled
    kept present := by rw [links₂, h.linked.kept present]
    tagged b table := by
      rw [tables] at table
      rw [Record.tableAt, tables]
      have tagged := h.coherent.tagged b table
      rw [← view b table] at tagged
      exact tagged
    old present := by
      have kept := h.linked.kept present
      have not_new := mt (h.linked.mem_newData distinct (kept.trans_ne present)).mp present
      rw [← kept, data (kept.trans_ne present), same₁ _ not_new, kept]
      refine h.exchanged.content (rooted.isAllocated ?_) List.not_mem_nil
      exact Record.mem_links_of_ne_zero present
    blank absent present := by
      rw [links₂] at present ⊢
      rw [data present]
      exact zero _ ((h.linked.mem_newData distinct present).mpr absent) }
  exact Program.returns_ofExcept.mpr ⟨r, sized, done r w₂ size grown⟩

/-- Whether the draft can be settled depends on the number of free sectors alone. -/
theorem returns_settle {steps : Drafting Bool} (small : n ≤ 504)
    (attempt : (steps.run (.ofRecord r₀)).Returns v₀ (Attempted v₀ r₀ n))
    (short : length < Record.lengthLimit) {post : Option Record → Flat α → Prop}
    (failed : ∀ w, v₀.Exchanged [] w [] →
      v₀.map.free + (r₀.links v₀.content).sectors.length < n + Layout.tablesNeeded n → post none w)
    (done : ∀ r w, r.size = length → r₀.Grown v₀ home n w r → post (some r) w) :
    (settle steps r₀ length).Returns v₀ post := by
  rw [settle, Program.returns_bind]
  refine attempt.mono ?_
  rintro ⟨success, d⟩ w outcome
  cases success with
  | true =>
    obtain ⟨drafted, filled⟩ := outcome
    simp only [if_true, Program.returns_bind]
    refine returns_carryOut ready rooted drafted filled short fun r u size grown => ?_
    exact Program.returns_pure.mpr (done r u size grown)
  | false =>
    obtain ⟨drafted, unfilled, empty⟩ := outcome
    simp only [Bool.false_eq_true, if_false, Program.returns_bind]
    refine drafted.exchanged.returns_releaseAll ready fun u back _ => ?_
    refine Program.returns_pure.mpr (failed u back ?_)
    have counted := unfilled.length_sectors_lt small
    have held := drafted.exchanged.free
    rw [drafted.linked.perm.length_eq, List.length_append] at counted
    rw [List.length_nil] at held
    omega

end Draft

end InodeVolume
