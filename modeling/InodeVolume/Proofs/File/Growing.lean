import InodeVolume.Proofs.File.Drafting

/-!
# Steps of a draft

What each step of a draft does to the links and to the sectors held. A step that
fails does so for want of a free sector, and a draft is carried on until it spans
the data sectors asked for.
-/

namespace InodeVolume

/-- A draft for the record `r₀`, begun on `v₀`. -/
structure Drafted {α : Type} [Allocator α] [MappedAllocator α] (v₀ : Flat α) (r₀ : Record)
    (v : Flat α) (d : Draft) : Prop where
  exchanged : v₀.Exchanged [] v d.held
  length : d.record.length = r₀.length
  tag : d.record.tag = r₀.tag
  coherent : d.Coherent v.content
  linked : (r₀.links v₀.content).Extends (d.links v.content) d.held d.newData

variable {α : Type} [Allocator α] [MappedAllocator α] {v₀ v w : Flat α} {r₀ : Record} {d d' : Draft}

namespace Drafted

/-- Only the sectors held and the tables looked at may differ for a draft to be as good. -/
theorem alike (h : Drafted v₀ r₀ v d) (coherent : d'.Coherent v.content)
    (same : Draft.Alike v.content d d') : Drafted v₀ r₀ v d' where
  exchanged := same.held ▸ h.exchanged
  length := by rw [same.record, h.length]
  tag := by rw [same.record, h.tag]
  coherent := coherent
  linked := by
    rw [same.links, same.held, same.newData]
    exact h.linked

theorem of_content (h : Drafted v₀ r₀ v d) (exchanged : v₀.Exchanged [] w d.held)
    (same : w.content = v.content) : Drafted v₀ r₀ w d where
  exchanged := exchanged
  length := h.length
  tag := h.tag
  coherent := same ▸ h.coherent
  linked := same ▸ h.linked

theorem isAllocated (h : Drafted v₀ r₀ v d)
    (used : ∀ s ∈ (r₀.links v₀.content).sectors, v₀.map.isAllocated s = true) {s : Sector}
    (member : s ∈ (d.links v.content).sectors) : v.map.isAllocated s = true := by
  rcases List.mem_append.mp (h.linked.perm.mem_iff.mp member) with old | new
  · exact (h.exchanged.isAllocated s).mpr (.inl ⟨used s old, List.not_mem_nil⟩)
  · exact h.exchanged.isAllocated_of_mem new

theorem holds (h : Drafted v₀ r₀ v d) (ready : v₀.Ready)
    (used : ∀ s ∈ (r₀.links v₀.content).sectors, v₀.map.isAllocated s = true) :
    v.Holds (d.links v.content).sectors := fun _ member =>
  (h.exchanged.ready ready List.not_mem_nil).lt_limit (h.isAllocated used member)

/-- Writing to a sector that nobody had leaves the links alone. -/
theorem content_table (h : Drafted v₀ r₀ v d)
    (used : ∀ s ∈ (r₀.links v₀.content).sectors, v₀.map.isAllocated s = true) {s : Sector}
    (unused : v.map.isAllocated s = false) (data : Block) (b : Fin 3)
    (present : d.record.tables.get b ≠ 0) :
    Function.update v.content s data (d.record.tables.get b).toNat =
      v.content (d.record.tables.get b).toNat := by
  refine Function.update_of_ne ?_ _ _
  intro same
  have member : s ∈ (d.links v.content).sectors :=
    Links.mem_sectors.mpr ⟨.table b, present, same⟩
  rw [h.isAllocated used member] at unused
  cases unused

end Drafted

namespace Draft

def Linked (v₀ : Flat α) (r₀ : Record) (v : Flat α) (d : Draft) (l : Link) :
    Bool × Draft → Flat α → Prop
  | (true, d'), w => Drafted v₀ r₀ w d' ∧
    ∃ p, p ≠ 0 ∧ d'.links w.content = Function.update (d.links v.content) l p
  | (false, d'), w => Drafted v₀ r₀ w d' ∧ d'.links w.content = d.links v.content ∧ w.map.free = 0

variable (ready : v₀.Ready)

include ready

theorem returns_takeSector (h : Drafted v₀ r₀ v d) {post : Option Sector × Draft → Flat α → Prop}
    (short : ∀ w, Drafted v₀ r₀ w d → w.content = v.content → w.map.free = 0 → post (none, d) w)
    (taken : ∀ p w, p ≠ 0 → Sector.toPointer p.toNat = .ok p →
      v₀.Exchanged [] w (d.held ++ [p.toNat]) → w.content = v.content →
      v.map.isAllocated p.toNat = false →
      post (some p.toNat, { d with held := d.held ++ [p.toNat] }) w) :
    (takeSector.run d).Returns v post := by
  simp only [takeSector, StateT.run_bind, Program.returns_bind, Program.returns_lift]
  refine h.exchanged.returns_allocate ?_ ?_
  · intro w exchanged same empty
    exact Program.returns_pure.mpr (short w (h.of_content exchanged same) same empty)
  · intro s w exchanged same unused
    have member : s ∈ d.held ++ [s] := by simp
    have fresh := (exchanged.fresh member).resolve_left List.not_mem_nil
    obtain ⟨p, pointer, present, rfl⟩ := ready.pointer fresh (exchanged.lt_capacity member)
    simp only [StateT.run_bind, StateT.run_modify, StateT.run_pure, Program.returns_bind,
      Program.returns_pure]
    exact taken p w present pointer exchanged same unused

theorem returns_extendDirect (h : Drafted v₀ r₀ v d) {slot : Fin 123}
    (absent : d.links v.content (.data (.direct slot)) = 0) :
    ((extendDirect slot).run d).Returns v (Linked v₀ r₀ v d (.data (.direct slot))) := by
  simp only [extendDirect, StateT.run_bind, Program.returns_bind]
  refine returns_takeSector ready h ?_ ?_
  · intro w drafted same empty
    exact Program.returns_pure.mpr ⟨drafted, by rw [same], empty⟩
  intro p w present pointer exchanged same _
  simp only [StateT.run_bind, Program.returns_bind, Program.returns_lift, StateT.run_modify,
    StateT.run_pure, Program.returns_pure, Program.returns_ofExcept, pointer, Except.ok.injEq,
    exists_eq_left']
  have links := links_withDirect w.content d slot p
  have coherent := h.coherent.withDirect slot p
  have linked := h.linked.data absent present
  rw [← same] at coherent linked
  rw [← links] at linked
  exact ⟨⟨exchanged, h.length, h.tag, coherent.holding _ _, linked⟩, p, present, same ▸ links⟩

variable (used : ∀ s ∈ (r₀.links v₀.content).sectors, v₀.map.isAllocated s = true)

include used

theorem returns_provideTable (b : Fin 3) (h : Drafted v₀ r₀ v d) :
    ((provideTable b).run d).Returns v (Linked v₀ r₀ v d (.table b)) := by
  simp only [provideTable, StateT.run_bind, StateT.run_get, Program.returns_bind, Program.returns_pure]
  by_cases absent : d.record.tables.get b = 0
  case neg =>
    have unchanged : d.links v.content =
        Function.update (d.links v.content) (.table b) (d.record.tables.get b) :=
      (Function.update_eq_self (.table b) (d.links v.content)).symm
    simp only [bne_iff_ne, ne_eq, absent, not_false_eq_true, if_true]
    exact Program.returns_pure.mpr ⟨h, _, absent, unchanged⟩
  simp only [absent, bne_self_eq_false, Bool.false_eq_true, if_false, StateT.run_bind,
    Program.returns_bind]
  refine returns_takeSector ready h ?_ ?_
  · intro w drafted same empty
    exact Program.returns_pure.mpr ⟨drafted, by rw [same], empty⟩
  intro p w present pointer exchanged same unused
  have member : p.toNat ∈ d.held ++ [p.toNat] := by simp
  simp only [StateT.run_bind, Program.returns_bind, Program.returns_lift, StateT.run_modify,
    StateT.run_pure, Program.returns_pure, Program.returns_ofExcept, pointer,
    Except.ok.injEq, exists_eq_left']
  rw [exchanged.returns_write ready member, same]
  have unchanged := h.content_table used unused PointerTable.empty.encode
  have links := links_withNewTable (Function.update v.content p.toNat PointerTable.empty.encode)
    absent p
  rw [links_congr unchanged] at links
  have written : PointerTable.decode (Function.update v.content p.toNat
      PointerTable.empty.encode p.toNat) = .empty := by simp
  have coherent := (h.coherent.congr unchanged).withNewTable (b := b) present written
  have exchanged' := exchanged.write member PointerTable.empty.encode
  rw [same] at exchanged'
  have linked := h.linked.table absent present
  rw [← links] at linked
  exact ⟨⟨exchanged', h.length, h.tag, coherent.holding _ _, linked⟩, p, present, links⟩

theorem returns_extendTable (h : Drafted v₀ r₀ v d) {b : Fin 3} {e : Fin 127}
    (table : d.links v.content (.table b) ≠ 0) (absent : d.links v.content (.data (.tabled b e)) = 0) :
    ((extendTable b e).run d).Returns v (Linked v₀ r₀ v d (.data (.tabled b e))) := by
  simp only [extendTable, StateT.run_bind, Program.returns_bind]
  refine returns_takeSector ready h ?_ ?_
  · intro w drafted same empty
    exact Program.returns_pure.mpr ⟨drafted, by rw [same], empty⟩
  intro p w present pointer exchanged same _
  simp only [StateT.run_bind, Program.returns_bind, Program.returns_lift, StateT.run_modify,
    StateT.run_pure, Program.returns_pure, run_setTable, Program.returns_ofExcept, pointer,
    Except.ok.injEq, exists_eq_left']
  have before : Coherent w.content { d with held := d.held ++ [p.toNat] } := by
    have coherent := h.coherent
    rw [← same] at coherent
    exact coherent.holding _ _
  have inside : (d.record.tables.get b).toNat < w.limit := by
    rw [exchanged.limit, ← h.exchanged.limit]
    exact (h.holds ready used).link (l := .table b) table
  refine returns_tableAt before table inside fun d' seen alike => ?_
  have table' : d'.record.tables.get b ≠ 0 := alike.record ▸ table
  have coherent := seen.withEntry table' e p
  have links := links_withEntry w.content table' e p
  have linked := h.linked.data absent present
  have same_links : d'.links w.content = d.links v.content := by
    rw [alike.links, same]
    rfl
  rw [same_links] at links
  rw [← links] at linked
  rw [Draft.withEntry, alike.tableView] at coherent links linked
  exact ⟨{
    exchanged := alike.held ▸ exchanged
    length := (congrArg Record.length alike.record).trans h.length
    tag := (congrArg Record.tag alike.record).trans h.tag
    coherent := coherent.holding _ _
    linked := by
      change Links.Extends _ _ d'.held (d'.newData ++ [p.toNat])
      rw [alike.held, alike.newData]
      exact linked }, p, present, links⟩

/-- A data sector that has none is given one, with the links on the way to it. -/
theorem returns_extend (h : Drafted v₀ r₀ v d) {i : Nat} {p : Position}
    (place : Position.ofIndex? i = some p) (absent : d.links v.content (.data p) = 0)
    {post : Bool × Draft → Flat α → Prop}
    (short : ∀ d' w, Drafted v₀ r₀ w d' → w.map.free = 0 → d'.links w.content (.data p) = 0 →
      (∀ l, d'.links w.content l ≠ 0 → d.links v.content l ≠ 0 ∨ l.Serves p) → post (false, d') w)
    (done : ∀ d' w, Drafted v₀ r₀ w d' →
      (∀ l, d'.links w.content l ≠ 0 ↔ d.links v.content l ≠ 0 ∨ l.Serves p) → post (true, d') w) :
    ((extend i).run d).Returns v post := by
  rw [extend, place]
  cases p with
  | direct slot =>
    refine (returns_extendDirect ready h absent).mono ?_
    rintro ⟨finished, d'⟩ w linked
    cases finished with
    | false =>
      obtain ⟨drafted, same, empty⟩ := linked
      refine short d' w drafted empty (by rw [same, absent]) fun l present => ?_
      exact .inl (same ▸ present)
    | true =>
      obtain ⟨drafted, x, present, links⟩ := linked
      refine done d' w drafted fun l => ?_
      rw [links, Links.update_ne_zero_iff present, Link.serves_direct]
  | tabled b e =>
    simp only [StateT.run_bind, Program.returns_bind]
    refine (returns_provideTable ready used b h).mono ?_
    rintro ⟨finished, d₁⟩ v₁ linked
    cases finished with
    | false =>
      obtain ⟨drafted, same, empty⟩ := linked
      have missing : d₁.links v₁.content (.data (.tabled b e)) = 0 := by rw [same, absent]
      refine Program.returns_pure.mpr (short d₁ v₁ drafted empty missing fun l present => ?_)
      exact .inl (same ▸ present)
    | true =>
      obtain ⟨drafted, x, present, links⟩ := linked
      have table : d₁.links v₁.content (.table b) ≠ 0 := by
        rwa [links, Function.update_self]
      have absent' : d₁.links v₁.content (.data (.tabled b e)) = 0 := by
        rwa [links, Function.update_of_ne (by simp)]
      refine (returns_extendTable ready used drafted table absent').mono ?_
      rintro ⟨finished, d'⟩ w linked
      cases finished with
      | false =>
        obtain ⟨drafted', same, empty⟩ := linked
        refine short d' w drafted' empty (by rw [same, absent']) fun l present' => ?_
        rw [same, links, Links.update_ne_zero_iff present] at present'
        exact present'.imp_right fun here => Link.serves_tabled.mpr (.inl here)
      | true =>
        obtain ⟨drafted', y, present', links'⟩ := linked
        refine done d' w drafted' fun l => ?_
        rw [links', Links.update_ne_zero_iff present', links, Links.update_ne_zero_iff present,
          or_assoc, Link.serves_tabled]

/-- How an attempt ends to make a draft span `n` data sectors: well, or for want of a
free sector before that. -/
def Attempted (v₀ : Flat α) (r₀ : Record) (n : Nat) : Bool × Draft → Flat α → Prop
  | (true, d), w => Drafted v₀ r₀ w d ∧ (d.links w.content).Filled n
  | (false, d), w => Drafted v₀ r₀ w d ∧ (d.links w.content).Unfilled n ∧ w.map.free = 0

theorem returns_fill (h : Drafted v₀ r₀ v d) {count i : Nat} (small : i + count ≤ 504)
    (filled : (d.links v.content).Filled i) :
    ((fill count i).run d).Returns v (Attempted v₀ r₀ (i + count)) := by
  induction count generalizing i d v with
  | zero => exact Program.returns_pure.mpr ⟨h, filled⟩
  | succ count ih =>
    have links := Links.filled_iff.mp filled
    obtain ⟨p, rfl⟩ := Position.exists_index (i := i) (by omega)
    have next (l : Link) : l.Spans 0 (p.index + 1) ↔ l.Spans 0 p.index ∨ l.Serves p := by
      rw [Link.spans_split (Nat.zero_le p.index) (Nat.le_succ _), Link.spans_one]
    -- Filled just below `p`, the draft lacks `p` itself.
    have absent : d.links v.content (.data p) = 0 := by
      by_contra present
      exact Nat.lt_irrefl _ ((filled.data p).mp present)
    simp only [fill, StateT.run_bind, Program.returns_bind]
    refine returns_extend ready used h p.ofIndex?_index absent ?_ ?_
    · intro d' w drafted empty missing within
      have reach (l : Link) (spans : l.Spans 0 (p.index + 1)) :
          l.Spans 0 (p.index + (count + 1)) :=
        (Link.spans_split (Nat.zero_le (p.index + 1)) (by omega)).mpr (.inl spans)
      refine Program.returns_pure.mpr ⟨drafted, ⟨fun {l} present => ?_, .data p, missing, ?_⟩, empty⟩
      · refine reach l ((next l).mpr ?_)
        exact (within l present).imp_left (links l).mp
      · exact reach _ ((next _).mpr (.inr rfl))
    · intro d' w drafted links'
      have filled' : (d'.links w.content).Filled (p.index + 1) := by
        refine Links.filled_iff.mpr fun l => ?_
        rw [links', links, next]
      have rest := ih drafted (by omega) filled'
      rwa [Nat.add_right_comm] at rest

theorem returns_backfill (h : Drafted v₀ r₀ v d) {n i stop : Nat} (small : stop ≤ 504) (above : n ≤ i)
    (below : i ≤ stop) (links : ∀ l, d.links v.content l ≠ 0 ↔ l.Spans 0 n ∨ l.Spans i stop) :
    ((backfill i).run d).Returns v (Attempted v₀ r₀ stop) := by
  induction i generalizing d v with
  | zero =>
    refine Program.returns_pure.mpr ⟨h, Links.filled_iff.mpr fun l => ?_⟩
    rw [links, or_iff_right (Link.not_spans above)]
  | succ i ih =>
    obtain ⟨p, rfl⟩ := Position.exists_index (i := i) (by omega)
    simp only [backfill, StateT.run_bind, Program.returns_bind]
    refine returns_has h.coherent (h.holds ready used) p.ofIndex?_index fun d₁ coherent alike => ?_
    have h := h.alike coherent alike
    rw [← alike.links] at links ⊢
    by_cases absent : d₁.links v.content (.data p) = 0
    case neg =>
      -- On the way down, the first link that is there is the last one that the file had before.
      have whole : n = p.index + 1 := by
        have spans := (links _).mp absent
        rw [Link.spans_data, Link.spans_data] at spans
        omega
      simp only [bne_iff_ne, ne_eq, absent, not_false_eq_true, if_true]
      refine Program.returns_pure.mpr ⟨h, Links.filled_iff.mpr fun l => ?_⟩
      rw [links, whole, Link.spans_split (Nat.zero_le (p.index + 1)) below]
    have next (l : Link) : l.Spans p.index stop ↔ l.Spans (p.index + 1) stop ∨ l.Serves p := by
      rw [Link.spans_split (Nat.le_succ _) below, Link.spans_one, or_comm]
    simp only [absent, bne_self_eq_false, Bool.false_eq_true, if_false, StateT.run_bind,
      Program.returns_bind]
    have still_above : n ≤ p.index := by
      by_contra past
      have spans : (Link.data p).Spans 0 n := Link.spans_data.mpr ⟨Nat.zero_le _, by omega⟩
      exact (links _).mpr (.inl spans) absent
    refine returns_extend ready used h p.ofIndex?_index absent ?_ ?_
    · intro d' w drafted empty missing within
      have reach (l : Link) (spans : l.Spans 0 n ∨ l.Spans p.index stop) : l.Spans 0 stop := by
        obtain ⟨q, _, last, serves⟩ | ⟨q, _, last, serves⟩ := spans
        · exact ⟨q, Nat.zero_le _, by omega, serves⟩
        · exact ⟨q, Nat.zero_le _, last, serves⟩
      refine Program.returns_pure.mpr ⟨drafted, ⟨fun {l} present => ?_, .data p, missing, ?_⟩, empty⟩
      · refine reach l ?_
        rw [next, ← or_assoc, ← links]
        exact within l present
      · exact reach _ (.inr ((next _).mpr (.inr rfl)))
    · intro d' w drafted links'
      refine ih drafted still_above (by omega) fun l => ?_
      rw [links', links, next, or_assoc]

end Draft

end InodeVolume
