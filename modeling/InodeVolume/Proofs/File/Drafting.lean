import InodeVolume.File.Draft
import InodeVolume.Proofs.File.Reading
import InodeVolume.Proofs.Volume.Exchange

/-!
# Links of a draft

A draft has links too, some of them in tables that are not yet written. Every
step keeps the links that are there, and the sectors of the new ones are those
that the draft holds. A step that fails does so for want of a free sector.
-/

namespace InodeVolume

namespace Links

/-- `f` has all links of `f₀`; the others lead to `held`, those of data to `newData`. -/
structure Extends (f₀ f : Links) (held newData : List Sector) : Prop where
  kept {l : Link} : f₀ l ≠ 0 → f l = f₀ l
  perm : f.sectors.Perm (f₀.sectors ++ held)
  newData {s : Sector} :
    s ∈ newData ↔ ∃ p, f₀ (.data p) = 0 ∧ f (.data p) ≠ 0 ∧ (f (.data p)).toNat = s

namespace Extends

variable {f₀ f : Links} {held newData : List Sector} {x : UInt32}

theorem refl (f : Links) : Extends f f [] [] where
  kept _ := rfl
  perm := by rw [List.append_nil]
  newData := by
    refine ⟨fun member => absurd member List.not_mem_nil, ?_⟩
    rintro ⟨p, absent, present, _⟩
    exact absurd absent present

theorem eq_zero (h : Extends f₀ f held newData) {l : Link} (absent : f l = 0) : f₀ l = 0 := by
  by_contra present
  exact present (h.kept present ▸ absent)

theorem mem_newData (h : Extends f₀ f held newData) (distinct : f.sectors.Nodup) {p : Position}
    (present : f (.data p) ≠ 0) : (f (.data p)).toNat ∈ newData ↔ f₀ (.data p) = 0 := by
  rw [h.newData]
  constructor
  · rintro ⟨q, absent, present', same⟩
    cases eq_of_nodup distinct _ _ present' same
    exact absent
  · exact fun absent => ⟨p, absent, present, rfl⟩

theorem table_notMem (h : Extends f₀ f held newData) (distinct : f.sectors.Nodup) (b : Fin 3) :
    (f (.table b)).toNat ∉ newData := by
  intro member
  obtain ⟨p, _, present, same⟩ := h.newData.mp member
  exact table_ne_data distinct b present same.symm

theorem mem_sectors_of_newData (h : Extends f₀ f held newData) {s : Sector} (member : s ∈ newData) :
    s ∈ f.sectors := by
  obtain ⟨p, _, present, rfl⟩ := h.newData.mp member
  exact mem_sectors.mpr ⟨_, present, rfl⟩

theorem kept_update (h : Extends f₀ f held newData) {l : Link} (absent : f l = 0) {l' : Link}
    (present : f₀ l' ≠ 0) : Function.update f l x l' = f₀ l' := by
  have apart : l' ≠ l := by
    rintro rfl
    exact present (h.eq_zero absent)
  rw [Function.update_of_ne apart, h.kept present]

theorem perm_update (h : Extends f₀ f held newData) {l : Link} (absent : f l = 0) (present : x ≠ 0) :
    (sectors (Function.update f l x)).Perm (f₀.sectors ++ (held ++ [x.toNat])) := by
  refine (sectors_update absent present).trans ?_
  rw [← List.append_assoc]
  exact (h.perm.cons _).trans (List.perm_append_singleton _ _).symm

theorem table (h : Extends f₀ f held newData) {b : Fin 3} (absent : f (.table b) = 0)
    (present : x ≠ 0) :
    Extends f₀ (Function.update f (.table b) x) (held ++ [x.toNat]) newData where
  kept := h.kept_update absent
  perm := h.perm_update absent present
  newData := by
    intro s
    rw [h.newData]
    simp

theorem data (h : Extends f₀ f held newData) {p : Position} (absent : f (.data p) = 0)
    (present : x ≠ 0) :
    Extends f₀ (Function.update f (.data p) x) (held ++ [x.toNat]) (newData ++ [x.toNat]) where
  kept := h.kept_update absent
  perm := h.perm_update absent present
  newData := by
    intro s
    rw [List.mem_append, List.mem_singleton, h.newData]
    constructor
    · rintro (⟨q, old, new, same⟩ | rfl)
      · have apart : q ≠ p := by
          rintro rfl
          exact new absent
        exact ⟨q, old, by simpa [apart] using new, by simpa [apart] using same⟩
      · exact ⟨p, h.eq_zero absent, by simpa using present, by simp⟩
    · rintro ⟨q, old, new, same⟩
      by_cases here : q = p
      · subst here
        right
        simpa using same.symm
      · left
        exact ⟨q, old, by simpa [here] using new, by simpa [here] using same⟩

end Extends

end Links

namespace Draft

variable {content content' : Sector → Block} {d d' : Draft}

/-- The table in slot `b` as the draft has it. -/
def tableView (content : Sector → Block) (d : Draft) (b : Fin 3) : PointerTable :=
  match d.tables.get b with
  | some (t, _) => t
  | none => d.record.tableAt content b

def links (content : Sector → Block) (d : Draft) : Links
  | .data (.direct i) => d.record.direct.get i
  | .data (.tabled b e) =>
    if d.record.tables.get b = 0 then 0 else (d.tableView content b).entries.get e
  | .table b => d.record.tables.get b

/-- The tables at hand are tables of the record, with their tag, and where they need not
be written they are as on the volume. -/
structure Coherent (content : Sector → Block) (d : Draft) : Prop where
  tagged (b : Fin 3) : d.record.tables.get b ≠ 0 → (d.tableView content b).isTagged
  cached {b : Fin 3} {t : PointerTable} {changed : Bool} :
    d.tables.get b = some (t, changed) → d.record.tables.get b ≠ 0
  unchanged {b : Fin 3} {t : PointerTable} :
    d.tables.get b = some (t, false) → d.record.tableAt content b = t

/-- Two drafts that differ at most in the tables looked at. -/
structure Alike (content : Sector → Block) (d d' : Draft) : Prop where
  record : d'.record = d.record
  newData : d'.newData = d.newData
  held : d'.held = d.held
  tableView (b : Fin 3) : d'.tableView content b = d.tableView content b

theorem Alike.links (h : Alike content d d') : d'.links content = d.links content := by
  funext l
  match l with
  | .data (.direct i) => simp only [Draft.links, h.record]
  | .data (.tabled b e) => simp only [Draft.links, h.record, h.tableView]
  | .table b => simp only [Draft.links, h.record]

@[simp] theorem get_tables_ofRecord (r : Record) (b : Fin 3) :
    (ofRecord r).tables.get b = none := by
  simp [ofRecord, Vector.get]

theorem tableView_ofRecord (r : Record) (b : Fin 3) :
    (ofRecord r).tableView content b = r.tableAt content b := by
  simp only [tableView, get_tables_ofRecord]
  rfl

theorem links_ofRecord (r : Record) : (ofRecord r).links content = r.links content := by
  funext l
  match l with
  | .data (.direct i) => rfl
  | .data (.tabled b e) =>
    simp only [links, tableView_ofRecord]
    rfl
  | .table b => rfl

theorem coherent_ofRecord {r : Record}
    (tagged : ∀ b, r.tables.get b ≠ 0 → (r.tableAt content b).isTagged) :
    (ofRecord r).Coherent content where
  tagged b present := by
    rw [tableView_ofRecord]
    exact tagged b present
  cached seen := by
    rw [get_tables_ofRecord] at seen
    cases seen
  unchanged seen := by
    rw [get_tables_ofRecord] at seen
    cases seen

theorem Coherent.holding (h : d.Coherent content) (newData held : List Sector) :
    Coherent content { d with newData, held } where
  tagged := h.tagged
  cached := h.cached
  unchanged := h.unchanged

section Congr

variable (same : ∀ b, d.record.tables.get b ≠ 0 →
  content' (d.record.tables.get b).toNat = content (d.record.tables.get b).toNat)

include same

theorem tableView_congr {b : Fin 3} (present : d.record.tables.get b ≠ 0) :
    d.tableView content' b = d.tableView content b := by
  simp only [tableView, Record.tableAt, same b present]

theorem links_congr : d.links content' = d.links content := by
  funext l
  match l with
  | .data (.direct i) => rfl
  | .table b => rfl
  | .data (.tabled b e) =>
    simp only [links]
    split
    · rfl
    next present => rw [tableView_congr same present]

theorem Coherent.congr (h : d.Coherent content) : d.Coherent content' where
  tagged b present := by
    rw [tableView_congr same present]
    exact h.tagged b present
  cached := h.cached
  unchanged seen := by
    rw [Record.tableAt, same _ (h.cached seen)]
    exact h.unchanged seen

end Congr

theorem run_setTable (b : Fin 3) (t : PointerTable) (changed : Bool) (d : Draft) :
    (setTable b t changed).run d = pure ((), d.withTable b t changed) := rfl

theorem get_withTable (d : Draft) (b : Fin 3) (t : PointerTable) (changed : Bool) (c : Fin 3) :
    (d.withTable b t changed).tables.get c =
      if b = c then some (t, changed) else d.tables.get c := Vector.get_set _ _ _ _

theorem tableView_withTable (content : Sector → Block) (d : Draft) (b : Fin 3) (t : PointerTable)
    (changed : Bool) (c : Fin 3) : (d.withTable b t changed).tableView content c =
      if b = c then t else d.tableView content c := by
  rw [tableView, get_withTable]
  by_cases same : b = c
  · rw [if_pos same, if_pos same]
  · rw [if_neg same, if_neg same]
    rfl

theorem Coherent.withTable (h : d.Coherent content) {b : Fin 3} {t : PointerTable} {changed : Bool}
    (present : d.record.tables.get b ≠ 0) (tagged : t.isTagged)
    (unchanged : changed = false → d.record.tableAt content b = t) :
    (d.withTable b t changed).Coherent content where
  tagged c present' := by
    rw [tableView_withTable]
    split
    · exact tagged
    · exact h.tagged c present'
  cached {c t' changed'} seen := by
    rw [get_withTable] at seen
    split at seen
    next same => exact same ▸ present
    · exact h.cached seen
  unchanged {c t'} seen := by
    rw [get_withTable] at seen
    split at seen
    next same =>
      cases seen
      exact same ▸ unchanged rfl
    · exact h.unchanged seen

def withEntry (content : Sector → Block) (d : Draft) (b : Fin 3) (e : Fin 127) (p : UInt32) :
    Draft :=
  d.withTable b ((d.tableView content b).withEntry e p) true

theorem links_withDirect (content : Sector → Block) (d : Draft) (slot : Fin 123) (p : UInt32) :
    (d.withDirect slot p).links content =
      Function.update (d.links content) (.data (.direct slot)) p := by
  funext l
  match l with
  | .data (.direct i) =>
    by_cases same : slot = i
    · subst same
      simp [links, withDirect, Vector.get_set]
    · simp [links, withDirect, Vector.get_set, same, Ne.symm same]
  | .data (.tabled b e) =>
    rw [Function.update_of_ne (by simp)]
    rfl
  | .table b =>
    rw [Function.update_of_ne (by simp)]
    rfl

theorem Coherent.withDirect (h : d.Coherent content) (slot : Fin 123) (p : UInt32) :
    (d.withDirect slot p).Coherent content := ⟨h.tagged, h.cached, h.unchanged⟩

theorem links_withEntry (content : Sector → Block) {b : Fin 3}
    (present : d.record.tables.get b ≠ 0) (e : Fin 127) (p : UInt32) :
    (d.withEntry content b e p).links content =
      Function.update (d.links content) (.data (.tabled b e)) p := by
  funext l
  match l with
  | .data (.direct i) =>
    rw [Function.update_of_ne (by simp)]
    rfl
  | .table c =>
    rw [Function.update_of_ne (by simp)]
    rfl
  | .data (.tabled c e') =>
    have view := tableView_withTable content d b
      ((d.tableView content b).withEntry e p) true c
    by_cases same : b = c
    · subst same
      rw [if_pos rfl] at view
      change (if d.record.tables.get b = 0 then 0 else
        ((d.withTable b _ true).tableView content b).entries.get e') = _
      rw [if_neg present, view]
      change ((d.tableView content b).entries.set e p e.isLt).get e' = _
      rw [Vector.get_set]
      by_cases here : e = e'
      · rw [if_pos here, here, Function.update_self]
      · rw [if_neg here, Function.update_of_ne (by simpa using Ne.symm here)]
        simp only [links, if_neg present]
    · rw [if_neg same] at view
      rw [Function.update_of_ne (by simp [Ne.symm same])]
      simp only [links, Draft.withEntry, view]
      rfl

theorem Coherent.withEntry (h : d.Coherent content) {b : Fin 3}
    (present : d.record.tables.get b ≠ 0) (e : Fin 127) (p : UInt32) :
    (d.withEntry content b e p).Coherent content :=
  h.withTable present (h.tagged b present) nofun

theorem tableView_withNewTable (d : Draft) (b : Fin 3) (p : UInt32) (c : Fin 3) :
    (d.withNewTable b p).tableView content c = if b = c then .empty else d.tableView content c := by
  rw [withNewTable, tableView_withTable]
  by_cases same : b = c
  · rw [if_pos same, if_pos same]
  · rw [if_neg same, if_neg same]
    simp only [tableView, Record.tableAt, Vector.get_set, if_neg same]

theorem get_tables_withNewTable (d : Draft) (b : Fin 3) (p : UInt32) (c : Fin 3) :
    (d.withNewTable b p).record.tables.get c = if b = c then p else d.record.tables.get c :=
  Vector.get_set _ _ _ _

theorem links_withNewTable (content : Sector → Block) {b : Fin 3}
    (absent : d.record.tables.get b = 0) (p : UInt32) :
    (d.withNewTable b p).links content = Function.update (d.links content) (.table b) p := by
  funext l
  match l with
  | .data (.direct i) =>
    rw [Function.update_of_ne (by simp)]
    rfl
  | .table c =>
    simp only [links, get_tables_withNewTable]
    by_cases same : b = c
    · simp [same]
    · rw [Function.update_of_ne (by simpa using Ne.symm same), if_neg same]
      rfl
  | .data (.tabled c e) =>
    rw [Function.update_of_ne (by simp)]
    simp only [links, get_tables_withNewTable, tableView_withNewTable]
    by_cases same : b = c
    · subst same
      have blank : PointerTable.empty.entries.get e = 0 := by simp [PointerTable.empty, Vector.get]
      rw [if_pos absent, if_pos rfl, if_pos rfl, blank, ite_self]
    · simp only [if_neg same]

theorem Coherent.withNewTable (h : d.Coherent content) {b : Fin 3} {p : UInt32} (present : p ≠ 0)
    (written : PointerTable.decode (content p.toNat) = .empty) :
    (d.withNewTable b p).Coherent content where
  tagged c present' := by
    rw [get_tables_withNewTable] at present'
    rw [tableView_withNewTable]
    by_cases same : b = c
    · rw [if_pos same]
      rfl
    · rw [if_neg same] at present' ⊢
      exact h.tagged c present'
  cached {c t changed} seen := by
    rw [Draft.withNewTable, get_withTable] at seen
    rw [get_tables_withNewTable]
    by_cases same : b = c
    · rwa [if_pos same]
    · rw [if_neg same] at seen ⊢
      exact h.cached seen
  unchanged {c t} seen := by
    rw [Draft.withNewTable, get_withTable] at seen
    rw [Record.tableAt, get_tables_withNewTable]
    by_cases same : b = c
    · rw [if_pos same] at seen ⊢
      cases seen
      exact written
    · rw [if_neg same] at seen ⊢
      exact h.unchanged seen

/-- A record with the pointers of the draft has its links once the tables are on the volume. -/
theorem links_record {r : Record} (direct : r.direct = d.record.direct)
    (tables : r.tables = d.record.tables)
    (view : ∀ b, d.record.tables.get b ≠ 0 →
      d.record.tableAt content' b = d.tableView content b) :
    r.links content' = d.links content := by
  funext l
  cases l with
  | table b => simp only [Record.links, links, tables]
  | data p =>
    cases p with
    | direct i => simp only [Record.links, links, direct]
    | tabled b e =>
      simp only [Record.links, links, tables]
      by_cases absent : d.record.tables.get b = 0
      · rw [if_pos absent, if_pos absent]
      · rw [if_neg absent, if_neg absent, ← view b absent, Record.tableAt, Record.tableAt, tables]

section Steps

variable {α : Type} [Allocator α] {v : Flat α} {b : Fin 3}

theorem returns_tableAt (h : d.Coherent v.content) (present : d.record.tables.get b ≠ 0)
    (inside : (d.record.tables.get b).toNat < v.limit) {post : PointerTable × Draft → Flat α → Prop}
    (found : ∀ d', d'.Coherent v.content → Alike v.content d d' →
      post (d.tableView v.content b, d') v) :
    ((tableAt b).run d).Returns v post := by
  simp only [tableAt, StateT.run_bind, StateT.run_get, Program.returns_bind, Program.returns_pure]
  cases seen : d.tables.get b with
  | some entry =>
    obtain ⟨t, changed⟩ := entry
    have view : d.tableView v.content b = t := by simp only [tableView, seen]
    simp only [StateT.run_pure, Program.returns_pure]
    exact view ▸ found d h ⟨rfl, rfl, rfl, fun _ => rfl⟩
  | none =>
    have view : d.tableView v.content b = d.record.tableAt v.content b := by
      simp only [tableView, seen]
    have tagged := h.tagged b present
    rw [view] at tagged
    simp only [StateT.run_bind, StateT.run_monadLift, StateT.run_pure, run_setTable,
      Program.returns_bind, Program.returns_pure]
    refine (PointerTable.returns_load inside tagged).mpr ?_
    have alike : Alike v.content d (d.withTable b (d.record.tableAt v.content b) false) := by
      refine ⟨rfl, rfl, rfl, fun c => ?_⟩
      rw [tableView_withTable]
      split
      next same => exact same ▸ view.symm
      · rfl
    have here := found _ (h.withTable present tagged fun _ => rfl) alike
    rw [view] at here
    exact here

theorem returns_has (h : d.Coherent v.content) (holds : v.Holds (d.links v.content).sectors)
    {i : Nat} {p : Position} (place : Position.ofIndex? i = some p)
    {post : Bool × Draft → Flat α → Prop}
    (found : ∀ d', d'.Coherent v.content → Alike v.content d d' →
      post (d.links v.content (.data p) != 0, d') v) :
    ((has i).run d).Returns v post := by
  have alike : Alike v.content d d := ⟨rfl, rfl, rfl, fun _ => rfl⟩
  simp only [has, place, StateT.run_bind, StateT.run_get, Program.returns_bind, Program.returns_pure]
  cases p with
  | direct slot => exact Program.returns_pure.mpr (found d h alike)
  | tabled b e =>
    by_cases absent : d.record.tables.get b = 0
    · have missing := found d h alike
      simp only [links, if_pos absent, bne_self_eq_false] at missing
      simp only [if_pos absent]
      exact Program.returns_pure.mpr missing
    · have inside : (d.record.tables.get b).toNat < v.limit := holds.link (l := .table b) absent
      simp only [if_neg absent, StateT.run_bind, Program.returns_bind]
      refine returns_tableAt h absent inside fun d' coherent alike' => ?_
      have here := found d' coherent alike'
      simp only [links, if_neg absent] at here
      exact Program.returns_pure.mpr here

end Steps

end Draft

end InodeVolume
