import InodeVolume.Layout.PointerTable
import Mathlib

/-!
# Links of a file

A file has its sectors through links: data links, placed by position, and the
links to its tables. The list of the linked sectors is the order in which a file
gives its sectors back; a new link adds one sector to it, and where no sector
occurs twice, different links lead to different sectors.
-/

namespace InodeVolume

inductive Link where
  | data (p : Position)
  | table (b : Fin 3)
deriving DecidableEq

theorem Position.index_injective : Function.Injective Position.index := by
  intro p q same
  have found := ofIndex?_index q
  rw [← same, ofIndex?_index] at found
  exact Option.some.inj found

theorem Position.exists_index {i : Nat} (small : i < 504) : ∃ p : Position, p.index = i := by
  cases found : ofIndex? i with
  | some p => exact ⟨p, index_ofIndex? found⟩
  | none =>
    have big := ofIndex?_eq_none_iff.mp found
    simp only [Layout.maxSectors, Layout.directCount, Layout.tabledSectors, Layout.tableCount,
      Layout.tableEntries] at big
    omega

namespace Link

def all : List Link :=
  (List.finRange 123).map (fun i => data (.direct i)) ++
    (List.finRange 3).flatMap fun b =>
      (List.finRange 127).map (fun e => data (.tabled b e)) ++ [table b]

theorem mem_all (l : Link) : l ∈ all := by
  cases l with
  | data p => cases p <;> simp [all]
  | table b => simp [all]

theorem nodup_all : all.Nodup := by
  have ofTable (b : Fin 3) :
      ((List.finRange 127).map (fun e => data (.tabled b e)) ++ [table b]).Nodup := by
    refine List.nodup_append.mpr ⟨?_, by simp, ?_⟩
    · refine (List.nodup_finRange 127).map fun e e' same => ?_
      simpa using same
    · simp
  refine List.nodup_append.mpr ⟨?_, ?_, ?_⟩
  · refine (List.nodup_finRange 123).map fun i i' same => ?_
    simpa using same
  · refine List.nodup_flatMap.mpr ⟨fun b _ => ofTable b, ?_⟩
    refine (List.nodup_finRange 3).imp fun {b b'} apart => ?_
    intro l left right
    simp only [List.mem_append, List.mem_map, List.mem_singleton] at left right
    rcases left with ⟨e, _, rfl⟩ | rfl <;> simp_all
  · intro l left l' right
    simp only [List.mem_map, List.mem_flatMap, List.mem_append, List.mem_singleton] at left right
    obtain ⟨i, _, rfl⟩ := left
    obtain ⟨b, _, ⟨e, _, rfl⟩ | rfl⟩ := right <;> simp

/-- The link is on the way to the data sector at a position. -/
def Serves (p : Position) : Link → Prop
  | data q => q = p
  | table b => ∃ e, p = .tabled b e

theorem serves_direct {l : Link} {i : Fin 123} : l.Serves (.direct i) ↔ l = .data (.direct i) := by
  cases l <;> simp [Serves]

theorem serves_tabled {l : Link} {b : Fin 3} {e : Fin 127} :
    l.Serves (.tabled b e) ↔ l = .table b ∨ l = .data (.tabled b e) := by
  cases l <;> simp [Serves, eq_comm]

def Spans (start stop : Nat) (l : Link) : Prop :=
  ∃ p : Position, start ≤ p.index ∧ p.index < stop ∧ l.Serves p

theorem spans_data {start stop : Nat} {p : Position} :
    (data p).Spans start stop ↔ start ≤ p.index ∧ p.index < stop := by
  constructor
  · rintro ⟨_, above, below, rfl⟩
    exact ⟨above, below⟩
  · rintro ⟨above, below⟩
    exact ⟨p, above, below, rfl⟩

theorem not_spans {start stop : Nat} (empty : stop ≤ start) {l : Link} : ¬ l.Spans start stop := by
  rintro ⟨p, above, below, _⟩
  omega

theorem spans_one {p : Position} {l : Link} : l.Spans p.index (p.index + 1) ↔ l.Serves p := by
  constructor
  · rintro ⟨q, above, below, serves⟩
    have same : q = p := Position.index_injective (by omega)
    exact same ▸ serves
  · intro serves
    exact ⟨p, Nat.le_refl _, Nat.lt_succ_self _, serves⟩

theorem spans_split {start middle stop : Nat} (above : start ≤ middle) (below : middle ≤ stop)
    {l : Link} : l.Spans start stop ↔ l.Spans start middle ∨ l.Spans middle stop := by
  constructor
  · rintro ⟨p, first, last, serves⟩
    by_cases early : p.index < middle
    · exact .inl ⟨p, first, early, serves⟩
    · exact .inr ⟨p, Nat.le_of_not_lt early, last, serves⟩
  · rintro (⟨p, first, last, serves⟩ | ⟨p, first, last, serves⟩)
    · exact ⟨p, first, Nat.lt_of_lt_of_le last below, serves⟩
    · exact ⟨p, Nat.le_trans above first, last, serves⟩

end Link

/-- A pointer for each link; the null pointer stands for a link that is not there. -/
abbrev Links := Link → UInt32

namespace Links

variable {f : Links} {l : Link}

def sectors (f : Links) : List Sector := Link.all.filterMap fun l => Sector.ofPointer (f l)

theorem mem_sectors {s : Sector} : s ∈ f.sectors ↔ ∃ l, f l ≠ 0 ∧ (f l).toNat = s := by
  simp [sectors, Sector.ofPointer_eq_some_iff, Link.mem_all]

theorem update_ne_zero_iff {p : UInt32} (present : p ≠ 0) {l' : Link} :
    Function.update f l p l' ≠ 0 ↔ f l' ≠ 0 ∨ l' = l := by
  by_cases here : l' = l
  · simp [here, present]
  · simp [here]

theorem perm_filterMap {ι σ : Type} {items : List ι} (distinct : items.Nodup) {a : ι}
    (member : a ∈ items) {g g' : ι → Option σ} {x : σ} (before : g a = none) (after : g' a = some x)
    (same : ∀ b, b ≠ a → g' b = g b) : (items.filterMap g').Perm (x :: items.filterMap g) := by
  obtain ⟨front, back, rfl⟩ := List.append_of_mem member
  have apart := (List.nodup_middle.mp distinct).notMem
  simp only [List.mem_append, not_or] at apart
  have front_same : front.filterMap g' = front.filterMap g :=
    List.filterMap_congr fun b inside => same b (ne_of_mem_of_not_mem inside apart.1)
  have back_same : back.filterMap g' = back.filterMap g :=
    List.filterMap_congr fun b inside => same b (ne_of_mem_of_not_mem inside apart.2)
  simp only [List.filterMap_append, List.filterMap_cons, before, after, front_same, back_same]
  exact List.perm_middle

theorem sectors_update (absent : f l = 0) {p : UInt32} (present : p ≠ 0) :
    (sectors (Function.update f l p)).Perm (p.toNat :: f.sectors) := by
  refine perm_filterMap Link.nodup_all (Link.mem_all l) ?_ ?_ fun l' apart => ?_
  · simp [Sector.ofPointer, absent]
  · simp [Sector.ofPointer, present]
  · rw [Function.update_of_ne apart]

theorem eq_of_nodup (distinct : f.sectors.Nodup) (l l' : Link) (present : f l ≠ 0)
    (same : (f l).toNat = (f l').toNat) : l = l' := by
  by_contra apart
  have present' : f l' ≠ 0 := by
    intro zero
    rw [zero] at same
    exact present (UInt32.toNat.inj same)
  let Apart (a b : Link) : Prop :=
    ∀ s, Sector.ofPointer (f a) = some s → ∀ t, Sector.ofPointer (f b) = some t → s ≠ t
  have symmetric : Std.Symm Apart := ⟨fun a b far t found' s found => (far s found t found').symm⟩
  have pairwise : Link.all.Pairwise Apart := List.pairwise_filterMap.mp distinct
  exact pairwise.forall (Link.mem_all l) (Link.mem_all l') apart _
    (Sector.ofPointer_eq_some_iff.mpr ⟨present, rfl⟩) _
    (Sector.ofPointer_eq_some_iff.mpr ⟨present', rfl⟩) same

theorem table_ne_data (distinct : f.sectors.Nodup) (b : Fin 3) {p : Position}
    (present : f (.data p) ≠ 0) : (f (.table b)).toNat ≠ (f (.data p)).toNat := by
  intro same
  cases eq_of_nodup distinct (.data p) (.table b) present same.symm

/-- The links of a file with `n` data sectors: no hole, and no table too many. -/
structure Filled (f : Links) (n : Nat) : Prop where
  data (p : Position) : f (.data p) ≠ 0 ↔ p.index < n
  table (b : Fin 3) : f (.table b) ≠ 0 ↔ b.val < Layout.tablesNeeded n

theorem lt_tablesNeeded {n b : Nat} : b < Layout.tablesNeeded n ↔ 123 + b * 127 < n := by
  simp only [Layout.tablesNeeded, Layout.directCount, Layout.tableEntries]
  omega

theorem filled_iff {n : Nat} : f.Filled n ↔ ∀ l, f l ≠ 0 ↔ l.Spans 0 n := by
  have table (b : Fin 3) : (Link.table b).Spans 0 n ↔ b.val < Layout.tablesNeeded n := by
    rw [lt_tablesNeeded]
    constructor
    · rintro ⟨_, _, below, e, rfl⟩
      simp only [Position.index] at below
      omega
    · intro below
      exact ⟨.tabled b 0, Nat.zero_le _, by simpa [Position.index] using below, 0, rfl⟩
  constructor
  · rintro h (p | b)
    · rw [h.data, Link.spans_data, and_iff_right (Nat.zero_le _)]
    · rw [h.table, table]
  · intro h
    refine ⟨fun p => ?_, fun b => ?_⟩
    · rw [h, Link.spans_data, and_iff_right (Nat.zero_le _)]
    · rw [h, table]

theorem countP_range (k m : Nat) : (List.range k).countP (· < m) = min m k := by
  induction k with
  | zero => simp
  | succ k ih =>
    rw [List.range_succ, List.countP_append, ih, List.countP_singleton]
    simp only [decide_eq_true_eq]
    split <;> omega

theorem countP_finRange (k c m : Nat) :
    (List.finRange k).countP (fun i : Fin k => c + i.val < m) = min (m - c) k := by
  have shifted : (List.finRange k).countP (fun i : Fin k => c + i.val < m) =
      ((List.finRange k).map Fin.val).countP (· < m - c) := by
    rw [List.countP_map]
    refine List.countP_congr fun i _ => ?_
    simp only [Function.comp_apply, decide_eq_true_eq]
    omega
  rw [shifted, List.map_coe_finRange_eq_range, countP_range]

theorem length_eq_countP (f : Links) : f.sectors.length = Link.all.countP fun l => f l ≠ 0 := by
  rw [sectors, List.length_filterMap_eq_countP]
  refine List.countP_congr fun l _ => ?_
  simp [Sector.ofPointer]

/-- A file of `n` data sectors has as many sectors as these and their tables are. -/
theorem length_sectors {n : Nat} (h : f.Filled n) (small : n ≤ 504) :
    f.sectors.length = n + Layout.tablesNeeded n := by
  have direct : ((List.finRange 123).map (fun i => Link.data (.direct i))).countP
      (fun l => f l ≠ 0) = min n 123 := by
    rw [List.countP_map, ← Nat.sub_zero n, ← countP_finRange 123 0 n]
    refine List.countP_congr fun i _ => ?_
    simp [h.data, Position.index]
  have tabled (b : Fin 3) : ((List.finRange 127).map (fun e => Link.data (.tabled b e)) ++
      [Link.table b]).countP (fun l => f l ≠ 0) =
        min (n - (123 + b.val * 127)) 127 + if b.val < Layout.tablesNeeded n then 1 else 0 := by
    rw [List.countP_append, List.countP_map, ← countP_finRange 127 (123 + b.val * 127) n,
      List.countP_singleton]
    congr 1
    · refine List.countP_congr fun e _ => ?_
      simp [h.data, Position.index]
    · simp [h.table]
  have three : List.finRange 3 = [0, 1, 2] := rfl
  rw [length_eq_countP, Link.all, List.countP_append, direct, three]
  simp only [List.flatMap_cons, List.flatMap_nil, List.append_nil,
    @List.countP_append _ _ (_ ++ _), tabled]
  -- By the number of tables, the three minima are linear.
  have four : Layout.tablesNeeded n = 0 ∧ n ≤ 123 ∨ Layout.tablesNeeded n = 1 ∧ 123 < n ∧ n ≤ 250 ∨
      Layout.tablesNeeded n = 2 ∧ 250 < n ∧ n ≤ 377 ∨ Layout.tablesNeeded n = 3 ∧ 377 < n := by
    simp only [Layout.tablesNeeded, Layout.directCount, Layout.tableEntries]
    omega
  generalize Layout.tablesNeeded n = t at four ⊢
  rcases four with ⟨rfl, _⟩ | ⟨rfl, _⟩ | ⟨rfl, _⟩ | ⟨rfl, _⟩ <;> simp <;> omega

def full (n : Nat) : Links
  | .data p => if p.index < n then 1 else 0
  | .table b => if b.val < Layout.tablesNeeded n then 1 else 0

theorem filled_full (n : Nat) : (full n).Filled n where
  data p := by simp [full]
  table b := by simp [full]

/-- Links on the way to `n` data sectors, with at least one of them missing. -/
structure Unfilled (f : Links) (n : Nat) : Prop where
  within {l : Link} : f l ≠ 0 → l.Spans 0 n
  lacking : ∃ l, f l = 0 ∧ l.Spans 0 n

theorem Unfilled.length_sectors_lt {n : Nat} (h : f.Unfilled n) (small : n ≤ 504) :
    f.sectors.length < n + Layout.tablesNeeded n := by
  obtain ⟨l, absent, wanted⟩ := h.lacking
  have full_iff := filled_iff.mp (filled_full n)
  have added := (sectors_update absent (p := 1) (by decide)).length_eq
  have bound : (sectors (Function.update f l 1)).length ≤ (full n).sectors.length := by
    rw [length_eq_countP, length_eq_countP]
    refine List.countP_mono_left fun l' _ present => ?_
    simp only [decide_eq_true_eq] at present ⊢
    rw [full_iff]
    by_cases here : l' = l
    · exact here ▸ wanted
    · rw [Function.update_of_ne here] at present
      exact h.within present
  rw [added, List.length_cons, length_sectors (filled_full n) small] at bound
  exact bound

end Links

end InodeVolume
