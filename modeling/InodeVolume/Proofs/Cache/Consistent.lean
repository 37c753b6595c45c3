import InodeVolume.Cache.Basic
import InodeVolume.Proofs.Disk.Atomic

/-!
# Consistent caches

The index of a cache and its slots say the same, and a clean entry agrees with
its block. Then the cache has a content: for each sector the cached data, or
else the block of the device. Placing an entry changes the content at one
sector, and giving up a slot changes nothing.
-/

namespace InodeVolume

namespace Action

variable {σ β γ : Type}

theorem bind_ok {act : Action σ β} {next : β → Action σ γ} {s t : σ} {b : β}
    (done : act s = .ok b t) : (act >>= next) s = next b t := by
  change EStateM.bind act next s = _
  simp only [EStateM.bind, done]

theorem get_bind {next : σ → Action σ γ} {s : σ} : (get >>= next : Action σ γ) s = next s s := rfl

theorem modify_eq {change : σ → σ} {s : σ} :
    (modify change : Action σ Unit) s = .ok () (change s) := rfl

end Action

namespace Cache

variable {δ : Type}

def cached? (c : Cache δ) (s : Sector) : Option Block :=
  ((c.slotOf? s).bind c.entryAt).map Entry.data

/-- What a sector holds for those who read through the cache. -/
def content [Device δ] [LawfulDevice δ] (c : Cache δ) (s : Sector) : Block :=
  (c.cached? s).getD (LawfulDevice.content c.device s)

/-- The index maps the sectors of the entries to their slots, and nothing else. -/
structure Indexed (c : Cache δ) : Prop where
  slotOf?_iff {s : Sector} {slot : Nat} :
    c.slotOf? s = some slot ↔ ∃ e, c.entryAt slot = some e ∧ e.sector = s
  cursor_lt : c.cursor < c.capacity

structure Consistent [Device δ] [LawfulDevice δ] (c : Cache δ) : Prop extends c.Indexed where
  healthy : LawfulDevice.Healthy c.device
  within {slot : Nat} {e : Entry} :
    c.entryAt slot = some e → e.sector < Device.blockCount c.device
  clean {slot : Nat} {e : Entry} :
    c.entryAt slot = some e → e.dirty = false → LawfulDevice.content c.device e.sector = e.data

theorem entryAt_lt {c : Cache δ} {slot : Nat} {e : Entry} (used : c.entryAt slot = some e) :
    slot < c.capacity := by
  simp only [entryAt, Option.join_eq_some_iff] at used
  exact (Array.getElem?_eq_some_iff.mp used).1

theorem slotOf?_place (c : Cache δ) (slot : Nat) (e : Entry) (s : Sector) :
    (c.place slot e).slotOf? s = if e.sector = s then some slot else c.slotOf? s := by
  simp [slotOf?, place, Std.TreeMap.getElem?_insert]

theorem slotOf?_vacate (c : Cache δ) (slot : Nat) (t s : Sector) :
    (c.vacate slot t).slotOf? s = if t = s then none else c.slotOf? s := by
  simp [slotOf?, vacate, Std.TreeMap.getElem?_erase]

theorem entryAt_place (c : Cache δ) {slot : Nat} (inside : slot < c.capacity) (e : Entry)
    (j : Nat) : (c.place slot e).entryAt j = if slot = j then some e else c.entryAt j := by
  have inside : slot < c.slots.size := inside
  by_cases same : slot = j
  · subst same
    simp [entryAt, place, inside]
  · simp [entryAt, place, same]

theorem entryAt_vacate (c : Cache δ) (slot : Nat) (s : Sector) (j : Nat) :
    (c.vacate slot s).entryAt j = if slot = j then none else c.entryAt j := by
  by_cases same : slot = j
  · subst same
    by_cases inside : slot < c.slots.size
    · simp [entryAt, vacate, inside]
    · simp [entryAt, vacate, Nat.not_lt.mp inside]
  · simp [entryAt, vacate, same]

structure Fits (c : Cache δ) (slot : Nat) (s : Sector) : Prop where
  inside : slot < c.capacity
  alone {t : Sector} : c.slotOf? t = some slot → t = s
  nowhereElse {j : Nat} : c.slotOf? s = some j → j = slot

namespace Indexed

variable {c : Cache δ} {slot : Nat} {e : Entry}

theorem slotOf?_eq (h : c.Indexed) (used : c.entryAt slot = some e) :
    c.slotOf? e.sector = some slot := h.slotOf?_iff.mpr ⟨e, used, rfl⟩

theorem cached?_eq (h : c.Indexed) (used : c.entryAt slot = some e) :
    c.cached? e.sector = some e.data := by
  simp [cached?, h.slotOf?_eq used, used]

theorem cached?_eq_none_iff (h : c.Indexed) {s : Sector} :
    c.cached? s = none ↔ c.slotOf? s = none := by
  constructor
  · intro missing
    cases found : c.slotOf? s with
    | none => rfl
    | some slot =>
      obtain ⟨e, used, _⟩ := h.slotOf?_iff.mp found
      simp [cached?, found, used] at missing
  · intro missing
    simp [cached?, missing]

theorem fits_used (h : c.Indexed) {s : Sector} (found : c.slotOf? s = some slot) :
    c.Fits slot s := by
  obtain ⟨e, used, same⟩ := h.slotOf?_iff.mp found
  refine ⟨entryAt_lt used, ?_, ?_⟩
  · intro t other
    obtain ⟨e', used', same'⟩ := h.slotOf?_iff.mp other
    simp_all
  · intro j other
    simp_all

theorem fits_free (h : c.Indexed) {s : Sector} (inside : slot < c.capacity)
    (free : c.entryAt slot = none) (missing : c.slotOf? s = none) : c.Fits slot s := by
  refine ⟨inside, ?_, ?_⟩
  · intro t other
    obtain ⟨e', used', _⟩ := h.slotOf?_iff.mp other
    simp [free] at used'
  · intro j other
    simp [missing] at other

theorem place (h : c.Indexed) (fits : c.Fits slot e.sector) : (c.place slot e).Indexed where
  cursor_lt := by simpa [Cache.place, capacity] using h.cursor_lt
  slotOf?_iff {s j} := by
    rw [slotOf?_place, entryAt_place c fits.inside]
    by_cases own : e.sector = s
    · subst own
      by_cases here : slot = j
      · simp [here]
      · have elsewhere : c.slotOf? e.sector ≠ some j := fun found => here (fits.nowhereElse found).symm
        simpa [here, h.slotOf?_iff] using elsewhere
    · by_cases here : slot = j
      · subst here
        have taken : c.slotOf? s ≠ some slot := fun found => own (fits.alone found).symm
        simpa [own] using taken
      · simp [own, here, h.slotOf?_iff]

theorem vacate (h : c.Indexed) (used : c.entryAt slot = some e) :
    (c.vacate slot e.sector).Indexed where
  cursor_lt := by simpa [Cache.vacate, capacity] using h.cursor_lt
  slotOf?_iff {s j} := by
    rw [slotOf?_vacate, entryAt_vacate]
    by_cases own : e.sector = s
    · subst own
      by_cases here : slot = j
      · simp [here]
      · have elsewhere : c.slotOf? e.sector ≠ some j := by
          simpa [h.slotOf?_eq used] using here
        simpa [here, h.slotOf?_iff] using elsewhere
    · by_cases here : slot = j
      · subst here
        have taken : c.slotOf? s ≠ some slot := by
          rw [Ne, h.slotOf?_iff]
          simpa [used] using own
        simpa [own] using taken
      · simp [own, here, h.slotOf?_iff]

theorem cached?_place (h : c.Indexed) (fits : c.Fits slot e.sector) (s : Sector) :
    (c.place slot e).cached? s = if e.sector = s then some e.data else c.cached? s := by
  by_cases own : e.sector = s
  · subst own
    simpa using (h.place fits).cached?_eq (entryAt_place c fits.inside e slot |>.trans (if_pos rfl))
  · simp only [cached?, slotOf?_place, if_neg own]
    cases found : c.slotOf? s with
    | none => rfl
    | some j =>
      have apart : slot ≠ j := fun same => own (fits.alone (same ▸ found)).symm
      simp [entryAt_place c fits.inside, apart]

theorem cached?_vacate (h : c.Indexed) (used : c.entryAt slot = some e) (s : Sector) :
    (c.vacate slot e.sector).cached? s = if e.sector = s then none else c.cached? s := by
  by_cases own : e.sector = s
  · simp [cached?, slotOf?_vacate, own]
  · simp only [cached?, slotOf?_vacate, if_neg own]
    cases found : c.slotOf? s with
    | none => rfl
    | some j =>
      have apart : slot ≠ j := by
        rintro rfl
        obtain ⟨e', used', rfl⟩ := h.slotOf?_iff.mp found
        simp_all
      simp [entryAt_vacate, apart]

theorem size_lt (h : c.Indexed) (inside : slot < c.capacity) (free : c.entryAt slot = none) :
    c.index.size < c.capacity := by
  have slots_nodup : (c.index.toList.map Prod.snd).Nodup := by
    rw [List.Nodup, List.pairwise_map]
    refine List.Pairwise.imp_of_mem ?_ Std.TreeMap.distinct_keys_toList
    rintro ⟨s, i⟩ ⟨t, j⟩ left right apart rfl
    have left := Std.TreeMap.mem_toList_iff_getElem?_eq_some.mp left
    have right := Std.TreeMap.mem_toList_iff_getElem?_eq_some.mp right
    obtain ⟨e, used, rfl⟩ := h.slotOf?_iff.mp left
    obtain ⟨e', used', rfl⟩ := h.slotOf?_iff.mp right
    simp_all
  have slots_used : (c.index.toList.map Prod.snd).toFinset ⊆ (Finset.range c.capacity).erase slot := by
    intro j member
    simp only [List.mem_toFinset, List.mem_map, Prod.exists, exists_eq_right] at member
    obtain ⟨s, member⟩ := member
    obtain ⟨e, used, rfl⟩ := h.slotOf?_iff.mp (Std.TreeMap.mem_toList_iff_getElem?_eq_some.mp member)
    refine Finset.mem_erase.mpr ⟨?_, Finset.mem_range.mpr (entryAt_lt used)⟩
    rintro rfl
    simp [free] at used
  have counted := Finset.card_le_card slots_used
  rw [List.toFinset_card_of_nodup slots_nodup, List.length_map, Std.TreeMap.length_toList,
    Finset.card_erase_of_mem (Finset.mem_range.mpr inside), Finset.card_range] at counted
  omega

end Indexed

/-- What giving up a slot in use keeps up, draining the cache keeps up. -/
theorem ends_drain [Device δ] {c : Cache δ} {inv : Cache δ → Prop} {stop : Fault → Cache δ → Prop}
    (step : ∀ {c slot e}, inv c → c.entryAt slot = some e → (evict slot).Ends c (fun _ => inv) stop)
    (start : inv c) : drain.Ends c (fun _ => inv) stop := by
  apply Action.ends_get_bind.mpr
  refine Action.ends_forM (fun slot c' holds => ?_) start
  apply Action.ends_get_bind.mpr
  cases used : c'.entryAt slot with
  | none => exact holds
  | some e => exact step holds used

end Cache

end InodeVolume
