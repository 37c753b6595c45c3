import InodeVolume.Proofs.Cache.Consistent

/-!
# Coherent caches

In a coherent cache the index is right about the slots, and a clean entry has the
data of its block. Nothing is asked of the device: it may be broken. Giving up an
entry that its block agrees with, or writing one back, keeps the content of every
sector.
-/

namespace InodeVolume

namespace Cache

variable {δ : Type}

/-- The lowest free slot. When there is none, the slot under the cursor has to go. -/
def vacancy (c : Cache δ) : Option Nat :=
  if c.index.size < c.capacity then c.slots.findIdx? Option.isNone else none

namespace Indexed

variable {c : Cache δ} {slot : Nat}

theorem vacancy_free (found : c.vacancy = some slot) :
    slot < c.capacity ∧ c.entryAt slot = none := by
  have free : c.slots.findIdx? Option.isNone = some slot := by
    unfold vacancy at found
    split at found
    · exact found
    · cases found
  obtain ⟨inside, none, _⟩ := Array.findIdx?_eq_some_iff_getElem.mp free
  exact ⟨inside, by simpa [entryAt, inside] using none⟩

theorem entryAt_of_full (h : c.Indexed) (full : c.vacancy = none) (inside : slot < c.capacity) :
    ∃ e, c.entryAt slot = some e := by
  apply Option.ne_none_iff_exists'.mp
  intro free
  rw [vacancy, if_pos (h.size_lt inside free), Array.findIdx?_eq_none_iff] at full
  have inside : slot < c.slots.size := inside
  have used := full c.slots[slot] (Array.getElem_mem inside)
  simp [entryAt, inside] at free
  simp [free] at used

theorem victim_used (h : c.Indexed) (full : c.vacancy = none) : ∃ e, c.entryAt c.cursor = some e :=
  h.entryAt_of_full full h.cursor_lt

theorem capacity_pos (h : c.Indexed) : 0 < c.capacity :=
  Nat.lt_of_le_of_lt (Nat.zero_le _) h.cursor_lt

theorem advance (h : c.Indexed) : Indexed { c with cursor := (c.cursor + 1) % c.capacity } :=
  ⟨h.slotOf?_iff, Nat.mod_lt _ h.capacity_pos⟩

end Indexed

theorem positive_of_new {device : δ} {capacity : Nat} {c : Cache δ}
    (made : new device capacity = .ok c) : 0 < capacity := by
  apply Nat.pos_of_ne_zero
  rintro rfl
  cases made

variable [Device δ]

theorem freeSlot_of_vacancy {c : Cache δ} {slot : Nat} (found : c.vacancy = some slot) :
    freeSlot c = .ok slot c := by
  unfold vacancy at found
  simp only [freeSlot, Action.get_bind, found]
  rfl

theorem freeSlot_of_full {c : Cache δ} (full : c.vacancy = none) :
    freeSlot c = (do
      evict c.cursor
      return c.cursor : Action (Cache δ) Nat) { c with cursor := (c.cursor + 1) % c.capacity } := by
  unfold vacancy at full
  simp only [freeSlot, Action.get_bind, full]
  rfl

variable [LawfulDevice δ]

theorem content_of_entry {c : Cache δ} (h : c.Indexed) {slot : Nat} {e : Entry}
    (used : c.entryAt slot = some e) : c.content e.sector = e.data := by
  simp [content, h.cached?_eq used]

theorem content_of_missing {c : Cache δ} (h : c.Indexed) {s : Sector}
    (missing : c.slotOf? s = none) : c.content s = LawfulDevice.content c.device s := by
  simp [content, h.cached?_eq_none_iff.mpr missing]

theorem content_place {c : Cache δ} (h : c.Indexed) {slot : Nat} {e : Entry}
    (fits : c.Fits slot e.sector) :
    (c.place slot e).content = Function.update c.content e.sector e.data := by
  funext s
  rw [content, h.cached?_place fits]
  by_cases own : e.sector = s
  · subst own
    simp
  · rw [if_neg own, Function.update_of_ne (Ne.symm own)]
    rfl

structure Coherent (c : Cache δ) : Prop extends c.Indexed where
  clean {slot : Nat} {e : Entry} :
    c.entryAt slot = some e → e.dirty = false → LawfulDevice.content c.device e.sector = e.data

/-- What stays the same when data only moves between the slots and the device. -/
structure Preserved (c c' : Cache δ) : Prop where
  coherent : c'.Coherent
  content : c'.content = c.content
  capacity : c'.capacity = c.capacity

theorem Preserved.refl {c : Cache δ} (h : c.Coherent) : Preserved c c := ⟨h, rfl, rfl⟩

theorem Preserved.trans {c c' c'' : Cache δ} (first : Preserved c c') (second : Preserved c' c'') :
    Preserved c c'' where
  coherent := second.coherent
  content := second.content.trans first.content
  capacity := second.capacity.trans first.capacity

namespace Coherent

variable {c : Cache δ} {slot : Nat} {e : Entry}

theorem place (h : c.Coherent) (fits : c.Fits slot e.sector)
    (clean : e.dirty = false → LawfulDevice.content c.device e.sector = e.data) :
    (c.place slot e).Coherent where
  toIndexed := h.toIndexed.place fits
  clean {j e'} used unchanged := by
    rw [entryAt_place c fits.inside] at used
    split at used
    · cases used
      exact clean unchanged
    · exact h.clean used unchanged

theorem vacate (h : c.Coherent) (used : c.entryAt slot = some e)
    (saved : LawfulDevice.content c.device e.sector = e.data) :
    Preserved c (c.vacate slot e.sector) where
  coherent := {
    toIndexed := h.toIndexed.vacate used
    clean := by
      intro j e' used'
      rw [entryAt_vacate] at used'
      split at used'
      · cases used'
      · exact h.clean used' }
  content := by
    funext s
    rw [content, h.toIndexed.cached?_vacate used]
    by_cases own : e.sector = s
    · subst own
      rw [content_of_entry h.toIndexed used]
      simpa [Cache.vacate] using saved
    · rw [if_neg own]
      rfl
  capacity := by simp [Cache.vacate, Cache.capacity]

/-- The cache over a device whose blocks agree with the clean entries and have not changed
for the sectors that are not cached. -/
theorem withDevice (h : c.Coherent) {device : δ}
    (clean : ∀ {j : Nat} {e' : Entry}, c.entryAt j = some e' → e'.dirty = false →
      LawfulDevice.content device e'.sector = e'.data)
    (uncached : ∀ s, c.slotOf? s = none →
      LawfulDevice.content device s = LawfulDevice.content c.device s) :
    Preserved c { c with device } where
  coherent := ⟨⟨h.slotOf?_iff, h.cursor_lt⟩, clean⟩
  content := by
    have same : Indexed { c with device } := ⟨h.slotOf?_iff, h.cursor_lt⟩
    funext s
    cases found : c.slotOf? s with
    | some j =>
      obtain ⟨e', used', rfl⟩ := h.slotOf?_iff.mp found
      rw [content_of_entry h.toIndexed used']
      exact content_of_entry same used'
    | none =>
      rw [content_of_missing h.toIndexed found, ← uncached s found]
      exact content_of_missing same found
  capacity := rfl

theorem withDevice_same (h : c.Coherent) {device : δ}
    (same : LawfulDevice.content device = LawfulDevice.content c.device) :
    Preserved c { c with device } := by
  refine h.withDevice ?_ fun s _ => congrFun same s
  intro j e' used' unchanged
  rw [same]
  exact h.clean used' unchanged

theorem saved (h : c.Coherent) (used : c.entryAt slot = some e) {device : δ}
    (saved : LawfulDevice.content device =
      Function.update (LawfulDevice.content c.device) e.sector e.data) :
    Preserved c { c with device } := by
  apply h.withDevice
  · intro j e' used' unchanged
    rw [saved]
    by_cases own : e'.sector = e.sector
    · have same : c.slotOf? e.sector = some j := own ▸ h.slotOf?_eq used'
      rw [h.slotOf?_eq used, Option.some.injEq] at same
      subst same
      rw [own, Function.update_self]
      exact Option.some.inj (congrArg (Option.map Entry.data) (used.symm.trans used'))
    · rw [Function.update_of_ne own]
      exact h.clean used' unchanged
  · intro s missing
    have other : s ≠ e.sector := by
      rintro rfl
      rw [h.slotOf?_eq used] at missing
      cases missing
    rw [saved, Function.update_of_ne other]

theorem advance (h : c.Coherent) :
    Preserved c { c with cursor := (c.cursor + 1) % c.capacity } :=
  ⟨⟨h.toIndexed.advance, h.clean⟩, rfl, rfl⟩

theorem withLookahead (h : c.Coherent) (lookahead : Lookahead) :
    Preserved c { c with lookahead } :=
  ⟨⟨⟨h.slotOf?_iff, h.cursor_lt⟩, h.clean⟩, rfl, rfl⟩

end Coherent

/-- A new cache is empty and shows what is on its device. -/
theorem new_coherent (device : δ) {capacity : Nat} (positive : 0 < capacity) :
    ∃ c, new device capacity = .ok c ∧ c.Coherent ∧ (∀ slot, c.entryAt slot = none) ∧
      c.content = LawfulDevice.content device ∧ c.capacity = capacity ∧ c.device = device := by
  let c : Cache δ := { device, slots := Array.replicate capacity none, index := ∅ }
  have free (slot : Nat) : c.entryAt slot = none := by
    simp only [c, entryAt, Array.getElem?_replicate]
    split <;> rfl
  have missing (s : Sector) : c.slotOf? s = none := by
    simp [c, slotOf?]
  have indexed : c.Indexed := by
    constructor
    · intro s slot
      simp [missing, free]
    · simpa [c, Cache.capacity] using positive
  refine ⟨c, ?_, ⟨indexed, ?_⟩, free, ?_, ?_, rfl⟩
  · simp only [new, if_neg (Nat.ne_of_gt positive), c]
  · intro slot e used
    rw [free] at used
    cases used
  · exact funext fun s => content_of_missing indexed (missing s)
  · simp [c, Cache.capacity]

end Cache

end InodeVolume
