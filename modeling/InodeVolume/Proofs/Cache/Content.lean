import InodeVolume.Proofs.Cache.Coherent

/-!
# Content through a cache

What each operation does to the content of a consistent cache over a healthy
device: a write replaces one sector, every other operation keeps the content,
whatever it evicts on the way. Afterwards a flushed sector is on the device, and
after a drain all are.
-/

namespace InodeVolume

namespace Cache

variable {δ : Type} [Device δ] [LawfulDevice δ]

/-- What stays the same in an operation that only moves data between slots and device. -/
structure Kept (c c' : Cache δ) : Prop where
  consistent : c'.Consistent
  content : c'.content = c.content
  capacity : c'.capacity = c.capacity
  blockCount : Device.blockCount c'.device = Device.blockCount c.device

theorem Kept.refl {c : Cache δ} (h : c.Consistent) : Kept c c := ⟨h, rfl, rfl, rfl⟩

theorem Kept.trans {c c' c'' : Cache δ} (first : Kept c c') (second : Kept c' c'') : Kept c c'' where
  consistent := second.consistent
  content := second.content.trans first.content
  capacity := second.capacity.trans first.capacity
  blockCount := second.blockCount.trans first.blockCount

theorem Consistent.coherent {c : Cache δ} (h : c.Consistent) : c.Coherent := ⟨h.toIndexed, h.clean⟩

theorem Preserved.kept {c c' : Cache δ} (h : Preserved c c')
    (healthy : LawfulDevice.Healthy c'.device)
    (count : Device.blockCount c'.device = Device.blockCount c.device)
    (within : ∀ {slot : Nat} {e : Entry}, c'.entryAt slot = some e →
      e.sector < Device.blockCount c.device) : Kept c c' where
  consistent := {
    toIndexed := h.coherent.toIndexed
    healthy := healthy
    within := fun used => count ▸ within used
    clean := h.coherent.clean }
  content := h.content
  capacity := h.capacity
  blockCount := count

theorem Consistent.place {c : Cache δ} (h : c.Consistent) {slot : Nat} {e : Entry}
    (fits : c.Fits slot e.sector) (inside : e.sector < Device.blockCount c.device)
    (clean : e.dirty = false → LawfulDevice.content c.device e.sector = e.data) :
    (c.place slot e).Consistent where
  toIndexed := h.toIndexed.place fits
  healthy := h.healthy
  within {j e'} used := by
    rw [entryAt_place c fits.inside] at used
    split at used
    · cases used
      exact inside
    · exact h.within used
  clean := (h.coherent.place fits clean).clean

theorem Consistent.vacate {c : Cache δ} (h : c.Consistent) {slot : Nat} {e : Entry}
    (used : c.entryAt slot = some e)
    (saved : LawfulDevice.content c.device e.sector = e.data) :
    Kept c (c.vacate slot e.sector) := by
  apply (h.coherent.vacate used saved).kept h.healthy rfl
  intro j e' used'
  rw [entryAt_vacate] at used'
  split at used'
  · cases used'
  · exact h.within used'

theorem Consistent.saved {c : Cache δ} (h : c.Consistent) {slot : Nat} {e : Entry}
    (used : c.entryAt slot = some e) {device : δ} (healthy : LawfulDevice.Healthy device)
    (count : Device.blockCount device = Device.blockCount c.device)
    (saved : LawfulDevice.content device =
      Function.update (LawfulDevice.content c.device) e.sector e.data) :
    Kept c { c with device } :=
  (h.coherent.saved used saved).kept healthy count h.within

structure Evicted (c c' : Cache δ) (slot : Nat) (e : Entry) : Prop extends Kept c c' where
  slotOf? (s : Sector) : c'.slotOf? s = if e.sector = s then none else c.slotOf? s
  entryAt (j : Nat) : c'.entryAt j = if slot = j then none else c.entryAt j
  onDevice : LawfulDevice.content c'.device e.sector = e.data

theorem evict_eq {c : Cache δ} (h : c.Consistent) {slot : Nat} {e : Entry}
    (used : c.entryAt slot = some e) : ∃ c', evict slot c = .ok () c' ∧ Evicted c c' slot e := by
  have opened : evict slot c =
      (do
        if e.dirty then onDevice (Device.writeBlock e.sector e.data)
        modify fun c => c.vacate slot e.sector : Action (Cache δ) Unit) c := by
    simp only [evict, Action.get_bind, used]
  rw [opened]
  cases dirty : e.dirty with
  | false =>
    have kept := h.vacate used (h.clean used dirty)
    refine ⟨_, rfl, kept, slotOf?_vacate c slot e.sector, entryAt_vacate c slot e.sector, ?_⟩
    exact h.clean used dirty
  | true =>
    obtain ⟨device, done, healthy, count, saved⟩ :=
      LawfulDevice.writeBlock_eq e.data h.healthy (h.within used)
    have kept := h.saved used healthy count saved
    have onBlock : LawfulDevice.content device e.sector = e.data := by
      rw [saved, Function.update_self]
    refine ⟨{ c with device }.vacate slot e.sector, ?_,
      kept.trans (kept.consistent.vacate used onBlock), slotOf?_vacate _ slot e.sector,
      entryAt_vacate _ slot e.sector, onBlock⟩
    have written : (onDevice (Device.writeBlock e.sector e.data) : Action (Cache δ) Unit) c =
        .ok () { c with device } := by
      simp only [onDevice, Action.onPart, done]
    simp only [if_true, Action.bind_ok written, Action.modify_eq]

/-- A slot to put a missing sector in; whatever has to go for it goes to the device. -/
theorem freeSlot_eq {c : Cache δ} (h : c.Consistent) {s : Sector} (missing : c.slotOf? s = none) :
    ∃ slot c', freeSlot c = .ok slot c' ∧ Kept c c' ∧ c'.Fits slot s ∧ c'.slotOf? s = none := by
  cases found : c.vacancy with
  | some slot =>
    obtain ⟨inside, free⟩ := Indexed.vacancy_free found
    exact ⟨slot, c, freeSlot_of_vacancy found, .refl h, h.fits_free inside free missing, missing⟩
  | none =>
    have moved : Kept c { c with cursor := (c.cursor + 1) % c.capacity } :=
      h.coherent.advance.kept h.healthy rfl h.within
    obtain ⟨e, used⟩ := h.victim_used found
    obtain ⟨c', done, evicted⟩ := evict_eq moved.consistent used
    have gone : c'.slotOf? s = none := by
      rw [evicted.slotOf?]
      split
      · rfl
      · exact missing
    refine ⟨c.cursor, c', ?_, moved.trans evicted.toKept, ?_, gone⟩
    · rw [freeSlot_of_full found, Action.bind_ok done]
      rfl
    · refine evicted.consistent.fits_free ?_ ?_ gone
      · rw [evicted.capacity]
        exact h.cursor_lt
      · rw [evicted.entryAt, if_pos rfl]

theorem fetch_eq {c : Cache δ} (h : c.Consistent) {s : Sector}
    (inside : s < Device.blockCount c.device) :
    ∃ c', fetch s c = .ok (c.content s) c' ∧ Kept c c' := by
  cases found : c.slotOf? s with
  | some slot =>
    obtain ⟨e, used, rfl⟩ := h.slotOf?_iff.mp found
    refine ⟨c, ?_, .refl h⟩
    rw [content_of_entry h.toIndexed used]
    simp only [fetch, Action.get_bind, found, used]
    rfl
  | none =>
    obtain ⟨slot, middle, claimed, kept, fits, missing⟩ := freeSlot_eq h found
    have inside : s < Device.blockCount middle.device := kept.blockCount ▸ inside
    obtain ⟨device, done, healthy, count, same⟩ :=
      LawfulDevice.readBlock_eq kept.consistent.healthy inside
    have data : LawfulDevice.content middle.device s = c.content s := by
      rw [← content_of_missing kept.consistent.toIndexed missing, kept.content]
    have loaded : Kept middle { middle with device } :=
      (kept.consistent.coherent.withDevice_same same).kept healthy count kept.consistent.within
    have agrees : LawfulDevice.content device s = c.content s := same ▸ data
    refine ⟨({ middle with device } : Cache δ).place slot ⟨s, false, c.content s⟩, ?_, ?_⟩
    · have read : (onDevice (Device.readBlock s) : Action (Cache δ) Block) middle =
          .ok (c.content s) { middle with device } := by
        simp only [onDevice, Action.onPart, done, data]
      simp only [fetch, Action.get_bind, found]
      rw [Action.bind_ok claimed, Action.bind_ok read]
      rfl
    · have placed : ({ middle with device } : Cache δ).Fits slot s :=
        ⟨fits.inside, fits.alone, fits.nowhereElse⟩
      refine kept.trans (loaded.trans ⟨?_, ?_, ?_, rfl⟩)
      · exact loaded.consistent.place placed (count ▸ inside) fun _ => agrees
      · rw [content_place loaded.consistent.toIndexed placed, loaded.content, kept.content]
        exact Function.update_eq_self s c.content
      · simp [place, capacity]

theorem read_eq {c : Cache δ} (h : c.Consistent) {s : Sector}
    (inside : s < Device.blockCount c.device) :
    ∃ c', read s c = .ok (c.content s) c' ∧ Kept c c' := by
  obtain ⟨c', done, kept⟩ := fetch_eq h inside
  have next : s.add? 1 = .ok (s + 1) := by
    have bounded := LawfulDevice.blockCount_lt h.healthy
    have below : s + 1 < Sector.limit := Nat.lt_of_le_of_lt inside bounded
    simp only [Sector.add?, if_pos below]
  refine ⟨{ c' with lookahead := c'.lookahead.expect (s + 1) }, ?_, ?_⟩
  · rw [read, Action.bind_ok done]
    have expected : (Action.ofExcept (s.add? 1) : Action (Cache δ) Sector) c' = .ok (s + 1) c' := by
      simp only [Action.ofExcept, next]
    rw [Action.bind_ok expected]
    rfl
  · have expecting := kept.consistent.coherent.withLookahead (c'.lookahead.expect (s + 1))
    exact kept.trans (expecting.kept kept.consistent.healthy rfl kept.consistent.within)

structure Written (c c' : Cache δ) (s : Sector) (data : Block) : Prop where
  consistent : c'.Consistent
  content : c'.content = Function.update c.content s data
  capacity : c'.capacity = c.capacity
  blockCount : Device.blockCount c'.device = Device.blockCount c.device

theorem write_eq {c : Cache δ} (h : c.Consistent) {s : Sector}
    (inside : s < Device.blockCount c.device) (data : Block) :
    ∃ c', write s data c = .ok () c' ∧ Written c c' s data := by
  have installed {middle : Cache δ} (kept : Kept c middle) {slot : Nat} (fits : middle.Fits slot s) :
      Written c (middle.place slot ⟨s, true, data⟩) s data := by
    refine ⟨kept.consistent.place fits (kept.blockCount ▸ inside) (fun clean => by cases clean), ?_, ?_,
      kept.blockCount⟩
    · rw [content_place kept.consistent.toIndexed fits, kept.content]
    · simpa [place, capacity] using kept.capacity
  cases found : c.slotOf? s with
  | some slot =>
    refine ⟨c.place slot ⟨s, true, data⟩, ?_, installed (.refl h) (h.fits_used found)⟩
    simp only [write, Action.get_bind, found]
    rfl
  | none =>
    obtain ⟨slot, middle, claimed, kept, fits, _⟩ := freeSlot_eq h found
    refine ⟨middle.place slot ⟨s, true, data⟩, ?_, installed kept fits⟩
    simp only [write, Action.get_bind, found]
    rw [Action.bind_ok claimed]
    rfl

theorem flush_eq {c : Cache δ} (h : c.Consistent) (s : Sector) :
    ∃ c', flush s c = .ok () c' ∧ Kept c c' ∧ c'.slotOf? s = none ∧
      LawfulDevice.content c'.device s = c.content s := by
  cases found : c.slotOf? s with
  | none =>
    refine ⟨c, ?_, .refl h, found, (content_of_missing h.toIndexed found).symm⟩
    simp only [flush, Action.get_bind, found]
    rfl
  | some slot =>
    obtain ⟨e, used, rfl⟩ := h.slotOf?_iff.mp found
    obtain ⟨c', done, evicted⟩ := evict_eq h used
    refine ⟨c', ?_, evicted.toKept, ?_, ?_⟩
    · simp only [flush, Action.get_bind, found]
      exact done
    · rw [evicted.slotOf?, if_pos rfl]
    · rw [evicted.onDevice, content_of_entry h.toIndexed used]

theorem evictAll_eq {c : Cache δ} (h : c.Consistent) (slots : List Nat) :
    ∃ c', (slots.forM fun slot => do
        if ((← get).entryAt slot).isSome then evict slot : Action (Cache δ) Unit) c = .ok () c' ∧
      Kept c c' ∧ ∀ j, c'.entryAt j = if j ∈ slots then none else c.entryAt j := by
  induction slots generalizing c with
  | nil => exact ⟨c, rfl, .refl h, by simp⟩
  | cons slot rest ih =>
    obtain ⟨middle, done, kept, emptied⟩ : ∃ c', (do
        if ((← get).entryAt slot).isSome then evict slot : Action (Cache δ) Unit) c = .ok () c' ∧
        Kept c c' ∧ ∀ j, c'.entryAt j = if slot = j then none else c.entryAt j := by
      cases used : c.entryAt slot with
      | none =>
        refine ⟨c, ?_, .refl h, ?_⟩
        · simp only [Action.get_bind, used]
          rfl
        · intro j
          split
          · simp_all
          · rfl
      | some e =>
        obtain ⟨c', done, evicted⟩ := evict_eq h used
        refine ⟨c', ?_, evicted.toKept, evicted.entryAt⟩
        simp only [Action.get_bind, used, Option.isSome_some, if_true]
        exact done
    obtain ⟨c', rest_done, rest_kept, rest_emptied⟩ := ih kept.consistent
    refine ⟨c', ?_, kept.trans rest_kept, ?_⟩
    · exact (Action.bind_ok done).trans rest_done
    · intro j
      rw [rest_emptied, emptied]
      grind

theorem drain_eq {c : Cache δ} (h : c.Consistent) :
    ∃ c', drain c = .ok () c' ∧ Kept c c' ∧ (∀ s, c'.slotOf? s = none) ∧
      LawfulDevice.content c'.device = c.content := by
  obtain ⟨c', done, kept, emptied⟩ := evictAll_eq h (List.range c.capacity)
  have missing (s : Sector) : c'.slotOf? s = none := by
    cases found : c'.slotOf? s with
    | none => rfl
    | some slot =>
      obtain ⟨e, used, _⟩ := kept.consistent.slotOf?_iff.mp found
      have inside : slot < c.capacity := kept.capacity ▸ entryAt_lt used
      rw [emptied, if_pos (List.mem_range.mpr inside)] at used
      cases used
  refine ⟨c', done, kept, missing, ?_⟩
  rw [← kept.content]
  exact funext fun s => (content_of_missing kept.consistent.toIndexed (missing s)).symm

theorem prefetch_eq {c : Cache δ} (h : c.Consistent) (s : Sector) :
    ∃ c', prefetch s c = .ok () c' ∧ Kept c c' := by
  by_cases inside : s < Device.blockCount c.device
  · obtain ⟨c', done, kept⟩ := fetch_eq h inside
    refine ⟨c', ?_, kept⟩
    simp only [prefetch, Action.get_bind, if_pos inside]
    rw [Action.bind_ok done]
    rfl
  · refine ⟨c, ?_, .refl h⟩
    simp only [prefetch, Action.get_bind, if_neg inside]
    rfl

/-- A new cache shows what is on the device. -/
theorem new_eq {device : δ} (healthy : LawfulDevice.Healthy device) {capacity : Nat}
    (positive : 0 < capacity) :
    ∃ c, new device capacity = .ok c ∧ c.Consistent ∧ c.content = LawfulDevice.content device ∧
      c.capacity = capacity ∧ c.device = device := by
  obtain ⟨c, made, coherent, free, shows, same, rfl⟩ := new_coherent device positive
  refine ⟨c, made, ⟨coherent.toIndexed, healthy, ?_, coherent.clean⟩, shows, same, rfl⟩
  intro slot e used
  rw [free] at used
  cases used

end Cache

end InodeVolume
