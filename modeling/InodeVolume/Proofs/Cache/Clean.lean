import InodeVolume.Proofs.Cache.Consistent
import InodeVolume.Proofs.Disk.Atomic
import InodeVolume.Proofs.Volume.Reads

/-!
# Clean caches

A cache without a dirty entry writes nothing when slots are given up, and reading makes no entry
dirty. So whatever is only read through it, in whatever order and with whatever result, and whatever
the device refuses: the device comes to no other state than by being read.
-/

namespace InodeVolume

/-- To read a block, or to be refused one, keeps what `P` says of the device. -/
def Device.ReadKeeps {δ : Type} [Device δ] (P : δ → Prop) : Prop :=
  ∀ n d, P d → (Device.readBlock n).Ends d (fun _ d' => P d') fun _ d' => P d'

namespace Cache

variable {δ : Type} {P : δ → Prop} {c : Cache δ} {slot : Nat}

structure Clean (P : δ → Prop) (c : Cache δ) : Prop where
  device : P c.device
  clean {slot : Nat} {e : Entry} : c.entryAt slot = some e → e.dirty = false

theorem clean_of_new {device : δ} {capacity : Nat} (holds : P device)
    (made : new device capacity = .ok c) : c.Clean P := by
  unfold new at made
  split at made
  · cases made
  · cases made
    refine ⟨holds, fun {slot e} used => ?_⟩
    simp only [entryAt, Array.getElem?_replicate] at used
    split at used <;> cases used

namespace Clean

theorem vacate (h : c.Clean P) (slot : Nat) (s : Sector) : (c.vacate slot s).Clean P where
  device := h.device
  clean {j e} used := by
    rw [entryAt_vacate] at used
    split at used
    · cases used
    · exact h.clean used

theorem place (h : c.Clean P) (slot : Nat) (s : Sector) (data : Block) :
    (c.place slot ⟨s, false, data⟩).Clean P where
  device := h.device
  clean {j e} used := by
    by_cases inside : slot < c.capacity
    · rw [entryAt_place c inside] at used
      split at used
      · cases used
        rfl
      · exact h.clean used
    · -- outside the slots nothing is placed
      have past : c.slots.size ≤ slot := Nat.le_of_not_lt inside
      apply h.clean
      simpa only [entryAt, Cache.place, Array.setIfInBounds_eq_of_size_le past] using used

end Clean

variable [Device δ]

theorem evict_clean (h : c.Clean P) (slot : Nat) :
    (evict slot).Ends c (fun _ c' => c'.Clean P) fun _ c' => c'.Clean P := by
  unfold evict
  apply Action.ends_get_bind.mpr
  cases used : c.entryAt slot with
  | none => exact h
  | some e =>
    simp only [h.clean used]
    exact h.vacate slot e.sector

theorem freeSlot_clean (h : c.Clean P) :
    freeSlot.Ends c (fun _ c' => c'.Clean P) fun _ c' => c'.Clean P := by
  unfold freeSlot
  apply Action.ends_get_bind.mpr
  split
  · exact h
  · have moved : Clean P { c with cursor := (c.cursor + 1) % c.capacity } := ⟨h.device, h.clean⟩
    apply Action.ends_set_bind.mpr
    apply Action.ends_bind.mpr
    exact evict_clean moved c.cursor

variable (keeps : Device.ReadKeeps P)

include keeps in
theorem fetch_clean (h : c.Clean P) (s : Sector) :
    (fetch s).Ends c (fun _ c' => c'.Clean P) fun _ c' => c'.Clean P := by
  unfold fetch
  apply Action.ends_get_bind.mpr
  split
  · split
    · exact h
    · exact h
  · apply Action.ends_bind.mpr
    apply (freeSlot_clean h).mono
    · intro slot c₁ clean
      apply Action.ends_bind.mpr
      apply Action.ends_onPart.mpr
      apply (keeps s c₁.device clean.device).mono
      · intro data device holds
        have loaded : Clean P { c₁ with device } := ⟨holds, clean.clean⟩
        exact loaded.place slot s data
      · exact fun _ _ holds => ⟨holds, clean.clean⟩
    · exact fun _ _ => id

include keeps in
theorem read_clean (h : c.Clean P) (s : Sector) :
    (read s).Ends c (fun _ c' => c'.Clean P) fun _ c' => c'.Clean P := by
  unfold read
  apply Action.ends_bind.mpr
  apply (fetch_clean keeps h s).mono
  · intro data c₁ clean
    apply Action.ends_bind.mpr
    unfold Action.ofExcept Action.Ends
    cases Sector.add? s 1 with
    | error f => exact clean
    | ok next => exact ⟨clean.device, clean.clean⟩
  · exact fun _ _ => id

theorem drain_clean (h : c.Clean P) :
    drain.Ends c (fun _ c' => c'.Clean P) fun _ c' => c'.Clean P :=
  ends_drain (fun clean _ => evict_clean clean _) h

end Cache

namespace Volume

variable {δ α β : Type} [Device δ] {P : δ → Prop} {v : Volume δ α}

/-- The device of a clean cache that is given up is as reading has left it. -/
theorem device_unmount (h : v.cache.Clean P) : P v.unmount := by
  have drained : (onCache Cache.drain).Ends v (fun _ w => w.cache.Clean P)
      fun _ w => w.cache.Clean P := Action.ends_onPart.mpr (Cache.drain_clean h)
  unfold unmount
  cases ended : onCache Cache.drain v with
  | ok _ w => exact (drained.ok ended).device
  | error _ w => exact (drained.error ended).device

variable [Allocator α]

/-- A program that only reads leaves the cache clean, and does not come near the allocator. -/
theorem perform_clean (keeps : Device.ReadKeeps P) {p : Program β} (reads : p.Reads)
    (h : v.cache.Clean P) : (perform p).Ends v
      (fun _ w => w.cache.Clean P ∧ w.allocator = v.allocator)
      fun _ w => w.cache.Clean P ∧ w.allocator = v.allocator := by
  induction p generalizing v with
  | done b => exact ⟨h, rfl⟩
  | fault f => exact ⟨h, rfl⟩
  | ask r next ih =>
    obtain ⟨asked, rest⟩ := Program.reads_ask.mp reads
    cases r with
    | read s =>
      apply Action.ends_bind.mpr
      apply Action.ends_onPart.mpr
      apply (Cache.read_clean keeps h s).mono
      · intro data c clean
        exact ih data (rest data) (v := { v with cache := c }) clean
      · exact fun _ _ clean => ⟨clean, rfl⟩
    | write | allocate | release => exact asked.elim

end Volume

end InodeVolume
