import InodeVolume.Proofs.Cache.FlatArray
import InodeVolume.Proofs.Disk.Atomic

/-!
# Caches over devices that refuse transfers

The device may refuse any transfer at any moment, and whoever uses the cache goes
on after it. An operation that is refused a transfer stops half done: the cursor
has moved, a slot was given up for nothing, or some slots were drained and some
not. None of this loses data. Entries may have gone from the slots, but only after
their blocks came to agree with them, and no new entry has come.
-/

namespace InodeVolume

namespace Cache

variable {δ : Type} [Device δ] [LawfulDevice δ]

/-- What holds between any two operations. -/
structure InOrder (c : Cache δ) (capacity : Nat) : Prop where
  capacity : c.capacity = capacity
  slotOf?_iff {s : Sector} {slot : Nat} :
    c.slotOf? s = some slot ↔ ∃ e, c.entryAt slot = some e ∧ e.sector = s
  distinct {i j : Nat} {e e' : Entry} :
    c.entryAt i = some e → c.entryAt j = some e' → e.sector = e'.sector → i = j
  /-- Dirty data is found by its sector, and is what the sector holds. -/
  dirty {slot : Nat} {e : Entry} : c.entryAt slot = some e → e.dirty = true →
    c.slotOf? e.sector = some slot ∧ c.content e.sector = e.data
  cursor_lt : c.cursor < c.capacity
  victim_used : c.vacancy = none → ∃ e, c.entryAt c.cursor = some e

theorem Coherent.inOrder {c : Cache δ} (h : c.Coherent) : c.InOrder c.capacity where
  capacity := rfl
  slotOf?_iff := h.slotOf?_iff
  distinct {i j e e'} used used' same := by
    have here := h.slotOf?_eq used
    rw [same, h.slotOf?_eq used', Option.some.injEq] at here
    exact here.symm
  dirty used _ := ⟨h.slotOf?_eq used, content_of_entry h.toIndexed used⟩
  cursor_lt := h.cursor_lt
  victim_used := h.victim_used

structure Receded (c c' : Cache δ) : Prop extends Preserved c c' where
  entryAt {slot : Nat} {e : Entry} : c'.entryAt slot = some e → c.entryAt slot = some e

namespace Receded

variable {c c' c'' : Cache δ}

theorem refl (h : c.Coherent) : Receded c c := ⟨.refl h, id⟩

theorem trans (first : Receded c c') (second : Receded c' c'') : Receded c c'' :=
  ⟨first.toPreserved.trans second.toPreserved, fun used => first.entryAt (second.entryAt used)⟩

theorem slotOf?_eq_none (h : Receded c c') (indexed : c.Indexed) {s : Sector}
    (missing : c.slotOf? s = none) : c'.slotOf? s = none := by
  cases found : c'.slotOf? s with
  | none => rfl
  | some slot =>
    obtain ⟨e, used, rfl⟩ := h.coherent.slotOf?_iff.mp found
    rw [indexed.slotOf?_eq (h.entryAt used)] at missing
    cases missing

theorem saved (h : Receded c c') (indexed : c.Indexed) {slot : Nat} {e : Entry}
    (used : c.entryAt slot = some e) :
    c'.entryAt slot = some e ∨ LawfulDevice.content c'.device e.sector = e.data := by
  cases found : c'.slotOf? e.sector with
  | some j =>
    left
    obtain ⟨e', used', same⟩ := h.coherent.slotOf?_iff.mp found
    have here : c.slotOf? e.sector = some j := same ▸ indexed.slotOf?_eq (h.entryAt used')
    rw [indexed.slotOf?_eq used, Option.some.injEq] at here
    subst here
    rw [used', ← used]
    exact (h.entryAt used').symm
  | none =>
    right
    rw [← content_of_missing h.coherent.toIndexed found, h.content]
    exact content_of_entry indexed used

end Receded

/-- How an operation stops: the device has refused a transfer, and nothing is lost. -/
def Stopped (c : Cache δ) (f : Fault) (c' : Cache δ) : Prop := Refusal δ f ∧ Receded c c'

theorem Stopped.after {c c' c'' : Cache δ} {f : Fault} (first : Receded c c')
    (stopped : Stopped c' f c'') : Stopped c f c'' :=
  ⟨stopped.1, first.trans stopped.2⟩

theorem vacate_receded {c : Cache δ} (h : c.Coherent) {slot : Nat} {e : Entry}
    (used : c.entryAt slot = some e) (saved : LawfulDevice.content c.device e.sector = e.data) :
    Receded c (c.vacate slot e.sector) ∧ (c.vacate slot e.sector).entryAt slot = none := by
  refine ⟨⟨h.vacate used saved, fun {j e'} used' => ?_⟩, ?_⟩
  · rw [entryAt_vacate] at used'
    split at used'
    · cases used'
    · exact used'
  · rw [entryAt_vacate, if_pos rfl]

variable [AtomicDevice δ]

theorem writeBack_ends {c : Cache δ} (h : c.Coherent) {slot : Nat} {e : Entry}
    (used : c.entryAt slot = some e) :
    (onDevice (Device.writeBlock e.sector e.data) : Action (Cache δ) Unit).Ends c
      (fun _ c' => Receded c c' ∧ c'.entryAt slot = some e ∧
        LawfulDevice.content c'.device e.sector = e.data)
      (Stopped c) := by
  apply Action.ends_onPart.mpr
  apply (AtomicDevice.writeBlock_or_refusal e.sector e.data c.device).mono
  · intro _ device saved
    refine ⟨⟨h.saved used saved, id⟩, used, ?_⟩
    change LawfulDevice.content device e.sector = e.data
    rw [saved, Function.update_self]
  · rintro f device ⟨refusal, same⟩
    exact ⟨refusal, h.withDevice_same same, id⟩

/-- An entry that cannot be written back stays in its slot. -/
theorem evict_ends {c : Cache δ} (h : c.Coherent) {slot : Nat} {e : Entry}
    (used : c.entryAt slot = some e) :
    (evict slot).Ends c (fun _ c' => Receded c c' ∧ c'.entryAt slot = none) (Stopped c) := by
  unfold evict
  apply Action.ends_get_bind.mpr
  simp only [used]
  cases dirty : e.dirty with
  | false => exact vacate_receded h used (h.clean used dirty)
  | true =>
    apply Action.ends_bind.mpr
    apply (writeBack_ends h used).mono
    · rintro _ c' ⟨receded, used', saved⟩
      obtain ⟨vacated, free⟩ := vacate_receded receded.coherent used' saved
      exact ⟨receded.trans vacated, free⟩
    · exact fun _ _ => id

/-- The cursor has moved on even if its victim could not be written back. -/
theorem freeSlot_ends {c : Cache δ} (h : c.Coherent) :
    freeSlot.Ends c
      (fun slot c' => Receded c c' ∧ slot < c'.capacity ∧ c'.entryAt slot = none) (Stopped c) := by
  cases found : c.vacancy with
  | some slot =>
    obtain ⟨inside, free⟩ := Indexed.vacancy_free found
    have returned : (pure slot : Action (Cache δ) Nat).Ends c
        (fun slot c' => Receded c c' ∧ slot < c'.capacity ∧ c'.entryAt slot = none) (Stopped c) :=
      ⟨.refl h, inside, free⟩
    exact returned.of_eq (freeSlot_of_vacancy found)
  | none =>
    have moved : Receded c { c with cursor := (c.cursor + 1) % c.capacity } := ⟨h.advance, id⟩
    obtain ⟨e, used⟩ := h.victim_used found
    refine Action.Ends.of_eq ?_ (freeSlot_of_full found)
    apply Action.ends_bind.mpr
    apply (evict_ends moved.coherent used).mono
    · rintro _ c' ⟨receded, free⟩
      refine ⟨moved.trans receded, ?_, free⟩
      rw [receded.capacity]
      exact h.cursor_lt
    · exact fun _ _ => Stopped.after moved

/-- Loading a sector shows what it held, and a load that is refused leaves its slot free. -/
theorem fetch_ends {c : Cache δ} (h : c.Coherent) (s : Sector) :
    (fetch s).Ends c (fun data c' => data = c.content s ∧ Preserved c c') (Stopped c) := by
  unfold fetch
  apply Action.ends_get_bind.mpr
  cases found : c.slotOf? s with
  | some slot =>
    obtain ⟨e, used, rfl⟩ := h.slotOf?_iff.mp found
    simp only [used]
    exact ⟨(content_of_entry h.toIndexed used).symm, .refl h⟩
  | none =>
    apply Action.ends_bind.mpr
    apply (freeSlot_ends h).mono
    · rintro slot c₁ ⟨receded, inside, free⟩
      have missing := receded.slotOf?_eq_none h.toIndexed found
      apply Action.ends_bind.mpr
      apply Action.ends_onPart.mpr
      apply (AtomicDevice.readBlock_or_refusal s c₁.device).mono
      · rintro data device ⟨rfl, same⟩
        have loaded := receded.coherent.withDevice_same same
        have fits : Cache.Fits { c₁ with device } slot s :=
          loaded.coherent.fits_free inside free missing
        have data : LawfulDevice.content c₁.device s = c.content s := by
          rw [← content_of_missing receded.coherent.toIndexed missing, receded.content]
        have shown := content_place (e := ⟨s, false, LawfulDevice.content c₁.device s⟩)
          loaded.coherent.toIndexed fits
        refine ⟨data, loaded.coherent.place fits fun _ => congrFun same s, ?_, ?_⟩
        · change Cache.content (Cache.place _ _ _) = _
          rw [shown, loaded.content, receded.content, data]
          exact Function.update_eq_self s c.content
        · simpa [place, capacity] using receded.capacity
      · rintro f device ⟨refusal, same⟩
        exact ⟨refusal, receded.trans ⟨receded.coherent.withDevice_same same, id⟩⟩
    · exact fun _ _ => id

theorem read_ends {c : Cache δ} (h : c.Coherent) {s : Sector} (next : s + 1 < Sector.limit) :
    (read s).Ends c (fun data c' => data = c.content s ∧ Preserved c c') (Stopped c) := by
  unfold read
  apply Action.ends_bind.mpr
  apply (fetch_ends h s).mono
  · rintro data c' ⟨shown, kept⟩
    have expected : Sector.add? s 1 = .ok (s + 1) := if_pos next
    rw [expected]
    exact ⟨shown, kept.trans (kept.coherent.withLookahead _)⟩
  · exact fun _ _ => id

/-- A write that is refused a slot installs nothing. -/
theorem write_ends {c : Cache δ} (h : c.Coherent) (s : Sector) (data : Block) :
    (write s data).Ends c
      (fun _ c' => c'.Coherent ∧ c'.content = Function.update c.content s data ∧
        c'.capacity = c.capacity)
      (fun f c' => Stopped c f c' ∧ c'.slotOf? s = none) := by
  have installed {c' : Cache δ} (receded : Receded c c') {slot : Nat} (fits : c'.Fits slot s) :
      (c'.place slot ⟨s, true, data⟩).Coherent ∧
        (c'.place slot ⟨s, true, data⟩).content = Function.update c.content s data ∧
        (c'.place slot ⟨s, true, data⟩).capacity = c.capacity := by
    refine ⟨receded.coherent.place fits nofun, ?_, ?_⟩
    · rw [content_place receded.coherent.toIndexed fits, receded.content]
    · simpa [place, capacity] using receded.capacity
  unfold write
  apply Action.ends_get_bind.mpr
  cases found : c.slotOf? s with
  | some slot => exact installed (.refl h) (h.fits_used found)
  | none =>
    apply Action.ends_bind.mpr
    apply (freeSlot_ends h).mono
    · rintro slot c' ⟨receded, inside, free⟩
      apply installed receded
      exact receded.coherent.fits_free inside free (receded.slotOf?_eq_none h.toIndexed found)
    · intro f c' stopped
      exact ⟨stopped, stopped.2.slotOf?_eq_none h.toIndexed found⟩

theorem flush_ends {c : Cache δ} (h : c.Coherent) (s : Sector) :
    (flush s).Ends c (fun _ c' => Receded c c') (Stopped c) := by
  unfold flush
  apply Action.ends_get_bind.mpr
  cases found : c.slotOf? s with
  | none => exact .refl h
  | some slot =>
    obtain ⟨e, used, _⟩ := h.slotOf?_iff.mp found
    exact (evict_ends h used).mono (fun _ _ => And.left) fun _ _ => id

theorem drain_ends {c : Cache δ} (h : c.Coherent) :
    drain.Ends c (fun _ c' => Receded c c') (Stopped c) := by
  refine ends_drain (fun receded used => ?_) (.refl h)
  apply (evict_ends receded.coherent used).mono
  · exact fun _ _ further => receded.trans further.1
  · exact fun _ _ => Stopped.after receded

theorem prefetch_ends {c : Cache δ} (h : c.Coherent) (s : Sector) :
    (prefetch s).Ends c (fun _ c' => Preserved c c') (Stopped c) := by
  unfold prefetch
  apply Action.ends_get_bind.mpr
  by_cases inside : s < Device.blockCount c.device
  · rw [if_pos inside]
    apply Action.ends_bind.mpr
    exact (fetch_ends h s).mono (fun _ _ => And.right) fun _ _ => id
  · rw [if_neg inside]
    exact .refl h

end Cache

namespace CacheCommand

def Addressable : CacheCommand → Prop
  | read s => s + 1 < Sector.limit
  | write _ _ | flush _ | drain | prefetch _ => True

variable {δ : Type} [Device δ]

/-- The cache after a command, whether or not the command has stopped at a fault. -/
def attempt (command : CacheCommand) (c : Cache δ) : Cache δ :=
  match command.perform c with
  | .ok _ c' | .error _ c' => c'

def attemptAll : List CacheCommand → Cache δ → Cache δ
  | [], c => c
  | command :: rest, c => attemptAll rest (command.attempt c)

variable [LawfulDevice δ]

structure Answered (c : Cache δ) (command : CacheCommand) (reply : Option Block) (c' : Cache δ) :
    Prop where
  content (s : Sector) : c'.content s = (command.dataFor? s).getD (c.content s)
  read {s : Sector} : command = .read s → reply = some (c.content s)

structure Refused (c : Cache δ) (command : CacheCommand) (f : Fault) (c' : Cache δ) : Prop where
  refusal : Refusal δ f
  content : c'.content = c.content
  /-- No slot has a new entry. -/
  entryAt {slot : Nat} {e : Entry} : c'.entryAt slot = some e → c.entryAt slot = some e
  /-- An entry that has gone left its data on the device. -/
  saved {slot : Nat} {e : Entry} : c.entryAt slot = some e →
    c'.entryAt slot = some e ∨ LawfulDevice.content c'.device e.sector = e.data
  write {s : Sector} {data : Block} : command = .write s data → c'.contains s = false

theorem answered_of_preserved {c c' : Cache δ} {command : CacheCommand} {reply : Option Block}
    (kept : Cache.Preserved c c') (silent : ∀ s, command.dataFor? s = none)
    (read : ∀ {s}, command = .read s → reply = some (c.content s)) :
    Answered c command reply c' where
  content s := by rw [silent, kept.content]; rfl
  read := read

theorem refused_of_stopped {c c' : Cache δ} {command : CacheCommand} {f : Fault} (h : c.Coherent)
    (stopped : Cache.Stopped c f c')
    (write : ∀ {s data}, command = .write s data → c'.slotOf? s = none) :
    Refused c command f c' where
  refusal := stopped.1
  content := stopped.2.content
  entryAt := stopped.2.entryAt
  saved := stopped.2.saved h.toIndexed
  write asked := contains_of_missing (write asked)

variable [AtomicDevice δ]

theorem perform_ends {c : Cache δ} (h : c.Coherent) {command : CacheCommand}
    (addressable : command.Addressable) :
    command.perform.Ends c
      (fun reply c' => (c'.Coherent ∧ c'.capacity = c.capacity) ∧ Answered c command reply c')
      (fun f c' => (c'.Coherent ∧ c'.capacity = c.capacity) ∧ Refused c command f c') := by
  have answered {reply : Option Block} {c' : Cache δ} (kept : Cache.Preserved c c')
      (silent : ∀ s, command.dataFor? s = none)
      (read : ∀ {s}, command = .read s → reply = some (c.content s)) :
      (c'.Coherent ∧ c'.capacity = c.capacity) ∧ Answered c command reply c' :=
    ⟨⟨kept.coherent, kept.capacity⟩, answered_of_preserved kept silent read⟩
  have refused {f : Fault} {c' : Cache δ} (stopped : Cache.Stopped c f c')
      (write : ∀ {s data}, command = .write s data → c'.slotOf? s = none) :
      (c'.Coherent ∧ c'.capacity = c.capacity) ∧ Refused c command f c' :=
    ⟨⟨stopped.2.coherent, stopped.2.capacity⟩, refused_of_stopped h stopped write⟩
  cases command with
  | read s =>
    apply Action.ends_bind.mpr
    apply (Cache.read_ends h addressable).mono
    · rintro data c' ⟨rfl, kept⟩
      apply answered kept fun _ => rfl
      rintro t ⟨⟩
      rfl
    · exact fun f c' stopped => refused stopped (by rintro _ _ ⟨⟩)
  | write s data =>
    apply Action.ends_bind.mpr
    apply (Cache.write_ends h s data).mono
    · rintro _ c' ⟨coherent, shown, same⟩
      refine ⟨⟨coherent, same⟩, fun t => ?_, by rintro _ ⟨⟩⟩
      rw [shown]
      by_cases own : s = t
      · simp [dataFor?, own]
      · simp [dataFor?, own, Function.update_of_ne (Ne.symm own)]
    · rintro f c' ⟨stopped, missing⟩
      apply refused stopped
      rintro t data ⟨⟩
      exact missing
  | flush s =>
    apply Action.ends_bind.mpr
    apply (Cache.flush_ends h s).mono
    · exact fun _ c' receded => answered receded.toPreserved (fun _ => rfl) (by rintro _ ⟨⟩)
    · exact fun f c' stopped => refused stopped (by rintro _ _ ⟨⟩)
  | drain =>
    apply Action.ends_bind.mpr
    apply (Cache.drain_ends h).mono
    · exact fun _ c' receded => answered receded.toPreserved (fun _ => rfl) (by rintro _ ⟨⟩)
    · exact fun f c' stopped => refused stopped (by rintro _ _ ⟨⟩)
  | prefetch s =>
    apply Action.ends_bind.mpr
    apply (Cache.prefetch_ends h s).mono
    · exact fun _ c' kept => answered kept (fun _ => rfl) (by rintro _ ⟨⟩)
    · exact fun f c' stopped => refused stopped (by rintro _ _ ⟨⟩)

theorem attempt_coherent {c : Cache δ} (h : c.Coherent) {command : CacheCommand}
    (addressable : command.Addressable) :
    (command.attempt c).Coherent ∧ (command.attempt c).capacity = c.capacity := by
  have ends := perform_ends h addressable
  unfold attempt
  cases done : command.perform c with
  | ok reply c' => exact (ends.ok done).1
  | error f c' => exact (ends.error done).1

theorem attemptAll_coherent {c : Cache δ} (h : c.Coherent) (history : List CacheCommand)
    (addressable : ∀ command ∈ history, command.Addressable) :
    (attemptAll history c).Coherent ∧ (attemptAll history c).capacity = c.capacity := by
  induction history generalizing c with
  | nil => exact ⟨h, rfl⟩
  | cons command rest ih =>
    obtain ⟨coherent, same⟩ := attempt_coherent h (addressable command (by simp))
    obtain ⟨rest_coherent, rest_same⟩ :=
      ih coherent fun next member => addressable next (by simp [member])
    exact ⟨rest_coherent, rest_same.trans same⟩

/-- Whatever the device has refused in the course of a history, the cache is in order
afterwards, and the next command either returns or is refused, which loses nothing. -/
theorem refusals_lose_nothing (device : δ) {capacity : Nat} (positive : 0 < capacity)
    (history : List CacheCommand) (addressable : ∀ command ∈ history, command.Addressable) :
    ∃ start, Cache.new device capacity = .ok start ∧
      (attemptAll history start).InOrder capacity ∧
      ∀ command : CacheCommand, command.Addressable →
        command.perform.Ends (attemptAll history start)
          (Answered (attemptAll history start) command)
          (Refused (attemptAll history start) command) := by
  obtain ⟨start, made, coherent, _, _, same, _⟩ := Cache.new_coherent device positive
  obtain ⟨reached, capacity_same⟩ := attemptAll_coherent coherent history addressable
  refine ⟨start, made, ?_, ?_⟩
  · rw [← same, ← capacity_same]
    exact reached.inOrder
  · intro command next
    exact (perform_ends reached next).mono (fun _ _ => And.right) fun _ _ => And.right

/-- Sector 1 cannot be written back, so the only slot stays taken: its data is still there after
a read and a write that needed the slot. -/
theorem refusals_lose_nothing_damaged : 0 < 1 ∧
    (∀ command ∈ [write 1 (Vector.replicate 512 7), read 2], command.Addressable) ∧
    ∃ start after : Cache (Drive MemoryDisk),
      Cache.new ⟨MemoryDisk.zeroed 3, [1], []⟩ 1 = .ok start ∧
      (write 2 (Vector.replicate 512 9)).perform
        (attemptAll [write 1 (Vector.replicate 512 7), read 2] start) =
          .error (.badBlock 1) after ∧
      (after.content 1)[0] = 7 ∧ after.contains 2 = false := by
  have addressable : ∀ command ∈ [write 1 (Vector.replicate 512 7), read 2],
      command.Addressable := by
    simp [Addressable, Sector.limit, UInt64.size]
  obtain ⟨start, made, _, next⟩ := refusals_lose_nothing
    (⟨MemoryDisk.zeroed 3, [1], []⟩ : Drive MemoryDisk) Nat.one_pos _ addressable
  obtain ⟨after, stopped⟩ : ∃ after, (write 2 (Vector.replicate 512 9)).perform
      (attemptAll [write 1 (Vector.replicate 512 7), read 2] start) =
        .error (.badBlock 1) after := by
    have fault : (match (write 2 (Vector.replicate 512 9)).perform
        (attemptAll [write 1 (Vector.replicate 512 7), read 2] start) with
        | .ok _ _ => none
        | .error f _ => some f) = some (Fault.badBlock 1) := by
      cases made
      decide +kernel
    split at fault
    · cases fault
    next f after stopped =>
      cases fault
      exact ⟨after, stopped⟩
  have refused := (next (write 2 (Vector.replicate 512 9)) trivial).error stopped
  refine ⟨Nat.one_pos, addressable, start, after, made, stopped, ?_, refused.write rfl⟩
  have unwritten :
      ((attemptAll [write 1 (Vector.replicate 512 7), read 2] start).content 1)[0] = 7 := by
    cases made
    decide +kernel
  simpa only [refused.content] using unwritten

end CacheCommand

end InodeVolume
