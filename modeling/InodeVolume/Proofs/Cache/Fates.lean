import InodeVolume.Proofs.Cache.Stages
import InodeVolume.Proofs.Disk.Recorder

/-!
# What becomes of a sector

Over a recorder, a command does one of four things to each sector: it leaves its entry alone, gives
the entry up, loads the sector or stores data in it. Each of them takes certain transfers of the
sector's block and no others (`CacheCommand.perform_affects`).
-/

namespace InodeVolume

/-- The transfer that it takes to give up an entry: none for a clean one. -/
def Entry.writeBack (e : Entry) : List Recorded :=
  if e.dirty then [.written e.sector e.data] else []

theorem Entry.about_writeBack {e : Entry} {s : Sector} :
    Recorded.about s e.writeBack = if e.sector = s then e.writeBack else [] := by
  unfold writeBack
  cases e.dirty <;> simp

/-- A sector where slots are given up: its entry before, the transfers of its block, and its entry
after. -/
inductive Relinquished (s : Sector) : Option Entry → List Recorded → Option Entry → Prop
  | kept (e : Option Entry) : Relinquished s e [] e
  | gone (e : Entry) (own : e.sector = s) : Relinquished s (some e) e.writeBack none

/-- A sector where a command is performed. -/
inductive Fate (s : Sector) : CacheCommand → Option Entry → List Recorded → Option Entry → Prop
  | untouched {command : CacheCommand} (silent : command.dataFor? s = none) (e : Option Entry) :
    Fate s command e [] e
  | evicted {command : CacheCommand} (silent : command.dataFor? s = none) (e : Entry)
    (own : e.sector = s) : Fate s command (some e) e.writeBack none
  | loaded {command : CacheCommand} (asked : command = .read s ∨ command = .prefetch s)
    (data : Block) : Fate s command none [.read s] (some ⟨s, false, data⟩)
  | stored (data : Block) (e : Option Entry) :
    Fate s (.write s data) e [] (some ⟨s, true, data⟩)

namespace Relinquished

variable {s : Sector} {e e' e'' : Option Entry} {made made' : List Recorded}

theorem trans (first : Relinquished s e made e') (second : Relinquished s e' made' e'') :
    Relinquished s e (made ++ made') e'' := by
  cases first with
  | kept => exact second
  | gone e own =>
    cases second with
    | kept =>
      rw [List.append_nil]
      exact .gone e own

theorem of_none (h : Relinquished s none made e') : made = [] ∧ e' = none := by
  cases h with
  | kept => exact ⟨rfl, rfl⟩

theorem fate (h : Relinquished s e made e') {command : CacheCommand}
    (silent : command.dataFor? s = none) : Fate s command e made e' := by
  cases h with
  | kept => exact .untouched silent e
  | gone e own => exact .evicted silent e own

end Relinquished

namespace Cache

variable {δ : Type}

structure Relinquishes (c c' : Cache (Recorder δ)) (made : List Recorded) : Prop where
  log : c'.device.log = c.device.log ++ made
  entry (s : Sector) : Relinquished s (c.entryOf? s) (Recorded.about s made) (c'.entryOf? s)

theorem Relinquishes.refl (c : Cache (Recorder δ)) : Relinquishes c c [] :=
  ⟨(List.append_nil _).symm, fun _ => .kept _⟩

theorem Relinquishes.trans {c c' c'' : Cache (Recorder δ)} {made made' : List Recorded}
    (first : Relinquishes c c' made) (second : Relinquishes c' c'' made') :
    Relinquishes c c'' (made ++ made') where
  log := by rw [second.log, first.log, List.append_assoc]
  entry s := by
    rw [Recorded.about_append]
    exact (first.entry s).trans (second.entry s)

structure Affected (command : CacheCommand) (c c' : Cache (Recorder δ)) (made : List Recorded) :
    Prop where
  log : c'.device.log = c.device.log ++ made
  fate (s : Sector) : Fate s command (c.entryOf? s) (Recorded.about s made) (c'.entryOf? s)

theorem Relinquishes.affected {c c' : Cache (Recorder δ)} {made : List Recorded}
    {command : CacheCommand} (h : Relinquishes c c' made)
    (silent : ∀ s, command.dataFor? s = none) : Affected command c c' made :=
  ⟨h.log, fun s => (h.entry s).fate (silent s)⟩

variable [Device δ] [LawfulDevice δ] {c : Cache (Recorder δ)} {slot : Nat} {e : Entry}
  {command : CacheCommand} {s : Sector}

theorem Evicted.entryOf? {c c' : Cache (Recorder δ)} (evicted : Evicted c c' slot e)
    (h : c.Indexed) (used : c.entryAt slot = some e) (s : Sector) :
    c'.entryOf? s = if e.sector = s then none else c.entryOf? s := by
  by_cases own : e.sector = s
  · rw [if_pos own, evicted.consistent.entryOf?_eq_none_iff, evicted.slotOf?, if_pos own]
  · rw [if_neg own, Cache.entryOf?, evicted.slotOf?, if_neg own, Cache.entryOf?]
    cases found : c.slotOf? s with
    | none => rfl
    | some j =>
      have apart : slot ≠ j := by
        rintro rfl
        obtain ⟨e', used', same⟩ := h.slotOf?_iff.mp found
        cases used.symm.trans used'
        exact own same
      simp [evicted.entryAt, apart]

omit [LawfulDevice δ] in
theorem evict_log (used : c.entryAt slot = some e) :
    (evict slot).Ends c (fun _ c' => c'.device.log = c.device.log ++ e.writeBack)
      fun _ _ => True := by
  unfold evict
  apply Action.ends_get_bind.mpr
  simp only [used]
  cases dirty : e.dirty with
  | false => simp [Entry.writeBack, dirty, vacate]
  | true =>
    apply Action.ends_bind.mpr
    apply Action.ends_onPart.mpr
    apply (Recorder.writeBlock_log e.sector e.data c.device).mono
    · intro _ device logged
      simpa [Entry.writeBack, dirty, vacate] using logged
    · exact fun _ _ _ => trivial

theorem evict_relinquishes (h : c.Consistent) (used : c.entryAt slot = some e) :
    (evict slot).Ends c (fun _ c' => c'.Consistent ∧ Relinquishes c c' e.writeBack)
      fun _ _ => True := by
  obtain ⟨c', done, evicted⟩ := evict_eq h used
  apply Action.Ends.of_ok done
  refine ⟨evicted.consistent, (evict_log used).ok done, fun s => ?_⟩
  rw [evicted.entryOf? h.toIndexed used, Entry.about_writeBack]
  by_cases own : e.sector = s
  · rw [if_pos own, if_pos own, h.entryOf?_eq_some_iff.mpr ⟨slot, used, own⟩]
    exact .gone e own
  · rw [if_neg own, if_neg own]
    exact .kept _

theorem freeSlot_relinquishes (h : c.Consistent) (missing : c.slotOf? s = none) :
    freeSlot.Ends c (fun slot c' => (c'.Consistent ∧ c'.Fits slot s) ∧
      ∃ made, Relinquishes c c' made) fun _ _ => True := by
  obtain ⟨slot, c', claimed, kept, fits, _⟩ := freeSlot_eq h missing
  apply Action.Ends.of_ok claimed
  refine ⟨⟨kept.consistent, fits⟩, ?_⟩
  cases found : c.vacancy with
  | some free =>
    rw [freeSlot_of_vacancy found] at claimed
    cases claimed
    exact ⟨[], .refl c⟩
  | none =>
    obtain ⟨e, used⟩ := h.victim_used found
    have moved : Consistent { c with cursor := (c.cursor + 1) % c.capacity } :=
      (h.coherent.advance.kept h.healthy rfl h.within).consistent
    have relinquished : freeSlot.Ends c (fun _ c' => ∃ made, Relinquishes c c' made)
        fun _ _ => True := by
      refine Action.Ends.of_eq ?_ (freeSlot_of_full found)
      apply Action.ends_bind.mpr
      apply (evict_relinquishes moved used).mono
      · exact fun _ c' given => ⟨_, given.2.log, given.2.entry⟩
      · exact fun _ _ => id
    exact relinquished.ok claimed

theorem affected_of_placed {c' : Cache (Recorder δ)} {made : List Recorded} {device : Recorder δ}
    (consistent : c'.Consistent) (fits : c'.Fits slot e.sector)
    (missing : c.slotOf? e.sector = none) (h : c.Indexed) (given : Relinquishes c c' made) {loads : List Recorded}
    (log : device.log = c'.device.log ++ loads)
    (loads_own : ∀ t, e.sector ≠ t → Recorded.about t loads = [])
    (own : Fate e.sector command none (Recorded.about e.sector loads) (some e))
    (silent : ∀ t, e.sector ≠ t → command.dataFor? t = none) :
    Affected command c ({ c' with device }.place slot e) (made ++ loads) where
  log := by
    change device.log = _
    rw [log, given.log, List.append_assoc]
  fate t := by
    have placed : ({ c' with device }.place slot e).entryOf? t =
        if e.sector = t then some e else c'.entryOf? t :=
      consistent.toIndexed.entryOf?_place fits t
    have relinquished := given.entry t
    rw [Recorded.about_append, placed]
    by_cases same : e.sector = t
    · subst same
      have absent : c.entryOf? e.sector = none := h.entryOf?_eq_none_iff.mpr missing
      rw [absent] at relinquished ⊢
      rw [relinquished.of_none.1, if_pos rfl]
      exact own
    · rw [loads_own t same, List.append_nil, if_neg same]
      exact relinquished.fate (silent t same)

theorem fetch_affects (h : c.Consistent) (asked : command = .read s ∨ command = .prefetch s) :
    (fetch s).Ends c (fun _ c' => ∃ made, Affected command c c' made) fun _ _ => True := by
  have silent (t : Sector) : command.dataFor? t = none := by
    rcases asked with rfl | rfl <;> rfl
  unfold fetch
  apply Action.ends_get_bind.mpr
  cases found : c.slotOf? s with
  | some slot =>
    obtain ⟨e, used, _⟩ := h.slotOf?_iff.mp found
    simp only [used]
    exact ⟨[], (Relinquishes.refl c).affected silent⟩
  | none =>
    apply Action.ends_bind.mpr
    apply (freeSlot_relinquishes h found).mono
    · rintro slot middle ⟨⟨consistent, fits⟩, made, given⟩
      apply Action.ends_bind.mpr
      apply Action.ends_onPart.mpr
      apply (Recorder.readBlock_log s middle.device).mono
      · intro data device logged
        refine ⟨made ++ [.read s], affected_of_placed (e := ⟨s, false, data⟩) consistent fits found
          h.toIndexed given logged ?_ ?_ fun t _ => silent t⟩
        · intro t other
          rw [Recorded.about_read, if_neg other]
        · rw [Recorded.about_read, if_pos rfl]
          exact .loaded asked data
      · exact fun _ _ _ => trivial
    · exact fun _ _ => id

theorem write_affects (h : c.Consistent) (s : Sector) (data : Block) :
    (write s data).Ends c (fun _ c' => ∃ made, Affected (.write s data) c c' made)
      fun _ _ => True := by
  have silent (t : Sector) (other : s ≠ t) : (CacheCommand.write s data).dataFor? t = none :=
    if_neg other
  unfold write
  apply Action.ends_get_bind.mpr
  cases found : c.slotOf? s with
  | some slot =>
    refine ⟨[], (List.append_nil _).symm, fun t => ?_⟩
    rw [h.toIndexed.entryOf?_place (e := ⟨s, true, data⟩) (h.fits_used found)]
    by_cases same : s = t
    · subst same
      rw [if_pos rfl]
      exact .stored data _
    · rw [if_neg same]
      exact .untouched (silent t same) _
  | none =>
    apply Action.ends_bind.mpr
    apply (freeSlot_relinquishes h found).mono
    · rintro slot middle ⟨⟨consistent, fits⟩, made, given⟩
      exact ⟨made ++ [], affected_of_placed (e := ⟨s, true, data⟩) consistent fits found h.toIndexed
        given (List.append_nil _).symm (fun _ _ => rfl) (.stored data none) silent⟩
    · exact fun _ _ => id

theorem flush_relinquishes (h : c.Consistent) (s : Sector) :
    (flush s).Ends c (fun _ c' => ∃ made, Relinquishes c c' made) fun _ _ => True := by
  unfold flush
  apply Action.ends_get_bind.mpr
  cases found : c.slotOf? s with
  | none => exact ⟨[], .refl c⟩
  | some slot =>
    obtain ⟨e, used, _⟩ := h.slotOf?_iff.mp found
    exact (evict_relinquishes h used).mono (fun _ _ given => ⟨_, given.2⟩) fun _ _ => id

theorem drain_relinquishes (h : c.Consistent) :
    drain.Ends c (fun _ c' => c'.Consistent ∧ ∃ made, Relinquishes c c' made) fun _ _ => True := by
  refine ends_drain ?_ ⟨h, [], .refl c⟩
  rintro middle slot e ⟨consistent, made, before⟩ used
  apply (evict_relinquishes consistent used).mono
  · rintro _ c' ⟨still, given⟩
    exact ⟨still, _, before.trans given⟩
  · exact fun _ _ => id

end Cache

namespace CacheCommand

variable {δ : Type} [Device δ] [LawfulDevice δ] {c : Cache (Recorder δ)}

/-- What a command does to all sectors. -/
theorem perform_affects (h : c.Consistent) (command : CacheCommand) :
    command.perform.Ends c (fun _ c' => ∃ made, Cache.Affected command c c' made)
      fun _ _ => True := by
  have given {c' : Cache (Recorder δ)} (silent : ∀ s, command.dataFor? s = none)
      (relinquished : ∃ made, Cache.Relinquishes c c' made) :
      ∃ made, Cache.Affected command c c' made :=
    relinquished.imp fun _ relinquishes => relinquishes.affected silent
  cases command with
  | read s =>
    apply Action.ends_bind.mpr
    apply Action.ends_bind.mpr
    apply (Cache.fetch_affects h (.inl rfl)).mono
    · rintro data c' ⟨made, affected⟩
      apply Action.ends_bind.mpr
      unfold Action.Ends Action.ofExcept
      cases Sector.add? s 1 with
      | error f => trivial
      | ok next => exact ⟨made, affected.log, affected.fate⟩
    · exact fun _ _ => id
  | write s data =>
    apply Action.ends_bind.mpr
    exact Cache.write_affects h s data
  | flush s =>
    apply Action.ends_bind.mpr
    exact (Cache.flush_relinquishes h s).mono (fun _ _ => given fun _ => rfl) fun _ _ => id
  | drain =>
    apply Action.ends_bind.mpr
    exact (Cache.drain_relinquishes h).mono (fun _ _ drained => given (fun _ => rfl) drained.2)
      fun _ _ => id
  | prefetch s =>
    apply Action.ends_bind.mpr
    unfold Cache.prefetch
    apply Action.ends_get_bind.mpr
    by_cases inside : s < Device.blockCount c.device
    · rw [if_pos inside]
      apply Action.ends_bind.mpr
      exact (Cache.fetch_affects h (.inr rfl)).mono (fun _ _ => id) fun _ _ => id
    · rw [if_neg inside]
      exact given (fun _ => rfl) ⟨[], .refl c⟩

end CacheCommand

end InodeVolume
