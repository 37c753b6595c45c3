import InodeVolume.Proofs.Space.Prefix
import InodeVolume.Proofs.System.Closing
import InodeVolume.Proofs.System.Continuity

/-!
# Retention of sectors

What an operation gives back are sectors that it took in vain, or those of a removed file that
was closed for the last time. So a file keeps its sectors as long as it is there.
-/

namespace InodeVolume

namespace SpaceMap

variable {calls later : List AllocatorCall} {sectors : List Sector} {t : Sector}

theorem released_append : Released (later ++ calls) t ↔ Released later t ∨ Released calls t := by
  simp only [Released, List.mem_append]
  constructor
  · rintro ⟨s, count, new | old, run⟩
    · exact .inl ⟨s, count, new, run⟩
    · exact .inr ⟨s, count, old, run⟩
  · rintro (⟨s, count, new, run⟩ | ⟨s, count, old, run⟩)
    · exact ⟨s, count, .inl new, run⟩
    · exact ⟨s, count, .inr old, run⟩

theorem released_releases : Released (releases sectors) t ↔ t ∈ sectors := by
  simp only [Released, releases, List.mem_reverse, List.mem_map]
  constructor
  · rintro ⟨_, _, ⟨s, member, ⟨⟩⟩, above, below⟩
    obtain rfl := Nat.le_antisymm above (Nat.le_of_lt_succ below)
    exact member
  · exact fun member => ⟨t, 1, ⟨t, member, rfl⟩, Nat.le_refl t, Nat.lt_succ_self t⟩

theorem not_released_takings : ¬ Released (takings sectors) t := by
  simp [Released, takings]

theorem released_fruitless (h : Released (fruitless sectors) t) : t ∈ sectors := by
  rcases released_append.mp h with back | taken
  · exact released_releases.mp back
  · have taken : Released ([.allocated none 1] ++ takings sectors) t := taken
    rcases released_append.mp taken with none_left | taken
    · simp [Released] at none_left
    · exact absurd taken not_released_takings

end SpaceMap

section Calls

variable {α : Type} {g : Registry} {op : Operation} {id : InodeId}

theorem logs_wrap {β : Type} {wrap : β → Answer} {act : Filing β}
    {post : List AllocatorCall → Prop} (h : (act.run g).Logs fun _ log => post log) :
    ((do return wrap (← act) : Filing Answer).run g).Logs fun _ log => post log := by
  simp only [StateT.run_bind, Program.logs_bind, StateT.run_pure, Program.logs_pure,
    List.nil_append]
  exact h

theorem Registry.logs_locate (g : Registry) (id : InodeId) (offset count : Nat) (forWrite : Bool) :
    ((locate id offset count forWrite).run g).Logs fun _ log => Record.Spends log := by
  cases forWrite with
  | false =>
    refine (g.reads_locate id offset count).logs.mono ?_
    rintro _ _ rfl
    exact .of_takings []
  | true =>
    simp only [locate, inode, StateT.run_bind, StateT.run_get, Program.logs_bind,
      Program.logs_pure, if_true]
    cases g.inodes[id]? with
    | none => exact Program.logs_fault.mpr trivial
    | some i =>
      simp only [StateT.run_pure, Program.logs_pure, Program.logs_lift, run_put]
      refine (i.record.logs_sectorForWrite i.home offset count).mono ?_
      rintro ⟨s, r⟩ log grows
      simpa using grows.spends

/-- But for a close, operations give back no more than they took in vain. -/
theorem Operation.logs_filing (open_ : ∀ id, op ≠ .close id) :
    (op.filing.run g).Logs fun _ log => Record.Spends log := by
  have silent (reads : (op.filing.run g).Reads) :
      (op.filing.run g).Logs fun _ log => Record.Spends log := by
    refine reads.logs.mono ?_
    rintro _ _ rfl
    exact .of_takings []
  cases op with
  | allocate =>
    refine logs_wrap (Program.logs_lift.mpr (Program.logs_allocate.mpr fun s => ?_))
    cases s with
    | none => exact .of_fruitless []
    | some s => exact .of_takings [s]
  | create home length kind =>
    exact logs_wrap (Program.logs_lift.mpr (Record.logs_create home length kind))
  | write id offset data => exact logs_wrap (Registry.logs_write g id offset data)
  | locate id offset count forWrite =>
    exact logs_wrap (g.logs_locate id offset count forWrite)
  | close id => exact absurd rfl (open_ id)
  | openAt home => exact silent (reads_wrap (g.reads_openAt home))
  | reopen id => exact silent (reads_wrap (g.reads_reopen id))
  | remove id => exact silent (reads_wrap (g.reads_remove id))
  | forbid id => exact silent (reads_wrap (g.reads_forbid id))
  | permit id => exact silent (reads_wrap (g.reads_permit id))
  | read id offset count => exact silent (reads_wrap (g.reads_read id offset count))
  | sync | drain | flush | prefetch => exact silent (Program.reads_pure _)

end Calls

section Ledgers

variable {α : Type} [Allocator α] [MappedAllocator α] {v w u : Flat (Ledger α)} {g : Registry}
  {a : Archive} {id : InodeId} {o : Opening} {home : Sector} {op : Operation}

/-- On the way from `v` to `w`, no sector of the file in `home` was given back. -/
def Flat.Retains (v : Flat (Ledger α)) (home : Sector) (w : Flat (Ledger α)) : Prop :=
  ∃ log, w.allocator.calls = log ++ v.allocator.calls ∧
    ∀ s ∈ v.ownedAt home, ¬ SpaceMap.Released log s

omit [Allocator α] [MappedAllocator α] in
theorem Flat.Retains.refl (v : Flat (Ledger α)) (home : Sector) : v.Retains home v :=
  ⟨[], rfl, by simp [SpaceMap.Released]⟩

omit [Allocator α] [MappedAllocator α] in
theorem Flat.Retains.trans (h : v.Retains home w) (prolongs : v.Prolongs home w)
    (h' : w.Retains home u) : v.Retains home u := by
  obtain ⟨log, calls, kept⟩ := h
  obtain ⟨later, calls', kept'⟩ := h'
  refine ⟨later ++ log, by rw [calls', calls, List.append_assoc], fun s member released => ?_⟩
  rcases SpaceMap.released_append.mp released with new | old
  · exact kept' s (prolongs.owned member) new
  · exact kept s member old

/-- Sectors taken in vain are free again, so that no file has them. -/
theorem Flat.Keeps.retains_of_spends {a' : Archive} {log : List AllocatorCall} (before : v.Keeps a)
    (after : w.Keeps a') (live : home ∈ a'.live) (prolongs : v.Prolongs home w)
    (calls : w.allocator.calls = log ++ v.allocator.calls) (spends : Record.Spends log)
    (history : SpaceMap.History v.map log w.map) : v.Retains home w := by
  refine ⟨log, calls, fun s member released => ?_⟩
  have used : w.map.isAllocated s = true :=
    (after.files live).stores.used s (prolongs.owned member)
  obtain ⟨kept, _, rfl | ⟨held, rfl, free⟩⟩ := spends.exists_kept before.ready.sound history
  · exact SpaceMap.not_released_takings released
  · rcases SpaceMap.released_append.mp released with back | taken
    · rw [free s (SpaceMap.released_fruitless back)] at used
      cases used
    · exact SpaceMap.not_released_takings taken

theorem Represents.retains_of_closes (h : Represents v g a) (found : a.openings id = some o)
    (live : home ∈ a.live) (still : home ∈ (a.next (.close id) .nothing).live)
    (calls : w.allocator.calls = o.closingCalls (v.ownedAt o.home) ++ v.allocator.calls) :
    v.Retains home w := by
  refine ⟨_, calls, fun s member released => ?_⟩
  unfold Opening.closingCalls at released
  split at released
  next last =>
    have other : home ≠ o.home := by
      rintro rfl
      rw [Archive.live_next_close found last.1 last.2] at still
      exact Finset.notMem_erase _ _ still
    have apart := h.keeps.apart other
    rw [Flat.holding_live live, Flat.holding_live (h.matched.live found)] at apart
    exact apart member (SpaceMap.released_releases.mp released)
  next => simp [SpaceMap.Released] at released

/-- No operation gives back a sector of a file that outlasts it. -/
theorem Represents.returns_filing_retains (h : Represents v g a) (allowed : a.Allows op) :
    (op.filing.run g).Returns v fun (answer, g') w =>
      Answered a op answer w g' ∧ v.Spares a w (a.next op answer) ∧
        ∀ home ∈ a.live, home ∈ (a.next op answer).live → v.Retains home w := by
  have returns := (h.returns_filing allowed).and (h.returns_filing_spares allowed)
  by_cases closes : ∃ id, op = .close id
  · obtain ⟨id, rfl⟩ := closes
    obtain ⟨o, found⟩ := Option.isSome_iff_exists.mp allowed.1
    have undenied := allowed.2
    rw [Archive.opening_of_some found] at undenied
    have closed : ((Operation.close id).filing.run g).Returns v fun (answer, _) w =>
        w.allocator.calls = o.closingCalls (v.ownedAt o.home) ++ v.allocator.calls ∧
          answer = .nothing :=
      returns_wrap.mpr ((h.returns_close_calls found undenied).mono fun _ _ calls => ⟨calls, rfl⟩)
    refine (returns.and closed).mono ?_
    rintro ⟨answer, g'⟩ w ⟨⟨answered, spares⟩, calls, rfl⟩
    exact ⟨answered, spares, fun home live still => h.retains_of_closes found live still calls⟩
  · have open_ (id : InodeId) : op ≠ .close id := fun same => closes ⟨id, same⟩
    refine (returns.and_logs (Operation.logs_filing open_)).mono ?_
    rintro ⟨answer, g'⟩ w ⟨⟨answered, spares⟩, log, spends, calls, history⟩
    refine ⟨answered, spares, fun home live still => ?_⟩
    exact h.keeps.retains_of_spends answered.represents.keeps still (spares home live still) calls
      spends history

end Ledgers

end InodeVolume
