import InodeVolume.Proofs.Space.Singles
import InodeVolume.Proofs.System.Invariants
import InodeVolume.Proofs.System.Outcomes
import InodeVolume.Proofs.System.Retirement

/-!
# Closing

Handles may be closed more often than they should be. An inode that nobody has in use any
more counts no openers, so that to close it is refused; and as it never comes into use again,
each file is discarded at most once, and what is given back then are its own sectors.
-/

namespace InodeVolume

section Ledgers

variable {α : Type} [Allocator α] {v : Flat (Ledger α)} {post : Unit → Flat (Ledger α) → Prop}

theorem Program.returns_release_calls {s : Sector} (h : (release s).Returns v post) :
    (release s).Returns v fun b w => post b w ∧
      w.allocator.calls = .released s 1 :: v.allocator.calls := by
  obtain ⟨_, w, given, holds⟩ := returns_ask.mp h
  refine returns_ask.mpr ⟨(), w, given, holds, ?_⟩
  simp only [Flat.answer, Action.step] at given
  cases done : Allocator.release v.allocator.allocator s 1 with
  | error f =>
    simp only [Allocator.release, done] at given
    cases given
  | ok allocator =>
    simp only [Allocator.release, done] at given
    cases given
    rfl

theorem Program.returns_releaseAll_calls {sectors : List Sector}
    (h : (sectors.forM release).Returns v post) :
    (sectors.forM release).Returns v fun b w => post b w ∧
      w.allocator.calls = releases sectors ++ v.allocator.calls := by
  induction sectors generalizing v with
  | nil => exact returns_pure.mpr ⟨returns_pure.mp h, rfl⟩
  | cons s rest ih =>
    have first : (release s).Returns v fun _ u => (rest.forM release).Returns u post :=
      returns_bind.mp h
    refine returns_bind.mpr ((returns_release_calls first).mono ?_)
    rintro _ u ⟨later, calls⟩
    refine (ih later).mono ?_
    rintro _ w ⟨holds, calls'⟩
    refine ⟨holds, ?_⟩
    rw [calls', calls]
    simp [releases]

variable [MappedAllocator α] {g : Registry} {a : Archive} {id : InodeId} {o : Opening}
  {home : Sector} {r : Record}

theorem Record.Rooted.returns_discard_calls (ready : v.Ready) (sound : r.Sound v.content home)
    (h : r.Rooted v home) : (r.discard home).Returns v fun _ w =>
      w.allocator.calls = releases (r.owned v.content home) ++ v.allocator.calls := by
  have holds : v.Holds (r.links v.content).sectors := fun s member =>
    ready.lt_limit (h.used s (by rw [Record.owned_eq]; exact List.mem_cons_of_mem _ member))
  simp only [Record.discard, Program.returns_bind, Program.returns_require]
  rw [sound.returns_sectors holds]
  refine ⟨sound.length_owned, ?_⟩
  have given : ((r.owned v.content home).forM Program.release).Returns v fun _ _ => True :=
    (Flat.Exchanged.refl ready h.nodup h.used).returns_releaseAll ready fun _ _ _ => trivial
  exact (Program.returns_releaseAll_calls given).mono fun _ _ => And.right

def Opening.closingCalls (o : Opening) (sectors : List Sector) : List AllocatorCall :=
  if o.openers = 1 ∧ o.removed then releases sectors else []

theorem Represents.returns_close_calls (h : Represents v g a) (found : a.openings id = some o)
    (undenied : o.denials < o.openers) :
    ((Registry.close id).run g).Returns v fun _ w =>
      w.allocator.calls = o.closingCalls (v.ownedAt o.home) ++ v.allocator.calls := by
  have dropped := Opening.dropOpener_inode undenied (v.recordAt o.home)
  have shows := h.keeps.files (h.matched.live found)
  simp only [Registry.close, StateT.run_bind, Program.returns_bind,
    Registry.returns_inode (h.matched.inode found), Program.returns_lift, Program.returns_ofExcept,
    dropped, Except.ok.injEq, exists_eq_left', Registry.run_put, Program.returns_pure]
  by_cases last : o.openers = 1
  · have none_left : o.openers - 1 = 0 := by omega
    simp only [Opening.inode, none_left, if_true, StateT.run_bind, StateT.run_modify,
      Program.returns_bind, Program.returns_pure]
    cases removed : o.removed with
    | false =>
      simp [Opening.closingCalls, removed]
    | true =>
      simp only [if_true, Program.returns_lift, Opening.closingCalls, last, removed, and_self]
      exact shows.stores.rooted.returns_discard_calls h.keeps.ready shows.stores.sound
  · have some_left : ¬ o.openers - 1 = 0 := by omega
    simp [Opening.inode, Opening.closingCalls, some_left, last]

end Ledgers

namespace FileSystem

variable {δ α β : Type} [Device δ]

section Runs

variable [Allocator α]

def calls (fs : FileSystem δ (Ledger α)) : List AllocatorCall := fs.volume.allocator.calls

/-- Calls on an inode that nobody has in use any more: to close it, and with `reopening` also to
open it anew. -/
def Overdue (reopening : Bool) (fs : FileSystem δ α) (a : Archive) : Operation → Prop
  | .close id => id < fs.registry.inodes.size ∧ (a.openings id).isNone
  | .reopen id => reopening ∧ id < fs.registry.inodes.size ∧ (a.openings id).isNone
  | _ => False

/-- The inode that was closed, if something was given back by that. -/
def discarded (op : Operation) (fs fs' : FileSystem δ (Ledger α)) : List InodeId :=
  match op with
  | .close id => if fs'.calls = fs.calls then [] else [id]
  | _ => []

/-- Operations in order, one after the other, with overdue calls among them that may be refused
or not, and the inodes discarded so far. -/
inductive LooseRun (reopening : Bool) (fs₀ : FileSystem δ (Ledger α)) (a₀ : Archive) :
    FileSystem δ (Ledger α) → Archive → List InodeId → Prop where
  | start : LooseRun reopening fs₀ a₀ fs₀ a₀ []
  | step {fs fs' : FileSystem δ (Ledger α)} {a : Archive} {discards : List InodeId}
    {op : Operation} {answer : Answer} : LooseRun reopening fs₀ a₀ fs a discards →
      a.Allows op → perform op fs = .ok answer fs' →
        LooseRun reopening fs₀ a₀ fs' (a.next op answer) (discarded op fs fs' ++ discards)
  | overdue {fs fs' : FileSystem δ (Ledger α)} {a : Archive} {discards : List InodeId}
    {op : Operation} {answer : Answer} : LooseRun reopening fs₀ a₀ fs a discards →
      fs.Overdue reopening a op → perform op fs = .ok answer fs' →
        LooseRun reopening fs₀ a₀ fs' a (discarded op fs fs' ++ discards)
  | refused {fs fs' : FileSystem δ (Ledger α)} {a : Archive} {discards : List InodeId}
    {op : Operation} {f : Fault} : LooseRun reopening fs₀ a₀ fs a discards →
      fs.Overdue reopening a op → perform op fs = .error f fs' →
        LooseRun reopening fs₀ a₀ fs' a (discarded op fs fs' ++ discards)

end Runs

section Closes

variable [Allocator α] {fs fs' : FileSystem δ α} {a : Archive} {id : InodeId}
  {answer : Answer}

/-- Closing is refused before anything is done. -/
theorem refused_of_retired (h : fs.registry.Retired a) (named : id < fs.registry.inodes.size)
    (unused : a.openings id = none) : ∃ i, fs.registry.inodes[id]? = some i ∧
      perform (.close id) fs = .error (.closedTooOften i.home) fs := by
  obtain ⟨i, found, none_left⟩ := h id named unused
  refine ⟨i, found, ?_⟩
  have faults : (Registry.close id).run fs.registry = .fault (.closedTooOften i.home) := by
    simp [Registry.close, Registry.inode, found, Inode.dropOpener, none_left, Program.ofExcept]
  have stopped : onFiles (Registry.close id) fs = .error (.closedTooOften i.home) fs := by
    rw [onFiles, Action.get_bind, faults]
    rfl
  change EStateM.bind (onFiles (Registry.close id)) _ fs = _
  simp only [EStateM.bind, stopped]

variable [LawfulDevice δ] [MappedAllocator α]

/-- Only an inode that somebody has in use is ever closed. -/
theorem allows_of_closed (realizes : fs.CoherentlyRealizes a) (h : fs.registry.Retired a)
    (done : perform (.close id) fs = .ok answer fs') : a.Allows (.close id) := by
  obtain ⟨i, found, spare⟩ := spare_of_closed done
  obtain ⟨w, _, represents⟩ := realizes
  cases opening : a.openings id with
  | none =>
    obtain ⟨i', found', none_left⟩ := h id (Array.getElem?_eq_some_iff.mp found).1 opening
    rw [found] at found'
    cases found'
    omega
  | some o =>
    rw [represents.matched.inode opening] at found
    cases found
    refine ⟨by rw [opening]; rfl, ?_⟩
    rw [Archive.opening_of_some opening]
    exact spare

end Closes

section Ledgers

variable [LawfulDevice δ] {fs fs' : FileSystem δ (Ledger SpaceMap)} {a : Archive}
  {discards : List InodeId} {o : Opening} {id : InodeId} {op : Operation} {answer : Answer}

/-- A close gives back the sectors of the file, where it is the last one of a removed file, and
nothing else. They are all in use, and nobody else has any of them. -/
structure Closes (fs : FileSystem δ (Ledger SpaceMap)) (a : Archive) (o : Opening)
    (fs' : FileSystem δ (Ledger SpaceMap)) : Prop where
  calls : fs'.calls = o.closingCalls (fs.owned o.home) ++ fs.calls
  nodup : (fs.owned o.home).Nodup
  isAllocated {s : Sector} : s ∈ fs.owned o.home →
    fs.volume.allocator.allocator.isAllocated s = true
  apart {home : Sector} : home ∈ a.live → home ≠ o.home →
    (fs.owned home).Disjoint (fs.owned o.home)
  granted {s : Sector} : s ∈ a.granted → s ∉ fs.owned o.home
  above {s : Sector} : s ∈ fs.owned o.home → a.reserved ≤ s
  entries {home : Sector} : home ≠ o.home →
    fs'.registry.opened[home]? = fs.registry.opened[home]?

/-- What holds in every loose run. -/
structure LooseRunInvariant (fs : FileSystem δ (Ledger SpaceMap)) (a : Archive)
    (discards : List InodeId) : Prop where
  realizes : fs.CoherentlyRealizes a
  retired : fs.registry.Retired a
  nodup : discards.Nodup
  gone {id : InodeId} : id ∈ discards → id < fs.registry.inodes.size ∧ a.openings id = none

omit [Device δ] [LawfulDevice δ] in
theorem mem_discarded : id ∈ discarded op fs fs' ↔ op = .close id ∧ fs'.calls ≠ fs.calls := by
  cases op with
  | close id' =>
    simp only [discarded, Operation.close.injEq]
    split <;> simp_all [eq_comm]
  | _ => simp [discarded]

omit [Device δ] [LawfulDevice δ] in
theorem discarded_self (op : Operation) (fs : FileSystem δ (Ledger SpaceMap)) :
    discarded op fs fs = [] :=
  List.eq_nil_iff_forall_not_mem.mpr fun _ member => (mem_discarded.mp member).2 rfl

omit [Device δ] [LawfulDevice δ] in
theorem nodup_discarded (op : Operation) (fs fs' : FileSystem δ (Ledger SpaceMap)) :
    (discarded op fs fs').Nodup := by
  unfold discarded
  split
  · split <;> simp
  · exact List.nodup_nil

theorem owned_of_coherentWithFlat {v : Flat (Ledger SpaceMap)}
    (related : fs.volume.CoherentWithFlat v) (home : Sector) :
    fs.owned home = v.ownedAt home := by
  rw [owned, recordAt, related.content, Flat.ownedAt, Flat.recordAt]

variable [AtomicDevice δ]

theorem LooseRunInvariant.closes (h : LooseRunInvariant fs a discards)
    (done : perform (.close id) fs = .ok answer fs') :
    ∃ o, a.openings id = some o ∧ fs.Closes a o fs' := by
  obtain ⟨inUse, undenied⟩ := allows_of_closed h.realizes h.retired done
  obtain ⟨o, opening⟩ := Option.isSome_iff_exists.mp inUse
  rw [Archive.opening_of_some opening] at undenied
  obtain ⟨v, related, represents⟩ := h.realizes
  have keeps := represents.keeps
  have live := represents.matched.live opening
  have entries : ((Registry.close id).run fs.registry).Yields fun p =>
      ∀ home, home ≠ o.home → p.2.opened[home]? = fs.registry.opened[home]? := by
    refine Registry.yields_close (fun i found _ _ home _ => rfl) fun i found _ _ home differ => ?_
    rw [represents.matched.inode opening] at found
    cases found
    simp only [Registry.without, Registry.withInode, Std.TreeMap.getElem?_erase,
      Nat.compare_eq_eq]
    exact if_neg (Ne.symm differ)
  have returns : ((Operation.close id).filing.run fs.registry).Returns v fun p w =>
      w.allocator.calls = o.closingCalls (v.ownedAt o.home) ++ v.allocator.calls ∧
        ∀ home, home ≠ o.home → p.2.opened[home]? = fs.registry.opened[home]? :=
    returns_wrap.mpr ((represents.returns_close_calls opening undenied).and_yields entries)
  have simulation : fs.CoherentWithFlat fs.registry v := ⟨related, rfl⟩
  obtain ⟨w, related', calls, entries⟩ := (simulation.ends_of_returns returns).ok done
  have owned := owned_of_coherentWithFlat related
  have holding : v.holding a o.home = v.ownedAt o.home := Flat.holding_live live
  exact ⟨o, opening, {
    calls := by
      rw [FileSystem.calls, FileSystem.calls, related'.allocator, related.allocator, owned]
      exact calls
    nodup := by
      rw [owned, ← holding]
      exact keeps.nodup_holding _
    isAllocated member := by
      rw [owned, ← holding] at member
      rw [related.allocator]
      exact keeps.used member
    apart live' differ := by
      rw [owned, owned, ← holding, ← Flat.holding_live live']
      exact keeps.apart differ
    granted {s} granted member := by
      rw [owned, ← holding] at member
      have differ : s ≠ o.home := by
        rintro rfl
        exact Finset.disjoint_left.mp keeps.disjoint granted live
      exact keeps.apart differ (Flat.mem_holding_self.mpr (.inr granted)) member
    above member := by
      rw [owned, ← holding] at member
      exact keeps.above member
    entries differ := entries _ differ }⟩

theorem LooseRunInvariant.realizes_ages (h : LooseRunInvariant fs a discards) (allowed : a.Allows op)
    (done : perform op fs = .ok answer fs') :
    fs'.CoherentlyRealizes (a.next op answer) ∧
      Ages fs.registry a fs'.registry (a.next op answer) := by
  obtain ⟨v, related, represents⟩ := h.realizes
  have simulation : fs.CoherentWithFlat fs.registry v := ⟨related, rfl⟩
  have returns := (represents.returns_filing allowed).and_yields
    (ages_filing h.retired represents.matched allowed)
  obtain ⟨w, related', answered, ages⟩ := (simulation.ends_of_returns returns).ok done
  exact ⟨⟨w, related', answered.represents⟩, ages⟩

theorem LooseRunInvariant.step (h : LooseRunInvariant fs a discards) (allowed : a.Allows op)
    (done : perform op fs = .ok answer fs') :
    LooseRunInvariant fs' (a.next op answer) (discarded op fs fs' ++ discards) := by
  obtain ⟨realizes, ages⟩ := h.realizes_ages allowed done
  refine ⟨realizes, ages.retired, ?_, ?_⟩
  · refine List.nodup_append.mpr ⟨nodup_discarded op fs fs', h.nodup, ?_⟩
    rintro id new _ old rfl
    obtain ⟨rfl, _⟩ := mem_discarded.mp new
    have unused := (h.gone old).2
    have inUse := allowed.1
    rw [unused] at inUse
    cases inUse
  · intro id member
    rcases List.mem_append.mp member with new | old
    · obtain ⟨rfl, differ⟩ := mem_discarded.mp new
      obtain ⟨o, opening, closes⟩ := h.closes done
      have inside : id < fs.registry.inodes.size := by
        obtain ⟨_, _, represents⟩ := h.realizes
        exact represents.matched.lt_size opening
      have last : o.openers = 1 := by
        by_contra others
        refine differ (closes.calls.trans ?_)
        rw [Opening.closingCalls, if_neg fun both => others both.1, List.nil_append]
      refine ⟨Nat.lt_of_lt_of_le inside ages.size, ?_⟩
      rw [Archive.next_close_last opening last]
      exact Function.update_self ..
    · obtain ⟨inside, unused⟩ := h.gone old
      exact ⟨Nat.lt_of_lt_of_le inside ages.size, ages.unused inside unused⟩

omit [AtomicDevice δ] in
theorem LooseRunInvariant.overdue (h : LooseRunInvariant fs a discards)
    (overdue : fs.Overdue false a op) :
    ∃ f, perform op fs = .error f fs := by
  cases op with
  | close id =>
    obtain ⟨i, _, refused⟩ := refused_of_retired h.retired overdue.1
      (Option.isNone_iff_eq_none.mp overdue.2)
    exact ⟨_, refused⟩
  | reopen => exact absurd overdue.1 Bool.false_ne_true
  | _ => exact overdue.elim

theorem LooseRun.invariant {fs₀ : FileSystem δ (Ledger SpaceMap)} {a₀ : Archive}
    (run : LooseRun false fs₀ a₀ fs a discards) (start : LooseRunInvariant fs₀ a₀ []) :
    LooseRunInvariant fs a discards := by
  induction run with
  | start => exact start
  | step _ allowed done ih => exact ih.step allowed done
  | overdue _ overdue done ih =>
    obtain ⟨f, refused⟩ := ih.overdue overdue
    rw [done] at refused
    cases refused
  | refused _ overdue stopped ih =>
    obtain ⟨f, refused⟩ := ih.overdue overdue
    rw [stopped] at refused
    cases refused
    rw [discarded_self]
    exact ih

end Ledgers

end FileSystem

end InodeVolume
