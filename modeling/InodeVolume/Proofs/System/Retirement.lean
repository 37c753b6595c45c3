import InodeVolume.Proofs.System.Changes
import InodeVolume.Proofs.System.Steps

/-!
# Retirement of inodes

An inode whose last opener has gone is retired: it counts no openers, nothing that is in
order changes it, and it never comes into use again. Who opens its sector afterwards gets
another inode.
-/

namespace InodeVolume

variable {α : Type} {v : Flat α} {g g' : Registry} {a a' : Archive} {id : InodeId} {i : Inode}
  {home : Sector} {op : Operation}

/-- Inodes that nobody has in use any more count no openers. -/
def Registry.Retired (g : Registry) (a : Archive) : Prop :=
  ∀ id < g.inodes.size, a.openings id = none → ∃ i, g.inodes[id]? = some i ∧ i.openers = 0

/-- Inodes that nobody has in use count no openers afterwards, and those that nobody had in use
before have stayed out of use, and just as they were. -/
structure Ages (g : Registry) (a : Archive) (g' : Registry) (a' : Archive) : Prop where
  retired : g'.Retired a'
  size : g.inodes.size ≤ g'.inodes.size
  unused {id : InodeId} : id < g.inodes.size → a.openings id = none → a'.openings id = none
  inode {id : InodeId} : id < g.inodes.size → a.openings id = none →
    g'.inodes[id]? = g.inodes[id]?

namespace Registry.Retired

theorem tuned (h : g.Retired a) (tuned : g.TunedAt id g') (inUse : a.openings id ≠ none)
    (same : ∀ id, a'.openings id = none ↔ a.openings id = none) : Ages g a g' a' where
  retired id' inside unused := by
    rw [tuned.size] at inside
    obtain ⟨i, found, none_left⟩ := h id' inside ((same id').mp unused)
    obtain ⟨i', found', change⟩ := tuned.inode found
    exact ⟨i', found', change.openers.trans none_left⟩
  size := tuned.size.ge
  unused _ := (same _).mpr
  inode _ unused := tuned.others fun at_id => inUse (at_id ▸ unused)

theorem same (h : g.Retired a) (same : ∀ id, a'.openings id = none ↔ a.openings id = none) :
    Ages g a g a' where
  retired id inside unused := h id inside ((same id).mp unused)
  size := Nat.le_refl _
  unused _ := (same _).mpr
  inode _ _ := rfl

theorem withInode (h : g.Retired a) (found : g.inodes[id]? = some i) {i' : Inode}
    (inodes : g'.inodes = (g.withInode id i').inodes) (inUse : a.openings id ≠ none)
    (others : ∀ id', id' ≠ id → a'.openings id' = a.openings id')
    (last : a'.openings id = none → i'.openers = 0) : Ages g a g' a' := by
  have differ {id' : InodeId} (unused : a.openings id' = none) : id' ≠ id := by
    rintro rfl
    exact inUse unused
  refine ⟨fun id' inside unused => ?_, ?_, fun {id'} _ unused => ?_, fun {id'} _ unused => ?_⟩
  · rw [inodes] at inside ⊢
    rw [getElem?_withInode found]
    rw [size_withInode] at inside
    split
    next same => exact ⟨i', rfl, last (same ▸ unused)⟩
    next differ => exact h id' inside (others id' differ ▸ unused)
  · rw [inodes, size_withInode]
  · rw [others id' (differ unused), unused]
  · rw [inodes, getElem?_withInode found, if_neg (differ unused)]

theorem entered (h : g.Retired a) (record : Record) (inUse : a'.openings g.inodes.size ≠ none)
    (others : ∀ id, id ≠ g.inodes.size → a'.openings id = a.openings id) :
    Ages g a (g.entered home record) a' where
  retired id inside unused := by
    have differ : id ≠ g.inodes.size := by
      rintro rfl
      exact inUse unused
    rw [Registry.entered, Array.size_push] at inside
    rw [Registry.entered, Array.getElem?_push, if_neg differ]
    exact h id (by omega) (others id differ ▸ unused)
  size := by simp [Registry.entered]
  unused {id} inside unused := by rw [others id (Nat.ne_of_lt inside), unused]
  inode {id} inside _ := by
    rw [Registry.entered, Array.getElem?_push, if_neg (Nat.ne_of_lt inside)]

end Registry.Retired

namespace Archive

theorem openings_withOpening_eq_none {o : Opening} (inUse : (a.openings id).isSome)
    (id' : InodeId) : (a.withOpening id o).openings id' = none ↔ a.openings id' = none := by
  change Function.update a.openings id (some o) id' = none ↔ a.openings id' = none
  by_cases same : id' = id
  · subst same
    rw [Function.update_self]
    exact iff_of_false (Option.some_ne_none _) (Option.isSome_iff_ne_none.mp inUse)
  · rw [Function.update_of_ne same]

/-- Operations by which no inode comes into use or goes out of it. -/
def Steady : Operation → Prop
  | .openAt _ | .reopen _ | .close _ => False
  | _ => True

theorem openings_next_eq_none (allowed : a.Allows op) (steady : Steady op) (answer : Answer)
    (id : InodeId) : (a.next op answer).openings id = none ↔ a.openings id = none := by
  cases op with
  | openAt | reopen | close => exact steady.elim
  | remove => exact openings_withOpening_eq_none allowed id
  | forbid | permit => exact openings_withOpening_eq_none allowed.1 id
  | _ =>
    unfold next
    split <;> first | rfl | contradiction

end Archive

theorem Registry.Retired.addOpener (h : g.Retired a) (found : g.inodes[id]? = some i)
    (inUse : a.openings id ≠ none) (o : Opening) :
    Ages g a (g.withInode id i.addOpener) (a.withOpening id o) := by
  refine h.withInode found rfl inUse (fun _ differ => Function.update_of_ne differ ..) ?_
  intro unused
  have now : (a.withOpening id o).openings id = some o := Function.update_self ..
  rw [now] at unused
  cases unused

theorem ages_openAt (h : g.Retired a) (matched : g.Matches v a) (home : Sector) :
    ((Registry.openAt home).run g).Yields fun (id, g') =>
      Ages g a g' (a.next (.openAt home) (.opened id)) := by
  refine Registry.yields_openAt (fun id i seen found => ?_) fun unseen record => ?_
  · obtain ⟨o, inUse, rfl⟩ := matched.opened.mp seen
    simp only [Archive.next_openAt_of_some inUse]
    exact h.addOpener found (inUse ▸ Option.some_ne_none o) _
  · simp only [Archive.next_openAt_of_none matched.fresh]
    refine h.entered record ?_ fun id differ => Function.update_of_ne differ ..
    have now : (a.withOpening g.inodes.size { home }).openings g.inodes.size = some { home } :=
      Function.update_self ..
    exact now ▸ Option.some_ne_none _

theorem ages_close (h : g.Retired a) (matched : g.Matches v a) (inUse : (a.openings id).isSome) :
    ((Registry.close id).run g).Yields fun (_, g') =>
      Ages g a g' (a.next (.close id) .nothing) := by
  obtain ⟨o, opening⟩ := Option.isSome_iff_exists.mp inUse
  have used : a.openings id ≠ none := opening ▸ Option.some_ne_none o
  have same {i : Inode} (found : g.inodes[id]? = some i) : i.openers = o.openers := by
    rw [matched.inode opening] at found
    cases found
    rfl
  refine Registry.yields_close (fun i found others _ => ?_) fun i found one _ => ?_
  · have more : ¬ o.openers = 1 := by
      have := same found
      omega
    rw [Archive.next_close_others opening more]
    refine h.withInode found rfl used (fun _ differ => Function.update_of_ne differ ..) ?_
    intro unused
    exact absurd unused (by simp [Archive.withOpening])
  · have last : o.openers = 1 := (same found).symm.trans one
    rw [Archive.next_close_last opening last]
    exact h.withInode found rfl used (fun _ differ => Function.update_of_ne differ ..) fun _ => rfl

theorem ages_filing (h : g.Retired a) (matched : g.Matches v a) (allowed : a.Allows op) :
    (op.filing.run g).Yields fun (answer, g') => Ages g a g' (a.next op answer) := by
  have same (answer : Answer) (steady : Archive.Steady op) : Ages g a g (a.next op answer) :=
    h.same (Archive.openings_next_eq_none allowed steady answer)
  have tuned (answer : Answer) (steady : Archive.Steady op) {id : InodeId}
      (inUse : (a.openings id).isSome) {g' : Registry} (tuned : g.TunedAt id g') :
      Ages g a g' (a.next op answer) :=
    h.tuned tuned (Option.isSome_iff_ne_none.mp inUse)
      (Archive.openings_next_eq_none allowed steady answer)
  cases op with
  | openAt home => exact yields_wrap.mpr (ages_openAt h matched home)
  | reopen id =>
    obtain ⟨o, opening⟩ := Option.isSome_iff_exists.mp allowed
    refine yields_wrap.mpr (Registry.yields_reopen.mpr fun i found => ?_)
    exact h.addOpener found (opening ▸ Option.some_ne_none o) _
  | close id => exact yields_wrap.mpr (ages_close h matched allowed.1)
  | allocate | create =>
    refine yields_wrap.mpr (Program.yields_lift.mpr (Program.yields_of_forall fun _ => ?_))
    exact same _ trivial
  | remove => exact yields_wrap.mpr (Registry.yields_remove.mono fun _ => tuned _ trivial allowed)
  | forbid => exact yields_wrap.mpr (Registry.yields_forbid.mono fun _ => tuned _ trivial allowed.1)
  | permit => exact yields_wrap.mpr (Registry.yields_permit.mono fun _ => tuned _ trivial allowed.1)
  | read _ offset count =>
    exact yields_wrap.mpr ((Registry.yields_read offset count).mono fun _ =>
      tuned _ trivial allowed)
  | write _ offset data =>
    exact yields_wrap.mpr ((Registry.yields_write offset data).mono fun _ =>
      tuned _ trivial allowed)
  | locate _ offset count forWrite =>
    exact yields_wrap.mpr ((Registry.yields_locate offset count forWrite).mono fun _ =>
      tuned _ trivial allowed)
  | sync | drain | flush | prefetch => exact Program.yields_pure.mpr (same _ trivial)

end InodeVolume
