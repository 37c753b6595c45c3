import InodeVolume.Proofs.System.Holdings

/-!
# Openings

The registry has one inode for each opening of the archive, with the record that
stands in its home sector, and finds it by that sector. Every change of an inode
is one of its opening.
-/

namespace InodeVolume

def Opening.inode (o : Opening) (r : Record) : Inode :=
  ⟨o.home, r, o.openers, o.denials, o.removed⟩

theorem Opening.dropOpener_inode {o : Opening} (undenied : o.denials < o.openers) (r : Record) :
    (o.inode r).dropOpener = .ok (({ o with openers := o.openers - 1 } : Opening).inode r) := by
  have some_openers : o.openers ≠ 0 := Nat.ne_of_gt (Nat.zero_lt_of_lt undenied)
  have spare : ¬ o.openers - 1 < o.denials := by omega
  rw [Inode.dropOpener, inode, if_neg some_openers, if_neg spare]
  rfl

theorem Opening.forbid_inode {o : Opening} (spare : o.denials < o.openers) (r : Record) :
    (o.inode r).forbid = .ok (({ o with denials := o.denials + 1 } : Opening).inode r) :=
  if_neg (Nat.not_lt.mpr spare)

theorem Opening.permit_inode {o : Opening} (denied : 0 < o.denials) (few : o.denials ≤ o.openers)
    (r : Record) :
    (o.inode r).permit = .ok (({ o with denials := o.denials - 1 } : Opening).inode r) := by
  have some_denials : ¬ (o.inode r).denials = 0 := Nat.ne_of_gt denied
  have enough : ¬ (o.inode r).openers < (o.inode r).denials := Nat.not_lt.mpr few
  rw [Inode.permit, if_neg some_denials, if_neg enough]
  rfl

namespace Registry

variable {α : Type}

structure Matches (g : Registry) (v : Flat α) (a : Archive) : Prop where
  opened {home : Sector} {id : InodeId} :
    g.opened[home]? = some id ↔ ∃ o, a.openings id = some o ∧ o.home = home
  inode {id : InodeId} {o : Opening} :
    a.openings id = some o → g.inodes[id]? = some (o.inode (v.recordAt o.home))
  live {id : InodeId} {o : Opening} : a.openings id = some o → o.home ∈ a.live
  counts {id : InodeId} {o : Opening} :
    a.openings id = some o → 0 < o.openers ∧ o.denials ≤ o.openers

def withInode (g : Registry) (id : InodeId) (i : Inode) : Registry :=
  { g with inodes := g.inodes.setIfInBounds id i }

theorem run_put (id : InodeId) (i : Inode) (g : Registry) :
    (put id i).run g = pure ((), g.withInode id i) := rfl

theorem returns_inode [Allocator α] {v : Flat α} {g : Registry} {id : InodeId} {i : Inode}
    (found : g.inodes[id]? = some i) {post : Inode × Registry → Flat α → Prop} :
    ((inode id).run g).Returns v post ↔ post (i, g) v := by
  simp only [inode, StateT.run_bind, StateT.run_get, Program.returns_bind, Program.returns_pure,
    found]
  exact Program.returns_pure

namespace Matches

variable {g : Registry} {v w : Flat α} {a a' : Archive} {id : InodeId} {o o' : Opening} {home : Sector}

theorem empty (v : Flat α) (unopened : ∀ id, a.openings id = none) : Matches {} v a where
  opened := by simp [unopened]
  inode found := by simp [unopened] at found
  live found := by simp [unopened] at found
  counts found := by simp [unopened] at found

theorem unique (h : g.Matches v a) {id' : InodeId} (left : a.openings id = some o)
    (right : a.openings id' = some o') (same : o.home = o'.home) : id = id' := by
  have first := h.opened.mpr ⟨o, left, same⟩
  have second := h.opened.mpr ⟨o', right, rfl⟩
  rw [first] at second
  exact Option.some.inj second

theorem lt_size (h : g.Matches v a) (found : a.openings id = some o) : id < g.inodes.size :=
  (Array.getElem?_eq_some_iff.mp (h.inode found)).1

theorem frame (h : g.Matches v a) (openings : a'.openings = a.openings)
    (live : ∀ id o, a.openings id = some o → o.home ∈ a'.live)
    (records : ∀ id o, a.openings id = some o → w.recordAt o.home = v.recordAt o.home) :
    g.Matches w a' where
  opened := by
    rw [openings]
    exact h.opened
  inode {id o} found := by
    rw [openings] at found
    rw [records id o found]
    exact h.inode found
  live {id o} found := by
    rw [openings] at found
    exact live id o found
  counts {id o} found := by
    rw [openings] at found
    exact h.counts found

theorem update (h : g.Matches v a) (found : a.openings id = some o) (home : o'.home = o.home)
    (counts : 0 < o'.openers ∧ o'.denials ≤ o'.openers)
    (openings : a'.openings = Function.update a.openings id (some o'))
    (live : ∀ id o, a.openings id = some o → o.home ∈ a'.live)
    (records : ∀ id' o', a.openings id' = some o' → id' ≠ id →
      w.recordAt o'.home = v.recordAt o'.home) :
    (g.withInode id (o'.inode (w.recordAt o'.home))).Matches w a' where
  opened {s id'} := by
    change g.opened[s]? = some id' ↔ _
    rw [h.opened, openings]
    by_cases same : id' = id
    · subst same
      simp [found, home]
    · simp [same]
  inode {id' o''} found' := by
    rw [openings] at found'
    simp only [withInode, Array.getElem?_setIfInBounds]
    by_cases same : id' = id
    · subst same
      rw [Function.update_self, Option.some.injEq] at found'
      subst found'
      rw [if_pos rfl, if_pos (h.lt_size found)]
    · rw [Function.update_of_ne same] at found'
      rw [if_neg (Ne.symm same), records id' o'' found' same]
      exact h.inode found'
  live {id' o''} found' := by
    rw [openings] at found'
    by_cases same : id' = id
    · subst same
      rw [Function.update_self, Option.some.injEq] at found'
      rw [← found', home]
      exact live id' o found
    · rw [Function.update_of_ne same] at found'
      exact live id' o'' found'
  counts {id' o''} found' := by
    rw [openings] at found'
    by_cases same : id' = id
    · subst same
      rw [Function.update_self, Option.some.injEq] at found'
      exact found' ▸ counts
    · rw [Function.update_of_ne same] at found'
      exact h.counts found'

theorem fresh (h : g.Matches v a) : a.openings g.inodes.size = none := by
  by_contra taken
  obtain ⟨o, found⟩ := Option.ne_none_iff_exists'.mp taken
  exact Nat.lt_irrefl _ (h.lt_size found)

/-- The first opening of a file makes a new inode. -/
theorem enter (h : g.Matches v a) (unopened : g.opened[home]? = none) (live : home ∈ a.live) :
    Matches { inodes := g.inodes.push { home, record := v.recordAt home }
              opened := g.opened.insert home g.inodes.size } v
      (a.withOpening g.inodes.size { home }) where
  opened {s id} := by
    have absent (s : Sector) : g.opened[s]? ≠ some g.inodes.size := by
      intro found
      obtain ⟨o, taken, _⟩ := h.opened.mp found
      rw [h.fresh] at taken
      cases taken
    simp only [Archive.withOpening, Std.TreeMap.getElem?_insert, Nat.compare_eq_eq]
    by_cases new : id = g.inodes.size
    · subst new
      by_cases here : home = s
      · simp [here]
      · simp [here, absent]
    · rw [Function.update_of_ne new, ← h.opened]
      by_cases here : home = s
      · subst here
        simp [Ne.symm new, unopened]
      · rw [if_neg here]
  inode {id o} found := by
    simp only [Archive.withOpening] at found
    by_cases new : id = g.inodes.size
    · subst new
      rw [Function.update_self, Option.some.injEq] at found
      subst found
      simp [Opening.inode]
    · rw [Function.update_of_ne new] at found
      rw [Array.getElem?_push, if_neg new]
      exact h.inode found
  live {id o} found := by
    simp only [Archive.withOpening] at found
    by_cases new : id = g.inodes.size
    · subst new
      rw [Function.update_self, Option.some.injEq] at found
      exact found ▸ live
    · rw [Function.update_of_ne new] at found
      exact h.live found
  counts {id o} found := by
    simp only [Archive.withOpening] at found
    by_cases new : id = g.inodes.size
    · subst new
      rw [Function.update_self, Option.some.injEq] at found
      subst found
      simp
    · rw [Function.update_of_ne new] at found
      exact h.counts found

/-- After the last close nothing leads to the inode any more. -/
theorem erase (h : g.Matches v a) (found : a.openings id = some o) (i : Inode)
    (openings : a'.openings = Function.update a.openings id none)
    (live : ∀ id' o', a.openings id' = some o' → id' ≠ id → o'.home ∈ a'.live)
    (records : ∀ id' o', a.openings id' = some o' → id' ≠ id →
      w.recordAt o'.home = v.recordAt o'.home) :
    Matches { g.withInode id i with opened := g.opened.erase o.home } w a' := by
  have others {id' : InodeId} {o' : Opening} (found' : a'.openings id' = some o') :
      id' ≠ id ∧ a.openings id' = some o' := by
    rw [openings] at found'
    by_cases same : id' = id
    · subst same
      rw [Function.update_self] at found'
      cases found'
    · rw [Function.update_of_ne same] at found'
      exact ⟨same, found'⟩
  refine ⟨fun {s id'} => ?_, fun {id' o'} found' => ?_, fun {id' o'} found' => ?_, fun found' => ?_⟩
  · simp only [Std.TreeMap.getElem?_erase, Nat.compare_eq_eq]
    constructor
    · intro still
      by_cases here : o.home = s
      · rw [if_pos here] at still
        cases still
      · rw [if_neg here] at still
        obtain ⟨o', found', home'⟩ := h.opened.mp still
        refine ⟨o', ?_, home'⟩
        have apart : id' ≠ id := by
          rintro rfl
          rw [found, Option.some.injEq] at found'
          exact here (found' ▸ home')
        rw [openings, Function.update_of_ne apart, found']
    · rintro ⟨o', found', home'⟩
      obtain ⟨apart, before⟩ := others found'
      have elsewhere : o.home ≠ s := by
        rintro here
        exact apart (h.unique before found (home'.trans here.symm))
      rw [if_neg elsewhere]
      exact h.opened.mpr ⟨o', before, home'⟩
  · obtain ⟨apart, before⟩ := others found'
    simp only [withInode, Array.getElem?_setIfInBounds, if_neg (Ne.symm apart)]
    rw [records id' o' before apart]
    exact h.inode before
  · obtain ⟨apart, before⟩ := others found'
    exact live id' o' before apart
  · exact h.counts (others found').2

end Matches

end Registry

end InodeVolume
