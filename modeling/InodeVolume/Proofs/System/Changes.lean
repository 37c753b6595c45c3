import InodeVolume.Proofs.System.Openings
import InodeVolume.Proofs.Volume.Yields

/-!
# Changes of a registry

What each operation on inodes does to a registry whenever it has a result. Opening adds an
opener or enters a new inode, closing drops an opener and takes out an inode that has none
left. All other operations leave the entries and the openers alone, never have more denials
than openers, and change no inode but their own.
-/

namespace InodeVolume

theorem Inode.dropOpener_eq_ok {i i' : Inode} (dropped : i.dropOpener = .ok i') :
    0 < i.openers ∧ i.denials ≤ i.openers - 1 ∧ i' = { i with openers := i.openers - 1 } := by
  unfold dropOpener at dropped
  split at dropped
  · cases dropped
  next some_openers =>
    split at dropped
    · cases dropped
    next spare =>
      cases dropped
      exact ⟨Nat.pos_of_ne_zero some_openers, Nat.le_of_not_lt spare, rfl⟩

/-- The inode `i` with another record, mark or number of denials. -/
structure Inode.Tuned (i i' : Inode) : Prop where
  home : i'.home = i.home
  openers : i'.openers = i.openers
  denials : i.denials ≤ i.openers → i'.denials ≤ i'.openers

theorem Inode.Tuned.refl (i : Inode) : i.Tuned i := ⟨rfl, rfl, id⟩

theorem Inode.Tuned.trans {i i' i'' : Inode} (h : i.Tuned i') (h' : i'.Tuned i'') : i.Tuned i'' :=
  ⟨h'.home.trans h.home, h'.openers.trans h.openers, fun bound => h'.denials (h.denials bound)⟩

theorem Inode.spare_of_forbid {i i' : Inode} (done : i.forbid = .ok i') :
    i.denials < i.openers := by
  unfold forbid at done
  split at done
  · cases done
  next spare => exact Nat.lt_of_not_le fun few => spare (Nat.lt_succ_of_le few)

theorem Inode.tuned_of_forbid {i i' : Inode} (done : i.forbid = .ok i') : i.Tuned i' := by
  have spare := spare_of_forbid done
  rw [forbid, if_neg (Nat.not_lt.mpr spare)] at done
  cases done
  exact ⟨rfl, rfl, fun _ => spare⟩

theorem Inode.tuned_of_permit {i i' : Inode} (done : i.permit = .ok i') : i.Tuned i' := by
  unfold permit at done
  split at done
  · cases done
  · split at done
    · cases done
    · cases done
      exact ⟨rfl, rfl, fun bound => Nat.le_trans (Nat.sub_le _ _) bound⟩

namespace Registry

variable {g g' : Registry} {id : InodeId} {home : Sector}

def entered (g : Registry) (home : Sector) (record : Record) : Registry where
  inodes := g.inodes.push { home, record }
  opened := g.opened.insert home g.inodes.size

def without (g : Registry) (home : Sector) : Registry := { g with opened := g.opened.erase home }

@[simp] theorem opened_withInode (i : Inode) : (g.withInode id i).opened = g.opened := rfl

@[simp] theorem size_withInode (i : Inode) : (g.withInode id i).inodes.size = g.inodes.size :=
  Array.size_setIfInBounds

theorem getElem?_withInode {i : Inode} (found : g.inodes[id]? = some i) (i' : Inode)
    (id' : InodeId) :
    (g.withInode id i').inodes[id']? = if id' = id then some i' else g.inodes[id']? := by
  have inside : id < g.inodes.size := (Array.getElem?_eq_some_iff.mp found).1
  simp only [withInode, Array.getElem?_setIfInBounds, inside, if_true, eq_comm]

/-- The entries of the registry stay, and so do the openers of its inodes. -/
structure Tuned (g g' : Registry) : Prop where
  opened : g'.opened = g.opened
  size : g'.inodes.size = g.inodes.size
  inode {id : InodeId} {i : Inode} : g.inodes[id]? = some i →
    ∃ i', g'.inodes[id]? = some i' ∧ i.Tuned i'

theorem Tuned.refl (g : Registry) : g.Tuned g :=
  ⟨rfl, rfl, fun {_ i} found => ⟨i, found, .refl i⟩⟩

theorem Tuned.trans {g'' : Registry} (h : g.Tuned g') (h' : g'.Tuned g'') : g.Tuned g'' where
  opened := h'.opened.trans h.opened
  size := h'.size.trans h.size
  inode found := by
    obtain ⟨i', found', tuned⟩ := h.inode found
    obtain ⟨i'', found'', tuned'⟩ := h'.inode found'
    exact ⟨i'', found'', tuned.trans tuned'⟩

/-- The registry is tuned at one of its inodes. -/
structure TunedAt (g : Registry) (id : InodeId) (g' : Registry) : Prop extends Tuned g g' where
  others {id' : InodeId} : id' ≠ id → g'.inodes[id']? = g.inodes[id']?

theorem TunedAt.refl (g : Registry) (id : InodeId) : g.TunedAt id g := ⟨.refl g, fun _ => rfl⟩

theorem tunedAt_withInode {i i' : Inode} (found : g.inodes[id]? = some i) (tuned : i.Tuned i') :
    g.TunedAt id (g.withInode id i') where
  opened := rfl
  size := size_withInode i'
  inode {id' j} found' := by
    rw [getElem?_withInode found]
    split
    next same =>
      subst same
      rw [found] at found'
      cases found'
      exact ⟨i', rfl, tuned⟩
    next => exact ⟨j, found', .refl j⟩
  others differ := by rw [getElem?_withInode found, if_neg differ]

section Yields

theorem yields_inode {post : Inode × Registry → Prop} :
    ((inode id).run g).Yields post ↔ ∀ i, g.inodes[id]? = some i → post (i, g) := by
  simp only [inode, StateT.run_bind, StateT.run_get, Program.yields_bind, Program.yields_pure]
  cases found : g.inodes[id]? with
  | none => exact iff_of_true trivial (by simp)
  | some i => simp

theorem yields_reopen {post : InodeId × Registry → Prop} : ((reopen id).run g).Yields post ↔
    ∀ i, g.inodes[id]? = some i → post (id, g.withInode id i.addOpener) := by
  simp only [reopen, StateT.run_bind, Program.yields_bind, yields_inode, run_put,
    Program.yields_pure, StateT.run_pure]

theorem yields_openAt {post : InodeId × Registry → Prop}
    (shared : ∀ id i, g.opened[home]? = some id → g.inodes[id]? = some i →
      post (id, g.withInode id i.addOpener))
    (fresh : g.opened[home]? = none → ∀ record, post (g.inodes.size, g.entered home record)) :
    ((openAt home).run g).Yields post := by
  simp only [openAt, StateT.run_bind, StateT.run_get, Program.yields_bind, Program.yields_pure]
  cases seen : g.opened[home]? with
  | some id => exact yields_reopen.mpr fun i found => shared id i seen found
  | none =>
    simp only [StateT.run_bind, Program.yields_bind, Program.yields_lift, Program.yields_require]
    exact Program.yields_of_forall fun data _ => fresh seen _

theorem yields_close {post : Unit × Registry → Prop}
    (kept : ∀ i, g.inodes[id]? = some i → 1 < i.openers → i.denials ≤ i.openers - 1 →
      post ((), g.withInode id { i with openers := i.openers - 1 }))
    (last : ∀ i, g.inodes[id]? = some i → i.openers = 1 → i.denials = 0 →
      post ((), (g.withInode id { i with openers := 0 }).without i.home)) :
    ((close id).run g).Yields post := by
  simp only [close, StateT.run_bind, Program.yields_bind, yields_inode, Program.yields_lift,
    Program.yields_ofExcept, run_put, Program.yields_pure]
  intro i found i' dropped
  obtain ⟨positive, spare, rfl⟩ := Inode.dropOpener_eq_ok dropped
  by_cases one : i.openers = 1
  · have none_left : i.openers - 1 = 0 := by omega
    simp only [none_left, if_true, StateT.run_bind, StateT.run_modify, Program.yields_bind,
      Program.yields_pure]
    have undenied : i.denials = 0 := by omega
    split
    · exact Program.yields_lift.mpr (Program.yields_of_forall fun _ => last i found one undenied)
    · exact last i found one undenied
  · have some_left : i.openers - 1 ≠ 0 := by omega
    simp only [some_left, if_false, StateT.run_pure, Program.yields_pure]
    exact kept i found (by omega) spare

theorem yields_remove : ((remove id).run g).Yields fun (_, g') => g.TunedAt id g' := by
  simp only [remove, StateT.run_bind, Program.yields_bind, yields_inode, run_put,
    Program.yields_pure]
  exact fun i found => tunedAt_withInode found ⟨rfl, rfl, fun bound => bound⟩

theorem yields_forbid : ((forbid id).run g).Yields fun (_, g') => g.TunedAt id g' := by
  simp only [forbid, StateT.run_bind, Program.yields_bind, yields_inode, Program.yields_lift,
    Program.yields_ofExcept, run_put, Program.yields_pure]
  exact fun i found i' done => tunedAt_withInode found (Inode.tuned_of_forbid done)

theorem yields_permit : ((permit id).run g).Yields fun (_, g') => g.TunedAt id g' := by
  simp only [permit, StateT.run_bind, Program.yields_bind, yields_inode, Program.yields_lift,
    Program.yields_ofExcept, run_put, Program.yields_pure]
  exact fun i found i' done => tunedAt_withInode found (Inode.tuned_of_permit done)

theorem yields_locate (offset count : Nat) (forWrite : Bool) :
    ((locate id offset count forWrite).run g).Yields fun (_, g') => g.TunedAt id g' := by
  simp only [locate, StateT.run_bind, Program.yields_bind, yields_inode]
  intro i found
  split
  · simp only [StateT.run_bind, Program.yields_bind, Program.yields_lift, run_put,
      Program.yields_pure, StateT.run_pure]
    exact Program.yields_of_forall fun _ => tunedAt_withInode found ⟨rfl, rfl, fun bound => bound⟩
  · exact Program.yields_lift.mpr (Program.yields_of_forall fun _ => .refl g id)

theorem yields_read (offset count : Nat) :
    ((read id offset count).run g).Yields fun (_, g') => g.TunedAt id g' := by
  simp only [read, StateT.run_bind, Program.yields_bind, yields_inode, Program.yields_lift]
  exact fun i found => Program.yields_of_forall fun _ => .refl g id

theorem yields_write (offset : Nat) (data : List UInt8) :
    ((write id offset data).run g).Yields fun (_, g') => g.TunedAt id g' := by
  simp only [write, StateT.run_bind, Program.yields_bind, yields_inode]
  intro i found
  split
  · exact .refl g id
  · simp only [StateT.run_bind, Program.yields_bind, Program.yields_lift, run_put,
      Program.yields_pure, StateT.run_pure]
    exact Program.yields_of_forall fun _ => tunedAt_withInode found ⟨rfl, rfl, fun bound => bound⟩

end Yields

end Registry

theorem yields_wrap {β : Type} {g : Registry} {wrap : β → Answer} {act : Filing β}
    {post : Answer × Registry → Prop} :
    ((do return wrap (← act) : Filing Answer).run g).Yields post ↔
      (act.run g).Yields fun (b, g') => post (wrap b, g') := by
  simp only [StateT.run_bind, Program.yields_bind, StateT.run_pure, Program.yields_pure]

end InodeVolume
