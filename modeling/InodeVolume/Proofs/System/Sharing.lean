import InodeVolume.Proofs.System.Changes

/-!
# Sharing of inodes

Three things are kept apart: the entries of the registry, the openers that each inode
counts, and the handles in the hands of those who opened something. They agree when all
handles that are out for a sector lead to the one inode that the registry has for it, and
that inode has as many openers as there are such handles. Opening and closing keep it so.
-/

namespace InodeVolume

/-- Handles that were given out and not closed since, and the sectors they were given for. -/
structure Outstanding where
  handles : Finset Nat := ∅
  home : Nat → Sector := fun _ => Sector.null

namespace Outstanding

variable {o : Outstanding} {handle : Nat} {home : Sector}

def handlesAt (o : Outstanding) (home : Sector) : Finset Nat := {h ∈ o.handles | o.home h = home}

def homes (o : Outstanding) : Finset Sector := o.handles.image o.home

def give (o : Outstanding) (handle : Nat) (home : Sector) : Outstanding where
  handles := insert handle o.handles
  home := Function.update o.home handle home

def take (o : Outstanding) (handle : Nat) : Outstanding :=
  { o with handles := o.handles.erase handle }

theorem mem_handlesAt : handle ∈ o.handlesAt home ↔ handle ∈ o.handles ∧ o.home handle = home :=
  Finset.mem_filter

theorem mem_homes : home ∈ o.homes ↔ (o.handlesAt home).Nonempty := by
  simp only [homes, Finset.mem_image, Finset.Nonempty, mem_handlesAt]

@[simp] theorem home_give_self : (o.give handle home).home handle = home := Function.update_self ..

@[simp] theorem home_take : (o.take handle).home = o.home := rfl

theorem home_give {h : Nat} (new : handle ∉ o.handles) (member : h ∈ o.handles) :
    (o.give handle home).home h = o.home h :=
  Function.update_of_ne (ne_of_mem_of_not_mem member new) ..

theorem handlesAt_give (new : handle ∉ o.handles) (s : Sector) :
    (o.give handle home).handlesAt s =
      if s = home then insert handle (o.handlesAt s) else o.handlesAt s := by
  ext h
  by_cases same : h = handle
  · subst same
    have unlisted : h ∉ o.handlesAt s := fun member => new (mem_handlesAt.mp member).1
    split <;> simp_all [mem_handlesAt, give, eq_comm]
  · split <;> simp_all [mem_handlesAt, give]

theorem handlesAt_take (handle : Nat) (s : Sector) :
    (o.take handle).handlesAt s = (o.handlesAt s).erase handle := by
  ext h
  simp only [mem_handlesAt, take, Finset.mem_erase, and_assoc]

end Outstanding

namespace Registry

variable {g g' : Registry} {names : Nat → Option InodeId} {o : Outstanding} {id : InodeId}
  {i : Inode} {home : Sector} {n : Nat}

/-- The handles that are out lead to inodes that the registry has, each of which has as many
openers as handles. -/
structure Shares (g : Registry) (names : Nat → Option InodeId) (o : Outstanding) : Prop where
  named {h : Nat} : h ∈ o.handles → ∃ id, names h = some id ∧ g.opened[o.home h]? = some id
  inode {home : Sector} {id : InodeId} : g.opened[home]? = some id → ∃ i, g.inodes[id]? = some i ∧
    i.home = home ∧ i.openers = (o.handlesAt home).card ∧ 1 ≤ i.openers ∧ i.denials ≤ i.openers

namespace Shares

theorem empty (names : Nat → Option InodeId) : Shares {} names {} where
  named member := absurd member (Finset.notMem_empty _)
  inode seen := by simp at seen

theorem notMem (h : g.Shares names o) (unnamed : names n = none) : n ∉ o.handles := by
  intro member
  obtain ⟨id, named, _⟩ := h.named member
  rw [unnamed] at named
  cases named

theorem home_unique (h : g.Shares names o) {home' : Sector} (seen : g.opened[home]? = some id)
    (seen' : g.opened[home']? = some id) : home = home' := by
  obtain ⟨i, found, rfl, _⟩ := h.inode seen
  obtain ⟨i', found', rfl, _⟩ := h.inode seen'
  rw [found] at found'
  cases found'
  rfl

theorem isSome_iff (h : g.Shares names o) (home : Sector) :
    g.opened[home]?.isSome ↔ (o.handlesAt home).Nonempty := by
  constructor
  · intro entered
    obtain ⟨id, seen⟩ := Option.isSome_iff_exists.mp entered
    obtain ⟨i, _, _, count, positive, _⟩ := h.inode seen
    exact Finset.card_pos.mp (count ▸ positive)
  · rintro ⟨n, member⟩
    obtain ⟨out, rfl⟩ := Outstanding.mem_handlesAt.mp member
    obtain ⟨id, _, seen⟩ := h.named out
    exact Option.isSome_of_eq_some seen

/-- The registry has as many entries as there are sectors with handles. -/
theorem openCount_eq (h : g.Shares names o) : g.openCount = o.homes.card := by
  have distinct : g.opened.keys.Nodup :=
    Std.TreeMap.distinct_keys.imp fun differ => mt Nat.compare_eq_eq.mpr differ
  have keys : g.opened.keys.toFinset = o.homes := by
    ext home
    rw [List.mem_toFinset, Std.TreeMap.mem_keys, Std.TreeMap.mem_iff_isSome_getElem?, h.isSome_iff,
      Outstanding.mem_homes]
  rw [openCount, ← Std.TreeMap.length_keys, ← List.toFinset_card_of_nodup distinct, keys]

theorem tuned (h : g.Shares names o) (tuned : g.Tuned g') : g'.Shares names o where
  named member := by
    rw [tuned.opened]
    exact h.named member
  inode seen := by
    rw [tuned.opened] at seen
    obtain ⟨i, found, rfl, count, positive, denied⟩ := h.inode seen
    obtain ⟨i', found', change⟩ := tuned.inode found
    rw [← change.openers] at count positive
    exact ⟨i', found', change.home, count, positive, change.denials denied⟩

/-- An inode at hand gets an opener more with a new handle. -/
theorem join (h : g.Shares names o) (seen : g.opened[home]? = some id)
    (found : g.inodes[id]? = some i) (unnamed : names n = none) :
    (g.withInode id i.addOpener).Shares (Function.update names n (some id)) (o.give n home) where
  named {m} member := by
    by_cases same : m = n
    · subst same
      exact ⟨id, Function.update_self .., by rwa [Outstanding.home_give_self]⟩
    · have member : m ∈ o.handles := Finset.mem_of_mem_insert_of_ne member same
      rw [Function.update_of_ne same, Outstanding.home_give (h.notMem unnamed) member]
      exact h.named member
  inode {home' id'} seen' := by
    obtain ⟨i', found', rfl, count, positive, denied⟩ := h.inode seen'
    have new := h.notMem unnamed
    rw [getElem?_withInode found, Outstanding.handlesAt_give new]
    split
    next same =>
      subst same
      rw [found] at found'
      cases found'
      rw [if_pos (h.home_unique seen' seen), Finset.card_insert_of_notMem, ← count]
      · exact ⟨_, rfl, rfl, rfl, by simp [Inode.addOpener], Nat.le_succ_of_le denied⟩
      · exact fun member => new (Outstanding.mem_handlesAt.mp member).1
    next differ =>
      have elsewhere : i'.home ≠ home := by
        rintro rfl
        rw [opened_withInode, seen] at seen'
        exact differ (Option.some.inj seen').symm
      rw [if_neg elsewhere]
      exact ⟨i', found', rfl, count, positive, denied⟩

/-- A sector for which nothing is out gets an inode of its own. -/
theorem enter (h : g.Shares names o) (unseen : g.opened[home]? = none) (unnamed : names n = none)
    (record : Record) : (g.entered home record).Shares
      (Function.update names n (some g.inodes.size)) (o.give n home) where
  named {m} member := by
    simp only [entered, Std.TreeMap.getElem?_insert, Nat.compare_eq_eq]
    by_cases same : m = n
    · subst same
      exact ⟨_, Function.update_self .., by rw [Outstanding.home_give_self, if_pos rfl]⟩
    · have member : m ∈ o.handles := Finset.mem_of_mem_insert_of_ne member same
      rw [Function.update_of_ne same, Outstanding.home_give (h.notMem unnamed) member]
      obtain ⟨id, named, seen⟩ := h.named member
      have elsewhere : home ≠ o.home m := by
        rintro rfl
        rw [unseen] at seen
        cases seen
      exact ⟨id, named, by rwa [if_neg elsewhere]⟩
  inode {home' id'} seen' := by
    have new := h.notMem unnamed
    have empty : o.handlesAt home = ∅ :=
      Finset.not_nonempty_iff_eq_empty.mp (by simp [← h.isSome_iff, unseen])
    simp only [entered, Std.TreeMap.getElem?_insert, Nat.compare_eq_eq] at seen'
    rw [Outstanding.handlesAt_give new]
    split at seen'
    next same =>
      subst same
      cases seen'
      exact ⟨_, Array.getElem?_push_size, rfl, by simp [empty], Nat.le_refl 1, Nat.zero_le _⟩
    next differ =>
      obtain ⟨i, found, rfl, rest⟩ := h.inode seen'
      have inside : id' < g.inodes.size := (Array.getElem?_eq_some_iff.mp found).1
      rw [if_neg (Ne.symm differ)]
      exact ⟨i, by rwa [entered, Array.getElem?_push, if_neg (Nat.ne_of_lt inside)], rfl, rest⟩

theorem handlesAt_take_of_ne (differ : home ≠ o.home n) :
    (o.take n).handlesAt home = o.handlesAt home := by
  rw [Outstanding.handlesAt_take]
  exact Finset.erase_eq_of_notMem fun member => differ (Outstanding.mem_handlesAt.mp member).2.symm

theorem card_handlesAt_take (out : n ∈ o.handles) :
    ((o.take n).handlesAt (o.home n)).card = (o.handlesAt (o.home n)).card - 1 := by
  rw [Outstanding.handlesAt_take]
  exact Finset.card_erase_of_mem (Outstanding.mem_handlesAt.mpr ⟨out, rfl⟩)

theorem leave (h : g.Shares names o) (out : n ∈ o.handles) (seen : g.opened[o.home n]? = some id)
    (found : g.inodes[id]? = some i) (others : 1 < i.openers) (spare : i.denials ≤ i.openers - 1) :
    (g.withInode id { i with openers := i.openers - 1 }).Shares names (o.take n) where
  named member := h.named (Finset.mem_of_mem_erase member)
  inode {home' id'} seen' := by
    obtain ⟨i', found', rfl, count, positive, denied⟩ := h.inode seen'
    rw [getElem?_withInode found]
    split
    next same =>
      subst same
      rw [found] at found'
      cases found'
      have here : i.home = o.home n := h.home_unique seen' seen
      rw [here, card_handlesAt_take out, ← here, ← count]
      exact ⟨_, rfl, rfl, rfl, Nat.le_sub_one_of_lt others, spare⟩
    next differ =>
      have elsewhere : i'.home ≠ o.home n := by
        intro here
        rw [opened_withInode, here, seen] at seen'
        exact differ (Option.some.inj seen').symm
      rw [handlesAt_take_of_ne elsewhere]
      exact ⟨i', found', rfl, count, positive, denied⟩

/-- With the last handle the entry goes, and so the next one to open the sector starts anew. -/
theorem last (h : g.Shares names o) (out : n ∈ o.handles) (seen : g.opened[o.home n]? = some id)
    (found : g.inodes[id]? = some i) (one : i.openers = 1) (i' : Inode) :
    ((g.withInode id i').without (o.home n)).Shares names (o.take n) where
  named {m} member := by
    obtain ⟨id', named, seen'⟩ := h.named (Finset.mem_of_mem_erase member)
    have elsewhere : o.home n ≠ o.home m := by
      intro here
      obtain ⟨j, found', _, count, _⟩ := h.inode seen
      rw [found] at found'
      cases found'
      have only := Finset.card_eq_one.mp (count.symm.trans one)
      obtain ⟨k, only⟩ := only
      have left : n ∈ ({k} : Finset Nat) := only ▸ Outstanding.mem_handlesAt.mpr ⟨out, rfl⟩
      have right : m ∈ ({k} : Finset Nat) :=
        only ▸ Outstanding.mem_handlesAt.mpr ⟨Finset.mem_of_mem_erase member, here.symm⟩
      rw [Finset.mem_singleton] at left right
      exact Finset.ne_of_mem_erase member (right.trans left.symm)
    refine ⟨id', named, ?_⟩
    simp only [Outstanding.home_take, without, withInode, Std.TreeMap.getElem?_erase,
      Nat.compare_eq_eq]
    rwa [if_neg elsewhere]
  inode {home' id'} seen' := by
    simp only [without, withInode, Std.TreeMap.getElem?_erase, Nat.compare_eq_eq] at seen'
    split at seen'
    next => cases seen'
    next elsewhere =>
      have differ : id' ≠ id := by
        rintro rfl
        exact elsewhere (h.home_unique seen seen')
      rw [handlesAt_take_of_ne (Ne.symm elsewhere)]
      obtain ⟨j, found', rest⟩ := h.inode seen'
      refine ⟨j, ?_, rest⟩
      rw [without, getElem?_withInode found, if_neg differ]
      exact found'

end Shares

end Registry

end InodeVolume
