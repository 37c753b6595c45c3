import InodeVolume.Proofs.System.Openings

/-!
# Steps of a file system

A volume and a registry stand for an archive. Each operation of the registry that
is in order returns, gives a right answer and leaves what stands for the archive
after it.
-/

namespace InodeVolume

variable {α : Type} [Allocator α] [MappedAllocator α] {v w : Flat α} {g : Registry} {a : Archive}
  {id : InodeId} {o : Opening} {home : Sector}

structure Represents (v : Flat α) (g : Registry) (a : Archive) : Prop where
  keeps : v.Keeps a
  matched : g.Matches v a

structure Answered (a : Archive) (op : Operation) (answer : Answer) (v : Flat α) (g : Registry) :
    Prop where
  admitted : a.Admits op answer
  represents : Represents v g (a.next op answer)

/-- What an operation does with registry and volume. Those that only move data between cache
and device do nothing with either. -/
def Operation.filing : Operation → Filing Answer
  | .allocate => do return .sector (← Program.allocate)
  | .create home length kind => do return .created (← Record.create home length kind)
  | .openAt home => do return .opened (← Registry.openAt home)
  | .reopen id => do return .opened (← Registry.reopen id)
  | .close id => do
    Registry.close id
    return .nothing
  | .remove id => do
    Registry.remove id
    return .nothing
  | .forbid id => do
    Registry.forbid id
    return .nothing
  | .permit id => do
    Registry.permit id
    return .nothing
  | .read id offset count => do return .bytes (← Registry.read id offset count)
  | .write id offset data => do return .written (← Registry.write id offset data)
  | .locate id offset count forWrite => do
    return .located (← Registry.locate id offset count forWrite)
  | .sync | .drain | .flush _ | .prefetch _ => return .nothing

/-- What an operation does with the cache alone. -/
def Operation.moving {δ : Type} [Device δ] : Operation → Action (Cache δ) Unit
  | .sync | .drain => Cache.drain
  | .flush s => Cache.flush s
  | .prefetch s => Cache.prefetch s
  | .allocate | .create .. | .openAt _ | .reopen _ | .close _ | .remove _ | .forbid _ | .permit _
  | .read .. | .write .. | .locate .. => return

omit [MappedAllocator α] in
theorem returns_wrap {β : Type} {wrap : β → Answer} {act : Filing β}
    {post : Answer × Registry → Flat α → Prop} :
    ((do return wrap (← act) : Filing Answer).run g).Returns v post ↔
      (act.run g).Returns v fun (b, g') w => post (wrap b, g') w := by
  simp only [StateT.run_bind, Program.returns_bind, StateT.run_pure, Program.returns_pure]

namespace Represents

theorem withOpening (h : Represents v g a) (found : a.openings id = some o) (o' : Opening)
    (home : o'.home = o.home) (counts : 0 < o'.openers ∧ o'.denials ≤ o'.openers) :
    Represents v (g.withInode id (o'.inode (v.recordAt o'.home))) (a.withOpening id o') where
  keeps := h.keeps.withOpenings _
  matched := h.matched.update found home counts rfl (fun _ _ => h.matched.live) fun _ _ _ _ => rfl

theorem returns_reopen (h : Represents v g a) (inUse : (a.openings id).isSome) :
    ((Registry.reopen id).run g).Returns v fun (id', g') w =>
      Answered a (.reopen id) (.opened id') w g' := by
  obtain ⟨o, found⟩ := Option.isSome_iff_exists.mp inUse
  have denials := (h.matched.counts found).2
  simp only [Registry.reopen, StateT.run_bind, Program.returns_bind,
    Registry.returns_inode (h.matched.inode found), Registry.run_put, Program.returns_pure,
    StateT.run_pure]
  refine ⟨rfl, ?_⟩
  rw [Archive.next, Archive.opening_of_some found]
  exact h.withOpening found { o with openers := o.openers + 1 } rfl
    ⟨Nat.succ_pos _, Nat.le_succ_of_le denials⟩

theorem returns_remove (h : Represents v g a) (inUse : (a.openings id).isSome) :
    ((Registry.remove id).run g).Returns v fun (_, g') w =>
      Answered a (.remove id) .nothing w g' := by
  obtain ⟨o, found⟩ := Option.isSome_iff_exists.mp inUse
  simp only [Registry.remove, StateT.run_bind, Program.returns_bind,
    Registry.returns_inode (h.matched.inode found), Registry.run_put, Program.returns_pure]
  refine ⟨trivial, ?_⟩
  rw [Archive.next, Archive.opening_of_some found]
  obtain ⟨openers, denials⟩ := h.matched.counts found
  exact h.withOpening found { o with removed := true } rfl ⟨openers, denials⟩

theorem returns_forbid (h : Represents v g a) (inUse : (a.openings id).isSome)
    (spare : (a.opening id).denials < (a.opening id).openers) :
    ((Registry.forbid id).run g).Returns v fun (_, g') w =>
      Answered a (.forbid id) .nothing w g' := by
  obtain ⟨o, found⟩ := Option.isSome_iff_exists.mp inUse
  rw [Archive.opening_of_some found] at spare
  simp only [Registry.forbid, StateT.run_bind, Program.returns_bind,
    Registry.returns_inode (h.matched.inode found), Program.returns_lift, Program.returns_ofExcept,
    Opening.forbid_inode spare, Except.ok.injEq, exists_eq_left', Registry.run_put,
    Program.returns_pure]
  refine ⟨trivial, ?_⟩
  rw [Archive.next, Archive.opening_of_some found]
  exact h.withOpening found { o with denials := o.denials + 1 } rfl
    ⟨(h.matched.counts found).1, spare⟩

theorem returns_permit (h : Represents v g a) (inUse : (a.openings id).isSome)
    (denied : 0 < (a.opening id).denials) :
    ((Registry.permit id).run g).Returns v fun (_, g') w =>
      Answered a (.permit id) .nothing w g' := by
  obtain ⟨o, found⟩ := Option.isSome_iff_exists.mp inUse
  rw [Archive.opening_of_some found] at denied
  obtain ⟨openers, denials⟩ := h.matched.counts found
  simp only [Registry.permit, StateT.run_bind, Program.returns_bind,
    Registry.returns_inode (h.matched.inode found), Program.returns_lift, Program.returns_ofExcept,
    Opening.permit_inode denied denials, Except.ok.injEq, exists_eq_left', Registry.run_put,
    Program.returns_pure]
  refine ⟨trivial, ?_⟩
  rw [Archive.next, Archive.opening_of_some found]
  exact h.withOpening found { o with denials := o.denials - 1 } rfl
    ⟨openers, Nat.le_trans (Nat.sub_le _ _) denials⟩

theorem returns_openAt (h : Represents v g a) (live : home ∈ a.live) :
    ((Registry.openAt home).run g).Returns v fun (id, g') w =>
      Answered a (.openAt home) (.opened id) w g' := by
  simp only [Registry.openAt, StateT.run_bind, StateT.run_get, Program.returns_bind,
    Program.returns_pure]
  cases seen : g.opened[home]? with
  | some id =>
    obtain ⟨o, found, rfl⟩ := h.matched.opened.mp seen
    have inUse : (a.openings id).isSome := by rw [found]; rfl
    refine (h.returns_reopen inUse).mono ?_
    rintro ⟨id', g'⟩ w ⟨same, represents⟩
    obtain rfl : id' = id := same
    refine ⟨fun id'' o' found' => ⟨fun home => h.matched.unique found' found home, ?_⟩, ?_⟩
    · rintro rfl
      rw [found, Option.some.injEq] at found'
      rw [found']
    · rw [Archive.next, Archive.opening_of_some found] at represents
      rw [Archive.next_openAt_of_some found]
      exact represents
  | none =>
    have shows := h.keeps.files live
    have inside : home < v.limit := h.keeps.ready.lt_limit shows.stores.home_used
    have kind : (Kind.ofTag? (Record.decode (v.content home)).tag).isSome := shows.stores.sound.kind
    simp only [StateT.run_bind, Program.returns_bind, Program.returns_lift, Program.returns_read,
      Program.returns_require, inside, kind, true_and, Registry.enter, StateT.run_get,
      StateT.run_set, StateT.run_pure, Program.returns_pure]
    refine ⟨fun id o found => ⟨fun same => ?_, fun new => ?_⟩, ?_⟩
    · have opened := h.matched.opened.mpr ⟨o, found, same⟩
      rw [seen] at opened
      cases opened
    · rw [new, h.matched.fresh] at found
      cases found
    · rw [Archive.next_openAt_of_none h.matched.fresh]
      exact ⟨h.keeps.withOpenings _, h.matched.enter seen live⟩

theorem nothing (h : Represents v g a) (exchanged : v.Exchanged [] w []) : Represents w g a where
  keeps := h.keeps.nothing exchanged
  matched := h.matched.frame rfl (fun _ _ => h.matched.live) fun id o found => by
    have used := (h.keeps.files (h.matched.live found)).stores.home_used
    rw [Flat.recordAt, exchanged.content used List.not_mem_nil, Flat.recordAt]

/-- What is done for a sector without a file cannot be seen by those who have one open. -/
theorem exchange (h : Represents v g a) (dead : home ∉ a.live) {a' : Archive}
    (exchanged : v.Exchanged (v.holding a home) w (w.holding a' home))
    (same : a.SameBut home a') (openings : a'.openings = a.openings) (kept : a.live ⊆ a'.live)
    (disjoint : Disjoint a'.granted a'.live)
    (here : home ∈ a'.live → w.Shows home (a'.file home)) : Represents w g a' where
  keeps := h.keeps.exchange exchanged same disjoint here
  matched := h.matched.frame openings (fun _ _ found => kept (h.matched.live found))
    fun id o found => by
      have live := h.matched.live found
      exact (h.keeps.frame exchanged live (ne_of_mem_of_not_mem live dead)).2.1

theorem returns_create (h : Represents v g a) (granted : home ∈ a.granted) (length : Nat)
    (kind : Kind) :
    ((liftM (Record.create home length kind) : Filing _).run g).Returns v fun (result, g') w =>
      Answered a (.create home length kind) (.created result) w g' := by
  have dead : home ∉ a.live := Finset.disjoint_left.mp h.keeps.disjoint granted
  have holding := Flat.holding_granted (v := v) dead granted
  have member : home ∈ v.holding a home := Flat.mem_holding_self.mpr (.inr granted)
  rw [Program.returns_lift]
  refine Record.returns_create h.keeps.ready (h.keeps.ne_null member) (h.keeps.used member) ?_ ?_ ?_
  · intro large
    exact ⟨(if_pos large).symm, h⟩
  · intro w unchanged bound few
    rw [h.keeps.free] at few
    refine ⟨?_, h.nothing unchanged⟩
    rw [Archive.Admits, if_neg (Nat.not_lt.mpr bound), if_pos few]
  · intro r w stores exchanged bound fits tag bytes
    rw [h.keeps.free] at fits
    refine ⟨?_, ?_⟩
    · rw [Archive.Admits, if_neg (Nat.not_lt.mpr bound), if_neg (Nat.not_lt.mpr fits)]
    have after : w.holding (a.next (.create home length kind) (.created (.ok ()))) home =
        r.owned w.content home := by
      rw [Flat.holding_live (by simp [Archive.next]), Flat.ownedAt, Flat.recordAt, stores.record]
    rw [← holding, ← after] at exchanged
    have same : a.SameBut home (a.next (.create home length kind) (.created (.ok ()))) := by
      refine ⟨rfl, rfl, ?_, ?_, ?_⟩ <;> intro s other <;> simp [Archive.next, other]
    refine h.exchange dead exchanged same rfl (Finset.subset_insert _ _) ?_ fun _ => ?_
    · simp only [Archive.next, Finset.disjoint_insert_right, Finset.notMem_erase, not_false_eq_true,
        true_and]
      exact h.keeps.disjoint.mono_left (Finset.erase_subset _ _)
    · simp only [Archive.next, Function.update_self]
      exact .of_stores stores tag bytes

theorem returns_allocate (h : Represents v g a) :
    Program.allocate.Returns v fun s w => Answered a .allocate (.sector s) w g := by
  refine (Flat.Exchanged.refl h.keeps.ready List.nodup_nil (by simp)).returns_allocate ?_ ?_
  · intro w unchanged _ empty
    have counted := unchanged.free
    have full : a.free = 0 := by
      rw [← h.keeps.free]
      simpa [empty] using counted.symm
    exact ⟨full, h.nothing unchanged⟩
  · intro s w exchanged _ unused
    have unheld (home : Sector) : s ∉ v.holding a home := by
      intro member
      rw [h.keeps.used member] at unused
      cases unused
    obtain ⟨dead, denied⟩ := not_or.mp (mt Flat.mem_holding_self.mpr (unheld s))
    have before : v.holding a s = [] := Flat.holding_none dead denied
    have after : w.holding (a.next .allocate (.sector (some s))) s = [s] :=
      Flat.holding_granted dead (by simp [Archive.next])
    have member : s ∈ ([] ++ [s] : List Sector) := by simp
    have inside := exchanged.lt_capacity member
    have counted := exchanged.free
    rw [h.keeps.capacity] at inside
    rw [h.keeps.free, List.nil_append, List.length_singleton, List.length_nil] at counted
    have exchanged : v.Exchanged (v.holding a s) w
        (w.holding (a.next .allocate (.sector (some s))) s) := by
      rw [before, after]
      exact exchanged
    refine ⟨⟨by omega, ?_, inside, denied, dead⟩, ?_⟩
    · by_contra low
      rw [(h.keeps.isAllocated s).mpr (.inl (Nat.lt_of_not_le low))] at unused
      cases unused
    · have same : a.SameBut s (a.next .allocate (.sector (some s))) := by
        refine ⟨rfl, rfl, fun _ => Iff.rfl, fun other => ?_, fun _ => rfl⟩
        simp [Archive.next, other]
      refine h.exchange dead exchanged same rfl subset_rfl ?_ fun live => absurd live dead
      simp only [Archive.next, Finset.disjoint_insert_left]
      exact ⟨dead, h.keeps.disjoint⟩

theorem returns_read (h : Represents v g a) (inUse : (a.openings id).isSome) (offset count : Nat) :
    ((Registry.read id offset count).run g).Returns v fun (bytes, g') w =>
      Answered a (.read id offset count) (.bytes bytes) w g' := by
  obtain ⟨o, found⟩ := Option.isSome_iff_exists.mp inUse
  have shows := h.keeps.files (h.matched.live found)
  simp only [Registry.read, StateT.run_bind, Program.returns_bind,
    Registry.returns_inode (h.matched.inode found), Program.returns_lift]
  refine (shows.stores.sound.returns_read (shows.stores.holds h.keeps.ready)).mpr ⟨?_, h⟩
  rw [Archive.Admits, Archive.fileOf_of_some found, shows.bytes]

theorem rewritten (h : Represents v g a) (found : a.openings id = some o) {r : Record}
    (rewritten : v.Rewritten o.home (v.recordAt o.home) w r) {bytes : List UInt8}
    (same : r.bytes w.content = bytes) :
    Represents w (g.withInode id (o.inode r)) (a.withBytes id bytes) := by
  have live := h.matched.live found
  have shows := h.keeps.files live
  have record : w.recordAt o.home = r := rewritten.stores.record
  have before : v.holding a o.home = (v.recordAt o.home).owned v.content o.home :=
    Flat.holding_live live
  have after : w.holding (a.withBytes id bytes) o.home = r.owned w.content o.home := by
    have live' : o.home ∈ (a.withBytes id bytes).live := live
    rw [Flat.holding_live live', Flat.ownedAt, record]
  have exchanged : v.Exchanged (v.holding a o.home) w (w.holding (a.withBytes id bytes) o.home) := by
    rw [before, after]
    exact rewritten.exchanged
  have file (s : Sector) : (a.withBytes id bytes).file s =
      if s = o.home then ⟨(a.file o.home).kind, bytes⟩ else a.file s := by
    simp only [Archive.withBytes, Archive.fileOf, Archive.opening_of_some found,
      Function.update_apply]
  constructor
  · refine h.keeps.exchange exchanged ⟨rfl, rfl, fun _ => Iff.rfl, fun _ => Iff.rfl, fun other => ?_⟩
      h.keeps.disjoint fun _ => ?_
    · rw [file, if_neg other]
    · rw [file, if_pos rfl]
      exact .of_stores rewritten.stores (rewritten.tag.trans shows.tag) same
  · have unchanged : a.openings = Function.update a.openings id (some o) := by
      rw [← found, Function.update_eq_self]
    rw [← record]
    refine h.matched.update found rfl (h.matched.counts found) unchanged
      (fun _ _ => h.matched.live) fun id' o' found' other => ?_
    have apart : o'.home ≠ o.home := fun same => other (h.matched.unique found' found same)
    exact (h.keeps.frame exchanged (h.matched.live found') apart).2.1

theorem withBytes_self (a : Archive) (id : InodeId) : a.withBytes id (a.fileOf id).bytes = a := by
  have same : Function.update a.file (a.opening id).home (a.fileOf id) = a.file :=
    Function.update_eq_self _ _
  rw [Archive.withBytes, same]

theorem returns_write (h : Represents v g a) (inUse : (a.openings id).isSome) (offset : Nat)
    (data : List UInt8) :
    ((Registry.write id offset data).run g).Returns v fun (count, g') w =>
      Answered a (.write id offset data) (.written count) w g' := by
  obtain ⟨o, found⟩ := Option.isSome_iff_exists.mp inUse
  have shows := h.keeps.files (h.matched.live found)
  simp only [Registry.write, StateT.run_bind, Program.returns_bind,
    Registry.returns_inode (h.matched.inode found)]
  by_cases denied : 0 < o.denials
  · have denied' : 0 < (o.inode (v.recordAt o.home)).denials := denied
    rw [if_pos denied']
    refine Program.returns_pure.mpr ⟨?_, ?_⟩
    · rw [Archive.Admits, Archive.opening_of_some found, if_pos denied]
    · rw [Archive.next, List.take_zero, overlay_nil, withBytes_self]
      exact h
  · have allowed : ¬ 0 < (o.inode (v.recordAt o.home)).denials := denied
    rw [if_neg allowed]
    simp only [StateT.run_bind, Program.returns_bind, Program.returns_lift]
    refine shows.stores.returns_write h.keeps.ready fun r w rewritten bytes => ?_
    simp only [Registry.run_put, StateT.run_pure, Program.returns_pure]
    rw [shows.bytes, shows.size, h.keeps.free, ← Archive.fileOf_of_some found] at bytes
    rw [shows.size, h.keeps.free, ← Archive.fileOf_of_some found]
    refine ⟨?_, h.rewritten found rewritten bytes⟩
    rw [Archive.Admits, Archive.opening_of_some found, if_neg denied]

theorem returns_locate (h : Represents v g a) (inUse : (a.openings id).isSome) (offset count : Nat)
    (forWrite : Bool) :
    ((Registry.locate id offset count forWrite).run g).Returns v fun (s, g') w =>
      Answered a (.locate id offset count forWrite) (.located s) w g' ∧
        ∀ t, s = some t → (w.recordAt (a.opening id).home).Leads w.content offset t := by
  obtain ⟨o, found⟩ := Option.isSome_iff_exists.mp inUse
  have shows := h.keeps.files (h.matched.live found)
  have stores := shows.stores
  simp only [Registry.locate, StateT.run_bind, Program.returns_bind,
    Registry.returns_inode (h.matched.inode found)]
  cases forWrite with
  | false =>
    simp only [Bool.false_eq_true, if_false, Program.returns_lift]
    by_cases inside : offset < (v.recordAt o.home).size
    · obtain ⟨p, index, present, at_offset⟩ :=
        stores.sound.returns_sectorAt (stores.holds h.keeps.ready) inside
      refine (at_offset _).mpr ⟨⟨?_, h⟩, ?_⟩
      · rw [shows.size, ← Archive.fileOf_of_some found] at inside
        simp [Archive.Admits, inside]
      · rintro _ ⟨⟩
        rw [Archive.opening_of_some found]
        exact ⟨p, index, present, rfl⟩
    · refine (Record.returns_sectorAt_past (Nat.le_of_not_lt inside)).mpr ⟨⟨?_, h⟩, by simp⟩
      rw [shows.size, ← Archive.fileOf_of_some found] at inside
      simp [Archive.Admits, inside]
  | true =>
    simp only [if_true, StateT.run_bind, Program.returns_bind, Program.returns_lift]
    refine stores.returns_sectorForWrite h.keeps.ready ?_ ?_
    · intro w unchanged past stuck
      simp only [Registry.run_put, StateT.run_pure, Program.returns_pure]
      rw [shows.size, ← Archive.fileOf_of_some found] at past stuck
      rw [h.keeps.free] at stuck
      have bytes : (v.recordAt o.home).bytes w.content = (a.fileOf id).bytes := by
        rw [stores.bytes_eq unchanged fun _ _ => List.not_mem_nil, shows.bytes,
          Archive.fileOf_of_some found]
      have represents := h.rewritten found (.of_nothing stores unchanged) bytes
      rw [withBytes_self] at represents
      refine ⟨⟨?_, represents⟩, by simp⟩
      simp [Archive.Admits, Nat.not_lt.mpr past, stuck]
    · intro p r w index rewritten present extensible size bytes
      simp only [Registry.run_put, StateT.run_pure, Program.returns_pure]
      rw [shows.size, ← Archive.fileOf_of_some found] at extensible size bytes
      rw [h.keeps.free] at extensible
      rw [shows.bytes, size, ← Archive.fileOf_of_some found] at bytes
      refine ⟨⟨?_, h.rewritten found rewritten bytes⟩, ?_⟩
      · simp only [Archive.Admits, Option.isSome_some, true_and, true_iff]
        by_cases inside : offset < (a.fileOf id).size
        · exact .inl inside
        · exact .inr (extensible (Nat.le_of_not_lt inside))
      · rintro _ ⟨⟩
        have record : w.recordAt o.home = r := rewritten.stores.record
        rw [Archive.opening_of_some found, record]
        exact ⟨p, index, present, rfl⟩

theorem closed (h : Represents v g a) (found : a.openings id = some o) (i : Inode) :
    Represents v { g.withInode id i with opened := g.opened.erase o.home }
      { a with openings := Function.update a.openings id none } where
  keeps := h.keeps.withOpenings _
  matched := h.matched.erase found i rfl (fun _ _ found' _ => h.matched.live found')
    fun _ _ _ _ => rfl

/-- The last handle of a removed file is closed, and its sectors are free again. -/
theorem discarded (h : Represents v g a) (found : a.openings id = some o) (i : Inode)
    (exchanged : v.Exchanged ((v.recordAt o.home).owned v.content o.home) w []) :
    Represents w { g.withInode id i with opened := g.opened.erase o.home }
      { a with openings := Function.update a.openings id none, live := a.live.erase o.home } := by
  have live := h.matched.live found
  have denied : o.home ∉ a.granted := Finset.disjoint_right.mp h.keeps.disjoint live
  have before : v.holding a o.home = (v.recordAt o.home).owned v.content o.home :=
    Flat.holding_live live
  have after : w.holding { a with openings := Function.update a.openings id none
                                  live := a.live.erase o.home } o.home = [] :=
    Flat.holding_none (Finset.notMem_erase _ _) denied
  have elsewhere {id' : InodeId} {o' : Opening} (found' : a.openings id' = some o')
      (other : id' ≠ id) : o'.home ≠ o.home :=
    fun same => other (h.matched.unique found' found same)
  rw [← before, ← after] at exchanged
  refine ⟨h.keeps.exchange exchanged ⟨rfl, rfl, ?_, fun _ => Iff.rfl, fun _ => rfl⟩ ?_ ?_,
    h.matched.erase found i rfl ?_ ?_⟩
  · intro s other
    simp [other]
  · exact h.keeps.disjoint.mono_right (Finset.erase_subset _ _)
  · exact fun alive => absurd alive (Finset.notMem_erase _ _)
  · intro id' o' found' other
    exact Finset.mem_erase.mpr ⟨elsewhere found' other, h.matched.live found'⟩
  · intro id' o' found' other
    exact (h.keeps.frame exchanged (h.matched.live found') (elsewhere found' other)).2.1

theorem returns_close (h : Represents v g a) (inUse : (a.openings id).isSome)
    (undenied : (a.opening id).denials < (a.opening id).openers) :
    ((Registry.close id).run g).Returns v fun (_, g') w =>
      Answered a (.close id) .nothing w g' := by
  obtain ⟨o, found⟩ := Option.isSome_iff_exists.mp inUse
  rw [Archive.opening_of_some found] at undenied
  obtain ⟨o', dropped⟩ : ∃ o' : Opening, o' = { o with openers := o.openers - 1 } := ⟨_, rfl⟩
  have done : (o.inode (v.recordAt o.home)).dropOpener = .ok (o'.inode (v.recordAt o.home)) :=
    dropped ▸ Opening.dropOpener_inode undenied _
  have home : o'.home = o.home := by rw [dropped]
  have same_home : (o'.inode (v.recordAt o.home)).home = o.home := home
  have openers : (o'.inode (v.recordAt o.home)).openers = o.openers - 1 := by
    rw [dropped]
    rfl
  have removed : (o'.inode (v.recordAt o.home)).removed = o.removed := by
    rw [dropped]
    rfl
  simp only [Registry.close, StateT.run_bind, Program.returns_bind,
    Registry.returns_inode (h.matched.inode found), Program.returns_lift, Program.returns_ofExcept,
    done, Except.ok.injEq, exists_eq_left', Registry.run_put, Program.returns_pure]
  rw [openers, removed, same_home]
  by_cases last : o.openers = 1
  case neg =>
    rw [if_neg (by omega)]
    refine Program.returns_pure.mpr ⟨trivial, ?_⟩
    have still : 0 < o'.openers ∧ o'.denials ≤ o'.openers := by
      rw [dropped]
      change 0 < o.openers - 1 ∧ o.denials ≤ o.openers - 1
      omega
    rw [Archive.next_close_others found last, ← dropped, ← home]
    exact h.withOpening found o' home still
  have next := Archive.next_close_last found last .nothing
  rw [if_pos (by omega)]
  simp only [StateT.run_bind, StateT.run_modify, Program.returns_bind, Program.returns_pure]
  cases kept : o.removed with
  | false =>
    simp only [Bool.false_eq_true, if_false]
    refine Program.returns_pure.mpr ⟨trivial, ?_⟩
    rw [next, Archive.withoutOpening, Archive.opening_of_some found, kept, if_neg Bool.false_ne_true]
    exact h.closed found _
  | true =>
    have shows := h.keeps.files (h.matched.live found)
    simp only [if_true, Program.returns_lift]
    refine shows.stores.returns_discard h.keeps.ready fun w exchanged _ => ⟨trivial, ?_⟩
    rw [next, Archive.withoutOpening, Archive.opening_of_some found, kept, if_pos rfl]
    exact h.discarded found _ exchanged

/-- Every operation in order returns and is answered well. -/
theorem returns_filing (h : Represents v g a) {op : Operation} (allowed : a.Allows op) :
    (op.filing.run g).Returns v fun (answer, g') w => Answered a op answer w g' := by
  cases op with
  | allocate => exact returns_wrap.mpr (Program.returns_lift.mpr h.returns_allocate)
  | create home length kind => exact returns_wrap.mpr (h.returns_create allowed length kind)
  | openAt home => exact returns_wrap.mpr (h.returns_openAt allowed)
  | reopen id => exact returns_wrap.mpr (h.returns_reopen allowed)
  | close id => exact returns_wrap.mpr (h.returns_close allowed.1 allowed.2)
  | remove id => exact returns_wrap.mpr (h.returns_remove allowed)
  | forbid id => exact returns_wrap.mpr (h.returns_forbid allowed.1 allowed.2)
  | permit id => exact returns_wrap.mpr (h.returns_permit allowed.1 allowed.2)
  | read id offset count => exact returns_wrap.mpr (h.returns_read allowed offset count)
  | write id offset data => exact returns_wrap.mpr (h.returns_write allowed offset data)
  | locate id offset count forWrite =>
    exact returns_wrap.mpr ((h.returns_locate allowed offset count forWrite).mono fun _ _ => And.left)
  | sync | drain | flush | prefetch => exact Program.returns_pure.mpr ⟨trivial, h⟩

end Represents

end InodeVolume
