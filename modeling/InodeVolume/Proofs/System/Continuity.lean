import InodeVolume.Proofs.System.Creation
import InodeVolume.Proofs.System.ShortWrites

/-!
# Continuity

Whatever is done to a file system, a file that outlasts it keeps every pointer that it had:
growth adds to them, growth that fails leaves them alone, and so does all that happens to
other files.
-/

namespace InodeVolume

variable {α : Type} [Allocator α] [MappedAllocator α] {v w : Flat α} {g : Registry}
  {a a' : Archive} {id : InodeId} {o : Opening} {home : Sector} {op : Operation}

/-- The pointers of the file whose record is in sector `home`, those in its tables too. -/
def Flat.linksAt (v : Flat α) (home : Sector) : Links := (v.recordAt home).links v.content

/-- The file in sector `home` has all the pointers that it had before. -/
def Flat.Prolongs (v : Flat α) (home : Sector) (w : Flat α) : Prop :=
  ∀ l, v.linksAt home l ≠ 0 → w.linksAt home l = v.linksAt home l

/-- So have all files that there are before and afterwards. -/
def Flat.Spares (v : Flat α) (a : Archive) (w : Flat α) (a' : Archive) : Prop :=
  ∀ home ∈ a.live, home ∈ a'.live → v.Prolongs home w

omit [Allocator α] [MappedAllocator α] in
theorem Flat.Prolongs.trans {u : Flat α} (h : v.Prolongs home w) (h' : w.Prolongs home u) :
    v.Prolongs home u := by
  intro l present
  have kept := h l present
  rw [h' l (kept.trans_ne present), kept]

omit [Allocator α] [MappedAllocator α] in
/-- Sectors are owned through pointers, so that they stay with the file. -/
theorem Flat.Prolongs.owned (h : v.Prolongs home w) {s : Sector} (member : s ∈ v.ownedAt home) :
    s ∈ w.ownedAt home := by
  rw [ownedAt, Record.owned_eq, List.mem_cons] at member ⊢
  refine member.imp_right fun linked => ?_
  obtain ⟨l, present, rfl⟩ := Links.mem_sectors.mp linked
  have kept := h l present
  exact Links.mem_sectors.mpr ⟨l, kept.trans_ne present, congrArg UInt32.toNat kept⟩

namespace Flat

omit [Allocator α] [MappedAllocator α] in
theorem Spares.refl (v : Flat α) (a a' : Archive) : v.Spares a v a' := fun _ _ _ _ _ => rfl

theorem Rewritten.prolongs (h : v.Rewritten home (v.recordAt home) w (w.recordAt home)) :
    v.Prolongs home w := fun _ present => h.kept present

theorem Stores.prolongs (h : v.Stores home (v.recordAt home)) {before after : List Sector}
    (exchanged : v.Exchanged before w after) (apart : ∀ s ∈ v.ownedAt home, s ∉ before) :
    v.Prolongs home w := by
  have record : w.recordAt home = v.recordAt home := (h.frame exchanged apart).record
  have links := h.links_eq exchanged apart
  intro l _
  rw [linksAt, record, links, linksAt]

/-- A file keeps its pointers in an exchange of sectors that one holder has. -/
theorem Keeps.prolongs (h : v.Keeps a) {after : List Sector}
    (exchanged : v.Exchanged (v.holding a home) w after) {s : Sector} (live : s ∈ a.live)
    (other : s ≠ home) : v.Prolongs s w := by
  refine (h.files live).stores.prolongs exchanged fun t member => ?_
  rw [← holding_live live] at member
  exact h.apart other member

theorem Keeps.spares_of_nothing (h : v.Keeps a) {after : List Sector}
    (exchanged : v.Exchanged [] w after) : v.Spares a w a' :=
  fun _ live _ => (h.files live).stores.prolongs exchanged fun _ _ => List.not_mem_nil

theorem Keeps.spares_of_rewritten (h : v.Keeps a) (live : home ∈ a.live)
    (rewritten : v.Rewritten home (v.recordAt home) w (w.recordAt home)) : v.Spares a w a' := by
  have exchanged := rewritten.exchanged
  rw [← ownedAt, ← holding_live live] at exchanged
  intro s live' _
  by_cases here : s = home
  · exact here ▸ rewritten.prolongs
  · exact h.prolongs exchanged live' here

end Flat

theorem reads_wrap {β : Type} {wrap : β → Answer} {act : Filing β} (h : (act.run g).Reads) :
    ((do return wrap (← act) : Filing Answer).run g).Reads :=
  h.bind fun _ => Program.reads_pure _

namespace Represents

theorem returns_allocate_spares (h : Represents v g a) :
    Program.allocate.Returns v fun _ w => ∀ a', v.Spares a w a' := by
  refine (Flat.Exchanged.refl h.keeps.ready List.nodup_nil (by simp)).returns_allocate ?_ ?_
  · exact fun w unchanged _ _ a' => h.keeps.spares_of_nothing unchanged
  · exact fun s w exchanged _ _ a' => h.keeps.spares_of_nothing exchanged

theorem returns_create_spares (h : Represents v g a) (granted : home ∈ a.granted) (length : Nat)
    (kind : Kind) :
    ((liftM (Record.create home length kind) : Filing _).run g).Returns v fun _ w =>
      ∀ a', v.Spares a w a' := by
  refine (h.returns_create_settles granted length kind).mono ?_
  rintro ⟨result, _⟩ w settles a'
  cases result with
  | error f => exact h.keeps.spares_of_nothing settles
  | ok _ =>
    obtain ⟨r, _, _, exchanged⟩ := settles
    have dead : home ∉ a.live := Finset.disjoint_left.mp h.keeps.disjoint granted
    rw [← Flat.holding_granted dead granted] at exchanged
    exact fun s live _ => h.keeps.prolongs exchanged live (ne_of_mem_of_not_mem live dead)

theorem returns_locate_rewritten (h : Represents v g a) (found : a.openings id = some o)
    (offset count : Nat) (forWrite : Bool) :
    ((Registry.locate id offset count forWrite).run g).Returns v fun _ w =>
      v.Rewritten o.home (v.recordAt o.home) w (w.recordAt o.home) := by
  have stores := (h.keeps.files (h.matched.live found)).stores
  have unchanged := Flat.Rewritten.refl h.keeps.ready stores
  simp only [Registry.locate, StateT.run_bind, Program.returns_bind,
    Registry.returns_inode (h.matched.inode found)]
  cases forWrite with
  | false =>
    simp only [Bool.false_eq_true, if_false, Program.returns_lift]
    by_cases inside : offset < (v.recordAt o.home).size
    · obtain ⟨p, _, _, at_offset⟩ :=
        stores.sound.returns_sectorAt (stores.holds h.keeps.ready) inside
      exact (at_offset _).mpr unchanged
    · exact (Record.returns_sectorAt_past (Nat.le_of_not_lt inside)).mpr unchanged
  | true =>
    simp only [if_true, StateT.run_bind, Program.returns_bind, Program.returns_lift]
    apply stores.returns_sectorForWrite h.keeps.ready
    case stuck =>
      intro w nothing _ _
      have rewritten := Flat.Rewritten.of_nothing stores nothing
      have record : w.recordAt o.home = v.recordAt o.home := rewritten.stores.record
      simp only [Registry.run_put, StateT.run_pure, Program.returns_pure, record]
      exact rewritten
    case done =>
      intro p r w _ rewritten _ _ _ _
      obtain rfl : w.recordAt o.home = r := rewritten.stores.record
      simp only [Registry.run_put, StateT.run_pure, Program.returns_pure]
      exact rewritten

/-- A close gives back all sectors of a removed file, if it is the last one, or changes nothing. -/
theorem returns_close_exchanged (h : Represents v g a) (found : a.openings id = some o)
    (undenied : o.denials < o.openers) :
    ((Registry.close id).run g).Returns v fun _ w =>
      if o.openers = 1 ∧ o.removed = true then v.Exchanged (v.ownedAt o.home) w [] else w = v := by
  have dropped := Opening.dropOpener_inode undenied (v.recordAt o.home)
  have shows := h.keeps.files (h.matched.live found)
  simp only [Registry.close, StateT.run_bind, Program.returns_bind,
    Registry.returns_inode (h.matched.inode found), Program.returns_lift, Program.returns_ofExcept,
    dropped, Except.ok.injEq, exists_eq_left', Registry.run_put, Program.returns_pure]
  by_cases last : o.openers = 1
  · have none_left : o.openers - 1 = 0 := by omega
    simp only [Opening.inode, none_left, if_true, StateT.run_bind, StateT.run_modify,
      Program.returns_bind, Program.returns_pure]
    cases removed : o.removed with
    | false => simp
    | true =>
      simp only [last, and_self, if_true, Program.returns_lift]
      exact shows.stores.returns_discard h.keeps.ready fun w exchanged _ => exchanged
  · have some_left : ¬ o.openers - 1 = 0 := by omega
    simp [Opening.inode, some_left, last]

theorem returns_close_spares (h : Represents v g a) (found : a.openings id = some o)
    (undenied : o.denials < o.openers) :
    ((Registry.close id).run g).Returns v fun _ w =>
      v.Spares a w (a.next (.close id) .nothing) := by
  refine (h.returns_close_exchanged found undenied).mono fun _ w closed => ?_
  split at closed
  next last =>
    have live := h.matched.live found
    rw [← Flat.holding_live live] at closed
    intro s live' still
    refine h.keeps.prolongs closed live' ?_
    rintro rfl
    rw [Archive.live_next_close found last.1 last.2] at still
    exact Finset.notMem_erase _ _ still
  next =>
    rw [closed]
    exact .refl v a _

theorem returns_write_spares (h : Represents v g a) (found : a.openings id = some o)
    (offset : Nat) (data : List UInt8) :
    ((Registry.write id offset data).run g).Returns v fun _ w => ∀ a', v.Spares a w a' := by
  rcases Nat.eq_zero_or_pos o.denials with undenied | denied
  · refine (h.returns_write_rewritten found undenied offset data).mono ?_
    rintro _ w ⟨_, _, rewritten, _⟩ a'
    exact h.keeps.spares_of_rewritten (h.matched.live found) rewritten
  · have forbidden : 0 < (o.inode (v.recordAt o.home)).denials := denied
    simp only [Registry.write, StateT.run_bind, Program.returns_bind,
      Registry.returns_inode (h.matched.inode found), if_pos forbidden]
    exact Program.returns_pure.mpr fun a' => .refl v a a'

/-- Files keep their pointers, whatever operation in order is carried out. -/
theorem returns_filing_spares (h : Represents v g a) (allowed : a.Allows op) :
    (op.filing.run g).Returns v fun (answer, _) w => v.Spares a w (a.next op answer) := by
  have looked (reads : (op.filing.run g).Reads) :
      (op.filing.run g).Returns v fun (answer, _) w => v.Spares a w (a.next op answer) := by
    refine ((h.returns_filing allowed).unchanged reads).mono ?_
    rintro _ w ⟨_, rfl⟩
    exact .refl w a _
  cases op with
  | allocate =>
    exact returns_wrap.mpr (Program.returns_lift.mpr
      (h.returns_allocate_spares.mono fun _ _ spares => spares _))
  | create home length kind =>
    exact returns_wrap.mpr ((h.returns_create_spares allowed length kind).mono
      fun _ _ spares => spares _)
  | close id =>
    obtain ⟨o, found⟩ := Option.isSome_iff_exists.mp allowed.1
    have undenied := allowed.2
    rw [Archive.opening_of_some found] at undenied
    exact returns_wrap.mpr (h.returns_close_spares found undenied)
  | write id offset data =>
    obtain ⟨o, found⟩ := Option.isSome_iff_exists.mp allowed
    exact returns_wrap.mpr ((h.returns_write_spares found offset data).mono
      fun _ _ spares => spares _)
  | locate id offset count forWrite =>
    obtain ⟨o, found⟩ := Option.isSome_iff_exists.mp allowed
    exact returns_wrap.mpr ((h.returns_locate_rewritten found offset count forWrite).mono
      fun _ _ rewritten => h.keeps.spares_of_rewritten (h.matched.live found) rewritten)
  | openAt home => exact looked (reads_wrap (g.reads_openAt home))
  | reopen id => exact looked (reads_wrap (g.reads_reopen id))
  | remove id => exact looked (reads_wrap (g.reads_remove id))
  | forbid id => exact looked (reads_wrap (g.reads_forbid id))
  | permit id => exact looked (reads_wrap (g.reads_permit id))
  | read id offset count => exact looked (reads_wrap (g.reads_read id offset count))
  | sync | drain | flush | prefetch => exact looked (Program.reads_pure _)

end Represents

namespace FileSystem

variable {δ : Type} [Device δ] [LawfulDevice δ] {fs fs' : FileSystem δ α} {answer : Answer}

/-- What an operation in order leaves behind realizes the archive after it, and spares the
files. -/
theorem Realizes.spares (h : fs.Realizes a) (allowed : a.Allows op)
    (done : perform op fs = .ok answer fs') :
    fs'.Realizes (a.next op answer) ∧
      fs.volume.flat.Spares a fs'.volume.flat (a.next op answer) := by
  obtain ⟨⟨answer', g'⟩, w, filed, answered, spares⟩ :=
    (h.represents.returns_filing allowed).and (h.represents.returns_filing_spares allowed)
  obtain ⟨fs'', ran, simulates⟩ := perform_flat h.consistent filed
  rw [done] at ran
  cases ran
  refine ⟨simulates.realizes answered.represents, ?_⟩
  rw [simulates.flat]
  exact spares

end FileSystem

end InodeVolume
