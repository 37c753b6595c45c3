import InodeVolume.Proofs.System.Outcomes
import InodeVolume.Proofs.System.Refinement

/-!
# Denial of writing

While those who have an inode in use forbid writing, nothing that they do with it changes its
file or takes sectors: bytes written are refused, and no other call has an effect on the volume.
The one exception is a sector past the end of the file that is located for writing, by which the
file grows all the same.
-/

namespace InodeVolume

def Operation.Concerns (id : InodeId) (home : Sector) : Operation → Prop
  | .reopen id' | .close id' | .forbid id' | .permit id' | .read id' _ _ | .write id' _ _ |
    .locate id' _ _ _ => id' = id
  | .openAt home' => home' = home
  | _ => False

/-- The answer is not a sector, past the end of a file of `size` bytes, that is to be written. -/
def Answer.Within (size : Nat) : Operation → Answer → Prop
  | .locate _ offset _ true, .located (some _) => offset < size
  | _, _ => True

variable {a : Archive} {id : InodeId} {o : Opening} {op : Operation} {answer : Answer}

theorem Archive.opening_next (found : a.openings id = some o) (denied : 0 < o.denials)
    (concerns : op.Concerns id o.home) (allowed : a.Allows op) (admitted : a.Admits op answer) :
    ∃ o', (a.next op answer).openings id = some o' ∧ o'.home = o.home := by
  have opening := opening_of_some found
  have stays (o' : Opening) : (a.withOpening id o').openings id = some o' := Function.update_self ..
  cases op with
  | openAt =>
    obtain rfl := concerns
    obtain ⟨id', rfl⟩ := admitted.openAt
    obtain rfl : id = id' := (admitted id o found).mp rfl
    rw [next_openAt_of_some found]
    exact ⟨_, stays _, rfl⟩
  | close =>
    obtain rfl := concerns
    have spare := allowed.2
    rw [opening] at spare
    have others : o.openers ≠ 1 := by omega
    rw [next_close_others found others]
    exact ⟨_, stays _, rfl⟩
  | reopen | forbid | permit =>
    obtain rfl := concerns
    exact ⟨_, stays _, by rw [opening]⟩
  | read => exact ⟨o, found, rfl⟩
  | write | locate =>
    unfold next
    split <;> first | exact ⟨o, found, rfl⟩ | contradiction
  | _ => exact concerns.elim

section Returns

variable {α : Type} [Allocator α] [MappedAllocator α] {v : Flat α} {g : Registry}

/-- Those who locate a sector for writing inside the file take nothing, nor do those who get
none. -/
theorem Flat.Stores.returns_sectorForWrite_within {home : Sector} {r : Record} (ready : v.Ready)
    (h : v.Stores home r) (offset count : Nat) :
    (r.sectorForWrite home offset count).Returns v fun (s, _) w =>
      (s.isSome → offset < r.size) → v.Exchanged [] w [] := by
  by_cases inside : offset < r.size
  · obtain ⟨_, _, _, at_offset⟩ := h.sound.returns_sectorAt (h.holds ready) inside
    rw [Record.sectorAt, if_neg (Nat.not_le.mpr inside)] at at_offset
    rw [Record.sectorForWrite, if_pos inside, Program.returns_bind, at_offset]
    exact Program.returns_pure.mpr fun _ => .refl ready List.nodup_nil (by simp)
  · refine h.returns_sectorForWrite ready (fun w kept _ _ _ => kept) ?_
    exact fun _ _ _ _ _ _ _ _ _ within => absurd (within rfl) inside

variable (h : Represents v g a) (found : a.openings id = some o)

include h found

theorem Represents.returns_locate_within (offset count : Nat) (forWrite : Bool) :
    ((Registry.locate id offset count forWrite).run g).Returns v fun (s, _) w =>
      (forWrite → s.isSome → offset < (v.recordAt o.home).size) → v.Exchanged [] w [] := by
  have stores := (h.keeps.files (h.matched.live found)).stores
  have same : v.Exchanged [] v [] := .refl h.keeps.ready List.nodup_nil (by simp)
  simp only [Registry.locate, StateT.run_bind, Program.returns_bind,
    Registry.returns_inode (h.matched.inode found)]
  cases forWrite with
  | false =>
    simp only [Bool.false_eq_true, if_false, Program.returns_lift]
    by_cases inside : offset < (v.recordAt o.home).size
    · obtain ⟨_, _, _, at_offset⟩ :=
        stores.sound.returns_sectorAt (stores.holds h.keeps.ready) inside
      exact (at_offset _).mpr fun _ => same
    · exact (Record.returns_sectorAt_past (Nat.le_of_not_lt inside)).mpr fun _ => same
  | true =>
    simp only [if_true, StateT.run_bind, Program.returns_bind, Program.returns_lift]
    refine (stores.returns_sectorForWrite_within h.keeps.ready offset count).mono ?_
    rintro ⟨s, r⟩ w kept
    simp only [Registry.run_put, StateT.run_pure, Program.returns_pure]
    exact fun within => kept (within trivial)

/-- Nothing is taken by what is done while writing is forbidden, unless a sector past the end
is located. -/
theorem Represents.returns_within (denied : 0 < o.denials) (concerns : op.Concerns id o.home)
    (allowed : a.Allows op) :
    (op.filing.run g).Returns v fun (answer, _) w =>
      answer.Within (v.recordAt o.home).size op → v.Exchanged [] w [] := by
  have inode := h.matched.inode found
  have shows := h.keeps.files (h.matched.live found)
  have holds := shows.stores.holds h.keeps.ready
  have opening := Archive.opening_of_some found
  have same : v.Exchanged [] v [] := .refl h.keeps.ready List.nodup_nil (by simp)
  -- All but a lookup for a write leave the volume as it is; that one finds its sector in the file.
  cases op with
  | openAt =>
    obtain rfl := concerns
    have seen := h.matched.opened.mpr ⟨o, found, rfl⟩
    refine returns_wrap.mpr ?_
    simp only [Registry.openAt, Registry.reopen, StateT.run_bind, StateT.run_get,
      Program.returns_bind, Program.returns_pure, seen, Registry.returns_inode inode,
      Registry.run_put, StateT.run_pure]
    exact fun _ => same
  | reopen =>
    obtain rfl := concerns
    refine returns_wrap.mpr ?_
    simp only [Registry.reopen, StateT.run_bind, Program.returns_bind, Program.returns_pure,
      Registry.returns_inode inode, Registry.run_put, StateT.run_pure]
    exact fun _ => same
  | close =>
    obtain rfl := concerns
    have undenied := allowed.2
    rw [opening] at undenied
    have others : ¬ o.openers - 1 = 0 := by omega
    refine returns_wrap.mpr ?_
    simp only [Registry.close, StateT.run_bind, Program.returns_bind, Registry.returns_inode inode,
      Program.returns_lift, Program.returns_ofExcept, Opening.dropOpener_inode undenied,
      Except.ok.injEq, exists_eq_left', Registry.run_put, Program.returns_pure]
    simp only [Opening.inode, others, if_false, StateT.run_pure, Program.returns_pure]
    exact fun _ => same
  | forbid =>
    obtain rfl := concerns
    have spare := allowed.2
    rw [opening] at spare
    refine returns_wrap.mpr ?_
    simp only [Registry.forbid, StateT.run_bind, Program.returns_bind, Registry.returns_inode inode,
      Program.returns_lift, Program.returns_ofExcept, Opening.forbid_inode spare, Except.ok.injEq,
      exists_eq_left', Registry.run_put, Program.returns_pure]
    exact fun _ => same
  | permit =>
    obtain rfl := concerns
    have few := (h.matched.counts found).2
    refine returns_wrap.mpr ?_
    simp only [Registry.permit, StateT.run_bind, Program.returns_bind, Registry.returns_inode inode,
      Program.returns_lift, Program.returns_ofExcept, Opening.permit_inode denied few,
      Except.ok.injEq, exists_eq_left', Registry.run_put, Program.returns_pure]
    exact fun _ => same
  | read _ offset count =>
    obtain rfl := concerns
    refine returns_wrap.mpr ?_
    simp only [Registry.read, StateT.run_bind, Program.returns_bind, Registry.returns_inode inode,
      Program.returns_lift]
    exact (shows.stores.sound.returns_read holds).mpr fun _ => same
  | write =>
    obtain rfl := concerns
    have denied' : 0 < (o.inode (v.recordAt o.home)).denials := denied
    refine returns_wrap.mpr ?_
    simp only [Registry.write, StateT.run_bind, Program.returns_bind, Registry.returns_inode inode,
      if_pos denied', StateT.run_pure, Program.returns_pure]
    exact fun _ => same
  | locate _ offset count forWrite =>
    obtain rfl := concerns
    refine returns_wrap.mpr ((h.returns_locate_within found offset count forWrite).mono ?_)
    rintro ⟨s, g'⟩ w kept within
    refine kept fun for_write present => ?_
    cases for_write
    cases s with
    | none => cases present
    | some s => exact within
  | _ => exact concerns.elim

end Returns

namespace FileSystem

variable {δ : Type} [Device δ]

/-- Calls on one inode that returned, newest first, after each of which writing it is forbidden. -/
inductive DeniedRun {α : Type} [Allocator α] (id : InodeId) (home : Sector) (fs₀ : FileSystem δ α) :
    FileSystem δ α → List (Operation × Answer) → Prop where
  | start : DeniedRun id home fs₀ fs₀ []
  | step {fs fs' : FileSystem δ α} {log : List (Operation × Answer)} {op : Operation}
    {answer : Answer} {i : Inode} : DeniedRun id home fs₀ fs log → op.Concerns id home →
      perform op fs = .ok answer fs' → fs'.registry.inodes[id]? = some i → 0 < i.denials →
        DeniedRun id home fs₀ fs' ((op, answer) :: log)

variable [LawfulDevice δ]

/-- Neither the file in sector `home` nor the inode with its record nor the space map changed. -/
structure Undisturbed (fs : FileSystem δ SpaceMap) (id : InodeId) (home : Sector)
    (fs' : FileSystem δ SpaceMap) : Prop where
  record : fs'.recordAt home = fs.recordAt home
  inode : ∃ i, fs'.registry.inodes[id]? = some i ∧ i.home = home ∧ i.record = fs.recordAt home
  bytes : (fs'.recordAt home).bytes fs'.volume.cache.content =
    (fs.recordAt home).bytes fs.volume.cache.content
  allocator : fs'.volume.allocator = fs.volume.allocator

variable {fs fs' : FileSystem δ SpaceMap} {log : List (Operation × Answer)}

/-- What is done with an inode in use, and returns, is in order. -/
theorem Realizes.allows_of_done (h : fs.Realizes a) (found : a.openings id = some o)
    (denied : 0 < o.denials) (concerns : op.Concerns id o.home)
    (done : perform op fs = .ok answer fs') : a.Allows op := by
  have inUse : (a.openings id).isSome := by rw [found]; rfl
  have opening := Archive.opening_of_some found
  have spare (at_id : ∃ i, fs.registry.inodes[id]? = some i ∧ i.denials < i.openers) :
      (a.opening id).denials < (a.opening id).openers := by
    obtain ⟨i, entry, spare⟩ := at_id
    rw [h.represents.matched.inode found] at entry
    cases entry
    exact opening ▸ spare
  cases op with
  | openAt =>
    obtain rfl := concerns
    exact h.represents.matched.live found
  | close =>
    obtain rfl := concerns
    exact ⟨inUse, spare (spare_of_closed done)⟩
  | forbid =>
    obtain rfl := concerns
    exact ⟨inUse, spare (spare_of_forbidden done)⟩
  | permit =>
    obtain rfl := concerns
    exact ⟨inUse, opening ▸ denied⟩
  | reopen | read | write | locate =>
    obtain rfl := concerns
    exact inUse
  | _ => exact concerns.elim

theorem Realizes.denied_step (h : fs.Realizes a) (found : a.openings id = some o)
    (denied : 0 < o.denials) (concerns : op.Concerns id o.home)
    (done : perform op fs = .ok answer fs')
    (within : answer.Within (fs.recordAt o.home).size op) :
    a.Admits op answer ∧ fs'.Realizes (a.next op answer) ∧
      (∃ o', (a.next op answer).openings id = some o' ∧ o'.home = o.home) ∧
      fs.volume.flat.Exchanged [] fs'.volume.flat [] := by
  have allowed := h.allows_of_done found denied concerns done
  obtain ⟨⟨answer', g⟩, w, filed, answered, kept⟩ := (h.represents.returns_filing allowed).and
    (h.represents.returns_within found denied concerns allowed)
  obtain ⟨fs'', done', simulates⟩ := perform_flat h.consistent filed
  rw [done] at done'
  cases done'
  refine ⟨answered.admitted, simulates.realizes answered.represents, ?_, ?_⟩
  · exact Archive.opening_next found denied concerns allowed answered.admitted
  · exact simulates.flat ▸ kept within

/-- Nothing was taken so far, the inode is still in use, and all that was written is nothing. -/
structure Withstands (fs : FileSystem δ SpaceMap) (id : InodeId) (home : Sector)
    (fs' : FileSystem δ SpaceMap) (log : List (Operation × Answer)) : Prop where
  opening : ∃ a o, fs'.Realizes a ∧ a.openings id = some o ∧ o.home = home ∧ 0 < o.denials
  exchanged : fs.volume.flat.Exchanged [] fs'.volume.flat []
  written {offset : Nat} {data : List UInt8} {answer : Answer} :
    (.write id offset data, answer) ∈ log → answer = .written 0

theorem Realizes.recordAt_eq (h : fs.Realizes a) {home : Sector} (live : home ∈ a.live)
    (exchanged : fs.volume.flat.Exchanged [] fs'.volume.flat []) :
    fs'.recordAt home = fs.recordAt home := by
  have used := (h.represents.keeps.files live).stores.home_used
  exact congrArg Record.decode (exchanged.content used List.not_mem_nil)

theorem DeniedRun.withstands (run : DeniedRun id o.home fs fs' log) (h : fs.Realizes a)
    (found : a.openings id = some o) (denied : 0 < o.denials)
    (within : ∀ op answer, (op, answer) ∈ log → answer.Within (fs.recordAt o.home).size op) :
    fs.Withstands id o.home fs' log := by
  induction run with
  | start => exact ⟨⟨a, o, h, found, rfl, denied⟩,
      .refl h.represents.keeps.ready List.nodup_nil (by simp), by simp⟩
  | @step fs₁ fs₂ log op answer i _ concerns done entry still ih =>
    obtain ⟨⟨a₁, o₁, h₁, found₁, home, denied₁⟩, exchanged, written⟩ :=
      ih fun op answer member => within op answer (List.mem_cons_of_mem _ member)
    have record := h.recordAt_eq (h.represents.matched.live found) exchanged
    have here := within op answer List.mem_cons_self
    rw [← home] at concerns
    rw [← record, ← home] at here
    obtain ⟨admitted, h₂, ⟨o₂, found₂, home₂⟩, exchanged₂⟩ :=
      h₁.denied_step found₁ denied₁ concerns done here
    have denied₂ : 0 < o₂.denials := by
      rw [h₂.represents.matched.inode found₂] at entry
      cases entry
      exact still
    refine ⟨⟨_, o₂, h₂, found₂, home₂.trans home, denied₂⟩, exchanged.trans exchanged₂, ?_⟩
    intro offset data answer' member
    rcases List.mem_cons.mp member with now | earlier
    · obtain ⟨rfl, same⟩ := Prod.mk.inj now
      rw [same]
      rcases answer with _ | _ | _ | _ | _ | count | _ <;> try exact admitted.elim
      rw [Archive.Admits, Archive.opening_of_some found₁, if_pos denied₁] at admitted
      rw [admitted]
    · exact written earlier

theorem Withstands.undisturbed (h : fs.Withstands id o.home fs' log) (before : fs.Realizes a)
    (live : o.home ∈ a.live) : fs.Undisturbed id o.home fs' := by
  obtain ⟨⟨a', o', after, found, home, _⟩, exchanged, _⟩ := h
  have stores := (before.represents.keeps.files live).stores
  have record := before.recordAt_eq live exchanged
  refine ⟨record, ⟨_, after.represents.matched.inode found, home, ?_⟩, ?_, ?_⟩
  · rw [home]
    exact record
  · have bytes := stores.bytes_eq exchanged fun _ _ => List.not_mem_nil
    rw [record]
    exact bytes
  · exact exchanged.map_eq before.represents.keeps.ready

/-- In every run, while writing an inode is forbidden, calls on it that return leave its file
and the space map as they are, and write nothing, whoever makes them; unless a sector past the
end of the file is located for writing. -/
theorem denied_undisturbed {device : δ} {capacity total reserved : Nat}
    (healthy : LawfulDevice.Healthy device) (enough : total ≤ Device.blockCount device)
    (small : total ≤ UInt32.size) {fs₀ : FileSystem δ SpaceMap}
    (made : new device capacity total reserved = .ok fs₀) (run : Run fs₀ { total, reserved } fs a)
    (found : a.openings id = some o) (denied : 0 < o.denials)
    (calls : DeniedRun id o.home fs fs' log)
    (within : ∀ op answer, (op, answer) ∈ log → answer.Within (fs.recordAt o.home).size op) :
    fs.Undisturbed id o.home fs' ∧
      ∀ offset data answer, (.write id offset data, answer) ∈ log → answer = .written 0 := by
  have realizes := run.realizes (realizes_new healthy enough small made)
  have withstands := calls.withstands realizes found denied within
  exact ⟨withstands.undisturbed realizes (realizes.represents.matched.live found),
    fun _ _ _ => withstands.written⟩

theorem exists_denied : ∃ (fs₀ fs : FileSystem MemoryDisk SpaceMap) (a : Archive) (id : InodeId)
    (home : Sector), new (MemoryDisk.zeroed 64) 1 64 1 = .ok fs₀ ∧
      Run fs₀ { total := 64, reserved := 1 } fs a ∧ fs.Realizes a ∧
      a.openings id = some { home, denials := 1 } ∧ a.file home = ⟨.file, []⟩ ∧
      a.live = {home} ∧ a.granted = ∅ ∧ a.total = 64 ∧ a.reserved = 1 := by
  obtain ⟨fs₀, made⟩ : ∃ fs₀, new (MemoryDisk.zeroed 64) 1 64 1 = .ok fs₀ := ⟨_, rfl⟩
  have realizes := realizes_new (MemoryDisk.healthy_zeroed (by decide))
    (MemoryDisk.blockCount_zeroed 64).ge (by decide) made
  obtain ⟨fs, a, home, id, run, realizes, occupied⟩ :=
    realizes.exists_occupied .start (.new 64) (by decide)
  have allowed : a.Allows (.forbid id) := by
    refine ⟨by rw [occupied.found]; rfl, ?_⟩
    rw [occupied.opening]
    exact Nat.zero_lt_one
  obtain ⟨_, fs, _, realizes, run⟩ := realizes.exists_step run (.forbid id) allowed
  refine ⟨fs₀, fs, _, id, home, made, run, realizes, ?_, occupied.file, occupied.live,
    occupied.granted, occupied.total, occupied.reserved⟩
  rw [Archive.next, occupied.opening]
  exact Function.update_self ..

/-- Three bytes are refused. -/
theorem denied_undisturbed_refused :
    LawfulDevice.Healthy (MemoryDisk.zeroed 64) ∧ 64 ≤ Device.blockCount (MemoryDisk.zeroed 64) ∧
      64 ≤ UInt32.size ∧ ∃ (fs₀ fs fs' : FileSystem MemoryDisk SpaceMap) (a : Archive)
        (id : InodeId) (home : Sector) (log : List (Operation × Answer)),
        new (MemoryDisk.zeroed 64) 1 64 1 = .ok fs₀ ∧ Run fs₀ { total := 64, reserved := 1 } fs a ∧
        a.openings id = some { home, denials := 1 } ∧ DeniedRun id home fs fs' log ∧
        (.write id 0 [1, 2, 3], .written 0) ∈ log ∧ fs.Undisturbed id home fs' := by
  have healthy : LawfulDevice.Healthy (MemoryDisk.zeroed 64) :=
    MemoryDisk.healthy_zeroed (by decide)
  have enough := (MemoryDisk.blockCount_zeroed 64).ge
  have small : 64 ≤ UInt32.size := by decide
  obtain ⟨fs₀, fs, a, id, home, made, run, realizes, found, _⟩ := exists_denied
  have allowed : a.Allows (.write id 0 [1, 2, 3]) := by
    rw [Archive.Allows, found]
    rfl
  obtain ⟨answer, fs', done, admitted, after⟩ := realizes.perform_eq allowed
  rcases answer with _ | _ | _ | _ | _ | count | _ <;> try exact admitted.elim
  have calls : DeniedRun id home fs fs' [(.write id 0 [1, 2, 3], .written count)] :=
    .step .start rfl done (after.represents.matched.inode found) Nat.zero_lt_one
  obtain ⟨undisturbed, written⟩ := denied_undisturbed healthy enough small made run found
    Nat.zero_lt_one calls (by simp [Answer.Within])
  have refused := written 0 [1, 2, 3] _ List.mem_cons_self
  exact ⟨healthy, enough, small, fs₀, fs, fs', a, id, home, _, made, run, found, calls,
    refused ▸ List.mem_cons_self, undisturbed⟩

/-- A sector past the end that is located for writing makes the file grow into it, and takes it
from those that are free, although writing is forbidden. -/
theorem denied_grown : ∃ (fs₀ fs fs' : FileSystem MemoryDisk SpaceMap) (a : Archive)
    (id : InodeId) (home s : Sector), new (MemoryDisk.zeroed 64) 1 64 1 = .ok fs₀ ∧
      Run fs₀ { total := 64, reserved := 1 } fs a ∧
      a.openings id = some { home, denials := 1 } ∧
      DeniedRun id home fs fs' [(.locate id 0 1 true, .located (some s))] ∧
      (fs.recordAt home).size = 0 ∧ (fs'.recordAt home).size = 1 ∧
      fs.volume.allocator.free = 62 ∧ fs'.volume.allocator.free = 61 := by
  obtain ⟨fs₀, fs, a, id, home, made, run, realizes, found, file, live, granted, total, reserved⟩ :=
    exists_denied
  have fileOf : a.fileOf id = ⟨.file, []⟩ := by
    rw [Archive.fileOf_of_some found]
    exact file
  have opening := Archive.opening_of_some found
  have here : home ∈ a.live := live ▸ Finset.mem_singleton_self home
  have free : a.free = 62 := by
    simp [Archive.free, total, reserved, granted, live, file, File.sectorCount, File.size]
    decide
  have allowed : a.Allows (.locate id 0 1 true) := by
    rw [Archive.Allows, found]
    rfl
  obtain ⟨answer, fs', done, admitted, after⟩ := realizes.perform_eq allowed
  rcases answer with _ | _ | _ | _ | _ | _ | located <;> try exact admitted.elim
  have grows : located.isSome := by
    refine Iff.mpr admitted (.inr ⟨rfl, ?_⟩)
    rw [fileOf, free]
    decide
  obtain ⟨s, rfl⟩ := Option.isSome_iff_exists.mp grows
  have bytes : a.next (.locate id 0 1 true) (.located (some s)) = a.withBytes id [0] := by
    rw [Archive.next, fileOf]
    rfl
  rw [bytes] at after
  have calls : DeniedRun id home fs fs' [(.locate id 0 1 true, .located (some s))] :=
    .step .start rfl done (after.represents.matched.inode found) Nat.zero_lt_one
  have file' : (a.withBytes id [0]).file home = ⟨.file, [0]⟩ := by
    simp [Archive.withBytes, opening, fileOf]
  have free' : (a.withBytes id [0]).free = 61 := by
    have others : (a.withBytes id [0]).live = {home} := live
    simp [Archive.free, others, file', File.sectorCount, File.size]
    simp [Archive.withBytes, total, reserved, granted]
    decide
  refine ⟨fs₀, fs, fs', a, id, home, s, made, run, found, calls, ?_, ?_, ?_, ?_⟩
  · exact (realizes.represents.keeps.files here).size.trans (congrArg File.size file)
  · exact (after.represents.keeps.files here).size.trans (congrArg File.size file')
  · exact realizes.represents.keeps.free.trans free
  · exact after.represents.keeps.free.trans free'

end FileSystem

end InodeVolume
