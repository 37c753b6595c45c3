import InodeVolume.Proofs.System.Retention

/-!
# Deferred release

A file that is marked as removed stays what it was for those who have it open. They read and
write it as before, it may grow, and none of its sectors is given back until the last of them
closes it. That close gives back every sector that the file has by then, once, and no other.
-/

namespace InodeVolume

namespace Archive

variable {a : Archive} {id id' : InodeId} {o o' : Opening} {op : Operation} {answer : Answer}

theorem eq_of_withOpening {changed : Opening} (found : a.openings id = some o)
    (found' : (a.withOpening id' changed).openings id = some o') :
    id = id' ∧ o' = changed ∨ o' = o := by
  change Function.update a.openings id' (some changed) id = some o' at found'
  by_cases same : id = id'
  · subst same
    rw [Function.update_self, Option.some.injEq] at found'
    exact .inl ⟨rfl, found'.symm⟩
  · rw [Function.update_of_ne same, found, Option.some.injEq] at found'
    exact .inr found'.symm

theorem opening_next_of_some (found : a.openings id = some o)
    (found' : (a.next op answer).openings id = some o') :
    o'.home = o.home ∧ (o.removed = true → o'.removed = true) := by
  have unchanged (same : a.openings id = some o') :
      o'.home = o.home ∧ (o.removed = true → o'.removed = true) := by
    rw [found, Option.some.injEq] at same
    exact same ▸ ⟨rfl, fun marked => marked⟩
  have changed (id' : InodeId) (o₁ : Opening) (now : (a.withOpening id' o₁).openings id = some o')
      (home : o₁.home = (a.opening id').home)
      (removed : (a.opening id').removed = true → o₁.removed = true) :
      o'.home = o.home ∧ (o.removed = true → o'.removed = true) := by
    rcases eq_of_withOpening found now with ⟨rfl, rfl⟩ | rfl
    · rw [opening_of_some found] at home removed
      exact ⟨home, removed⟩
    · exact ⟨rfl, fun marked => marked⟩
  cases op with
  | openAt home =>
    cases answer with
    | opened id' =>
      simp only [next] at found'
      cases used : a.openings id' with
      | some o₁ =>
        rw [used] at found'
        refine changed id' _ found' ?_ ?_
        · rw [opening_of_some used]
        · rw [opening_of_some used]
          exact fun marked => marked
      | none =>
        -- An inode that is given out anew is not the one that was open before.
        rw [used] at found'
        rcases eq_of_withOpening found found' with ⟨rfl, _⟩ | rfl
        · rw [found] at used
          cases used
        · exact ⟨rfl, fun marked => marked⟩
    | _ => exact unchanged found'
  | close id' =>
    simp only [next] at found'
    split at found'
    · change Function.update a.openings id' none id = some o' at found'
      by_cases same : id = id'
      · subst same
        rw [Function.update_self] at found'
        cases found'
      · rw [Function.update_of_ne same] at found'
        exact unchanged found'
    · exact changed id' _ found' rfl fun marked => marked
  | reopen id' | forbid id' | permit id' => exact changed id' _ found' rfl fun marked => marked
  | remove id' => exact changed id' _ found' rfl fun _ => rfl
  | _ =>
    unfold next at found'
    split at found' <;> first | exact unchanged found' | contradiction

/-- The archive in which the file of an inode is not marked as removed. -/
def unmarked (a : Archive) (id : InodeId) : Archive :=
  a.withOpening id { a.opening id with removed := false }

section Unmarked

variable (found : a.openings id = some o)

include found

theorem openings_unmarked (id' : InodeId) : (a.unmarked id).openings id' =
    (a.openings id').map fun o' => if id' = id then { o' with removed := false } else o' := by
  change Function.update a.openings id _ id' = _
  by_cases same : id' = id
  · subst same
    rw [Function.update_self, opening_of_some found, found, Option.map_some, if_pos rfl]
  · simp [same]

/-- But for the mark, inodes are used as before. -/
theorem opening_unmarked (id' : InodeId) :
    ((a.unmarked id).opening id').home = (a.opening id').home ∧
      ((a.unmarked id).opening id').openers = (a.opening id').openers ∧
      ((a.unmarked id).opening id').denials = (a.opening id').denials := by
  rw [opening, openings_unmarked found, opening]
  cases a.openings id' with
  | none => exact ⟨rfl, rfl, rfl⟩
  | some o' =>
    rw [Option.map_some, Option.getD_some, Option.getD_some]
    split <;> exact ⟨rfl, rfl, rfl⟩

theorem allows_unmarked : (a.unmarked id).Allows op ↔ a.Allows op := by
  have isSome (id' : InodeId) : ((a.unmarked id).openings id').isSome = (a.openings id').isSome := by
    rw [openings_unmarked found, Option.isSome_map]
  cases op <;> simp only [Allows, isSome, opening_unmarked found] <;> rfl

theorem fileOf_unmarked (id' : InodeId) : (a.unmarked id).fileOf id' = a.fileOf id' := by
  rw [fileOf, (opening_unmarked found id').1]
  rfl

theorem admits_unmarked : (a.unmarked id).Admits op answer ↔ a.Admits op answer := by
  have free : (a.unmarked id).free = a.free := rfl
  cases op with
  | openAt home =>
    cases answer with
    | opened id₁ =>
      refine ⟨fun h id' o' used => ?_, fun h id' o' used => ?_⟩
      · have used' := openings_unmarked found id'
        rw [used, Option.map_some] at used'
        have here := h id' _ used'
        split at here <;> exact here
      · rw [openings_unmarked found, Option.map_eq_some_iff] at used
        obtain ⟨o₁, used, rfl⟩ := used
        have here := h id' o₁ used
        split <;> exact here
    | _ => rfl
  | read | write | locate =>
    cases answer <;> simp only [Admits, fileOf_unmarked found, free, opening_unmarked found]
  | allocate =>
    cases answer with
    | sector s => cases s <;> rfl
    | _ => rfl
  | _ => cases answer <;> rfl

omit found in
theorem file_next_openAt (a : Archive) (home : Sector) (answer : Answer) :
    (a.next (.openAt home) answer).file = a.file := by
  cases answer with
  | opened id =>
    simp only [next]
    cases a.openings id <;> rfl
  | _ => rfl

omit found in
theorem file_next_close (a : Archive) (id : InodeId) (answer : Answer) :
    (a.next (.close id) answer).file = a.file := by
  simp only [next]
  split <;> rfl

theorem file_next_unmarked : ((a.unmarked id).next op answer).file = (a.next op answer).file := by
  have withBytes (id' : InodeId) (bytes : List UInt8) :
      ((a.unmarked id).withBytes id' bytes).file = (a.withBytes id' bytes).file := by
    rw [Archive.withBytes, (opening_unmarked found id').1, fileOf_unmarked found]
    rfl
  cases op with
  | openAt home => rw [file_next_openAt, file_next_openAt]; rfl
  | close id' => rw [file_next_close, file_next_close]; rfl
  | write id' offset data =>
    cases answer with
    | written count => simp only [next, fileOf_unmarked found, withBytes]
    | _ => rfl
  | locate id' offset count forWrite =>
    cases forWrite with
    | false => rfl
    | true =>
      cases answer with
      | located s =>
        cases s with
        | none => rfl
        | some s => simp only [next, fileOf_unmarked found, withBytes]
      | _ => rfl
  | create =>
    cases answer with
    | created result => rcases result with _ | _ <;> rfl
    | _ => rfl
  | allocate =>
    cases answer with
    | sector s => cases s <;> rfl
    | _ => rfl
  | _ => rfl

end Unmarked

end Archive

namespace FileSystem

variable {δ : Type} [Device δ] [LawfulDevice δ] {fs₀ fs fs' : FileSystem δ (Ledger SpaceMap)}
  {a₀ a a' : Archive} {id : InodeId} {o o' : Opening} {op : Operation} {answer : Answer}

/-- What holds in every run, also of inodes that nobody has in use any more. -/
structure Settled (fs : FileSystem δ (Ledger SpaceMap)) (a : Archive) : Prop where
  realizes : fs.Realizes a
  retired : fs.registry.Retired a

theorem Settled.step (h : fs.Settled a) (allowed : a.Allows op)
    (done : perform op fs = .ok answer fs') :
    fs'.Settled (a.next op answer) ∧
      Ages fs.registry a fs'.registry (a.next op answer) ∧
      fs.volume.flat.Spares a fs'.volume.flat (a.next op answer) ∧
      ∀ home ∈ a.live, home ∈ (a.next op answer).live →
        fs.volume.flat.Retains home fs'.volume.flat := by
  have represents := h.realizes.represents
  obtain ⟨⟨answer', g'⟩, w, filed, ⟨answered, spares, retains⟩, ages⟩ :=
    (represents.returns_filing_retains allowed).and_yields
      (ages_filing h.retired represents.matched allowed)
  obtain ⟨fs'', ran, simulates⟩ := perform_flat h.realizes.consistent filed
  rw [done] at ran
  cases ran
  have realizes := simulates.realizes answered.represents
  obtain ⟨_, rfl, rfl⟩ := simulates
  exact ⟨⟨realizes, ages.retired⟩, ages, spares, retains⟩

theorem Run.settled (run : Run fs₀ a₀ fs a) (h : fs₀.Settled a₀) : fs.Settled a := by
  induction run with
  | start => exact h
  | step _ allowed done ih => exact (ih.step allowed done).1

/-- A later moment of a run, at which the inode `id` may still be in use: then it has been so all
the time, and its file has kept its sectors. -/
structure Outlasts (fs : FileSystem δ (Ledger SpaceMap)) (id : InodeId) (o : Opening)
    (fs' : FileSystem δ (Ledger SpaceMap)) (a' : Archive) : Prop where
  settled : fs'.Settled a'
  inside : id < fs'.registry.inodes.size
  stays {o' : Opening} : a'.openings id = some o' → o'.home = o.home ∧
    (o.removed = true → o'.removed = true) ∧ fs.volume.flat.Prolongs o.home fs'.volume.flat ∧
      fs.volume.flat.Retains o.home fs'.volume.flat

theorem Outlasts.step (h : fs₀.Outlasts id o fs a) (allowed : a.Allows op)
    (done : perform op fs = .ok answer fs') : fs₀.Outlasts id o fs' (a.next op answer) := by
  obtain ⟨settled, ages, spares, retains⟩ := h.settled.step allowed done
  refine ⟨settled, Nat.lt_of_lt_of_le h.inside ages.size, fun {o'} found' => ?_⟩
  obtain ⟨o₁, found⟩ : ∃ o₁, a.openings id = some o₁ := by
    by_contra unused
    have unused := Option.eq_none_iff_forall_ne_some.mpr (not_exists.mp unused)
    rw [ages.unused h.inside unused] at found'
    cases found'
  obtain ⟨home, marked, prolongs, retained⟩ := h.stays found
  obtain ⟨home', marked'⟩ := Archive.opening_next_of_some found found'
  have live := h.settled.realizes.represents.matched.live found
  have still := settled.realizes.represents.matched.live found'
  rw [home', home] at still
  rw [home] at live
  refine ⟨home'.trans home, fun mark => marked' (marked mark), ?_, ?_⟩
  · exact prolongs.trans (spares _ live still)
  · exact retained.trans prolongs (retains _ live still)

theorem Run.outlasts (run : Run fs a fs' a') (h : fs.Settled a) (found : a.openings id = some o) :
    fs.Outlasts id o fs' a' := by
  induction run with
  | start =>
    refine ⟨h, h.realizes.represents.matched.lt_size found, fun found' => ?_⟩
    rw [found, Option.some.injEq] at found'
    exact ⟨by rw [found'], fun mark => found' ▸ mark, fun _ _ => rfl, .refl _ _⟩
  | step _ allowed done ih => exact ih.step allowed done

/-- None of the sectors that the file in `home` has was given back from then on. -/
structure Retains (fs : FileSystem δ (Ledger SpaceMap)) (home : Sector)
    (fs' : FileSystem δ (Ledger SpaceMap)) : Prop where
  owned {s : Sector} : s ∈ fs.owned home → s ∈ fs'.owned home
  calls : ∃ log, fs'.calls = log ++ fs.calls ∧
    ∀ s ∈ fs.owned home, ¬ SpaceMap.Released log s

/-- Every operation that would be in order if the inode were not marked as removed is answered
as it would be then, and does to the files what it would do. -/
def IgnoresMark (fs : FileSystem δ (Ledger SpaceMap)) (a : Archive) (id : InodeId) : Prop :=
  ∀ op, (a.unmarked id).Allows op → ∃ answer fs', perform op fs = .ok answer fs' ∧
    (a.unmarked id).Admits op answer ∧ fs'.Denotes (a.next op answer) ∧
      (a.next op answer).file = ((a.unmarked id).next op answer).file

/-- The sectors of the file in `home`, which has `size` bytes, were given back, all of them and
no others. -/
structure Surrenders (fs : FileSystem δ (Ledger SpaceMap)) (home : Sector) (size : Nat)
    (fs' : FileSystem δ (Ledger SpaceMap)) : Prop where
  calls : fs'.calls = releases (fs.owned home) ++ fs.calls
  nodup : (fs.owned home).Nodup
  /-- These are the sector of the record, those of the data and those of the tables. -/
  owned (s : Sector) : s ∈ fs.owned home ↔
    s = home ∨ ∃ l, fs.links home l ≠ 0 ∧ (fs.links home l).toNat = s
  isAllocated (s : Sector) : fs'.spaceMap.isAllocated s = true ↔
    fs.spaceMap.isAllocated s = true ∧ s ∉ fs.owned home
  free : fs'.spaceMap.free = fs.spaceMap.free + (Layout.footprint size + 1)
  unlisted : fs'.registry.opened[home]? = none

theorem Realizes.ignoresMark (h : fs.Realizes a) (found : a.openings id = some o) :
    fs.IgnoresMark a id := by
  intro op allowed
  obtain ⟨answer, fs', done, admitted, after⟩ :=
    h.perform_eq ((Archive.allows_unmarked found).mp allowed)
  exact ⟨answer, fs', done, (Archive.admits_unmarked found).mpr admitted, after.denotes,
    (Archive.file_next_unmarked found).symm⟩

/-- The last close of a removed file. -/
theorem Realizes.surrenders (h : fs.Realizes a) (found : a.openings id = some o)
    (marked : o.removed = true) (last : o.openers = 1) (undenied : o.denials < o.openers) :
    ∃ fs', perform (.close id) fs = .ok .nothing fs' ∧
      fs.Surrenders o.home (fs.recordAt o.home).size fs' ∧
      fs'.Denotes (a.next (.close id) .nothing) ∧
      o.home ∉ (a.next (.close id) .nothing).live := by
  have represents := h.represents
  have shows := represents.keeps.files (represents.matched.live found)
  have allowed : a.Allows (.close id) := by
    rw [Archive.Allows, found, Archive.opening_of_some found]
    exact ⟨rfl, undenied⟩
  have returns : ((Operation.close id).filing.run fs.registry).Returns fs.volume.flat
      fun answered w => answered.1 = .nothing ∧
        w.allocator.calls = releases (fs.owned o.home) ++ fs.calls ∧
        fs.volume.flat.Exchanged (fs.owned o.home) w [] := by
    refine returns_wrap.mpr (((represents.returns_close_calls found undenied).and
      (represents.returns_close_exchanged found undenied)).mono ?_)
    rintro _ w ⟨calls, exchanged⟩
    rw [Opening.closingCalls, if_pos ⟨last, marked⟩] at calls
    rw [if_pos ⟨last, marked⟩] at exchanged
    exact ⟨rfl, calls, exchanged⟩
  obtain ⟨⟨answer, g'⟩, w, filed, answered, rfl, calls, exchanged⟩ :=
    (represents.returns_filing allowed).and returns
  obtain ⟨fs', ran, simulates⟩ := perform_flat h.consistent filed
  have after := simulates.realizes answered.represents
  obtain ⟨_, rfl, rfl⟩ := simulates
  have dead : o.home ∉ (a.next (.close id) .nothing).live := by
    rw [Archive.live_next_close found last marked]
    exact Finset.notMem_erase _ _
  refine ⟨fs', ran, ⟨calls, shows.stores.sound.nodup, ?_, ?_, ?_, ?_⟩, after.denotes, dead⟩
  · intro s
    rw [owned, Record.owned_eq, List.mem_cons, Links.mem_sectors]
    rfl
  · intro s
    have used := exchanged.isAllocated s
    rwa [or_iff_left List.not_mem_nil] at used
  · have counted := exchanged.free
    have length : (fs.owned o.home).length = Layout.footprint (fs.recordAt o.home).size + 1 :=
      shows.stores.sound.length_owned
    rw [length, List.length_nil] at counted
    exact counted
  · rw [Option.eq_none_iff_forall_ne_some]
    intro id' seen
    obtain ⟨o', found', home⟩ := after.represents.matched.opened.mp seen
    exact dead (home ▸ after.represents.matched.live found')

/-- In every run, a file marked as removed keeps its sectors and is used as if it were not, until
the last of those who have it open closes it. That close returns, gives back each sector that the
file has by then exactly once and no other, and leaves that many more sectors free. -/
theorem removed_released_at_last_close {device : δ} {capacity total reserved : Nat}
    {map : SpaceMap} (healthy : LawfulDevice.Healthy device)
    (enough : total ≤ Device.blockCount device) (small : total ≤ UInt32.size)
    (made : SpaceMap.new total reserved = .ok map)
    (mounted : mount device capacity ⟨map, []⟩ = .ok fs₀) (run : Run fs₀ { total, reserved } fs a)
    (found : a.openings id = some o) (marked : o.removed = true) (later : Run fs a fs' a')
    (inUse : a'.openings id = some o') :
    o'.home = o.home ∧ o'.removed = true ∧ fs.Retains o.home fs' ∧ fs'.IgnoresMark a' id ∧
      (o'.openers = 1 → a'.Allows (.close id) → ∃ i fs'',
        fs'.registry.inodes[id]? = some i ∧ i.home = o.home ∧
        perform (.close id) fs' = .ok .nothing fs'' ∧
        fs'.Surrenders o.home i.record.size fs'' ∧
        fs''.Denotes (a'.next (.close id) .nothing) ∧
        o.home ∉ (a'.next (.close id) .nothing).live) := by
  have stored : HoldsArchive device map { total, reserved } :=
    (Mountable.blank healthy enough small made).holdsArchive
  have simulates := simulatesFlat_of_mount healthy mounted
  have settled₀ : fs₀.Settled { total, reserved } := by
    refine ⟨stored.realizes simulates, ?_⟩
    rw [simulates.registry]
    exact fun id inside => absurd inside (Nat.not_lt_zero id)
  have outlasts := later.outlasts (run.settled settled₀) found
  have realizes := outlasts.settled.realizes
  obtain ⟨home, stays, prolongs, log, calls, kept⟩ := outlasts.stays inUse
  refine ⟨home, stays marked, ⟨prolongs.owned, log, calls, kept⟩, realizes.ignoresMark inUse, ?_⟩
  intro last allowed
  have undenied := allowed.2
  rw [Archive.opening_of_some inUse] at undenied
  obtain ⟨fs'', done, surrenders, denotes, dead⟩ :=
    realizes.surrenders inUse (stays marked) last undenied
  rw [home] at surrenders dead
  have entry := realizes.represents.matched.inode inUse
  have record : fs'.volume.flat.recordAt o'.home = fs'.recordAt o.home := by
    rw [home]
    rfl
  rw [record] at entry
  exact ⟨_, fs'', entry, home, done, surrenders, denotes, dead⟩

/-- A file is removed while it is empty, opened once more and written to just behind what is
pointed at directly, and closed by one of its openers. The other one gives back 126 sectors. -/
theorem removed_released_at_last_close_grown : ∃ (map : SpaceMap)
    (fs₀ fs fs' fs'' : FileSystem MemoryDisk (Ledger SpaceMap)) (a a' : Archive) (id : InodeId)
    (o o' : Opening), LawfulDevice.Healthy (MemoryDisk.zeroed 128) ∧
      128 ≤ Device.blockCount (MemoryDisk.zeroed 128) ∧ 128 ≤ UInt32.size ∧
      SpaceMap.new 128 1 = .ok map ∧ mount (MemoryDisk.zeroed 128) 1 ⟨map, []⟩ = .ok fs₀ ∧
      Run fs₀ { total := 128, reserved := 1 } fs a ∧ a.openings id = some o ∧
      o.removed = true ∧ Run fs a fs' a' ∧ a'.openings id = some o' ∧ o'.openers = 1 ∧
      a'.Allows (.close id) ∧ fs'.spaceMap.free = 1 ∧
      perform (.close id) fs' = .ok .nothing fs'' ∧ (fs'.owned o.home).length = 126 ∧
      fs''.calls = releases (fs'.owned o.home) ++ fs'.calls ∧ fs''.spaceMap.free = 127 := by
  have small : 128 ≤ UInt32.size := by decide
  obtain ⟨map, fs₀, _, a₀, home, id, healthy, enough, made, mounted, run, realizes, occupied⟩ :=
    exists_started (by decide) small
  obtain ⟨answer, fs, _, realizes, run⟩ := realizes.exists_step run (.remove id) (by
    rw [Archive.Allows, occupied.found]
    rfl)
  obtain ⟨a, removed⟩ : ∃ a, a = a₀.next (.remove id) answer := ⟨_, rfl⟩
  have found : a.openings id = some { home, removed := true } := by
    rw [removed, Archive.next, occupied.opening]
    exact Function.update_self ..
  rw [← removed] at realizes run
  obtain ⟨answer, _, _, realizes, later⟩ := realizes.exists_step .start (.reopen id) (by
    rw [Archive.Allows, found]
    rfl)
  obtain ⟨a₂, reopened⟩ : ∃ a₂, a₂ = a.next (.reopen id) answer := ⟨_, rfl⟩
  have found₂ : a₂.openings id = some { home, openers := 2, removed := true } := by
    rw [reopened, Archive.next, Archive.opening_of_some found]
    exact Function.update_self ..
  have file₂ : a₂.fileOf id = ⟨.file, []⟩ := by
    rw [Archive.fileOf_of_some found₂, reopened, removed]
    exact occupied.file
  have free₂ : a₂.free = 126 := by
    rw [reopened, removed]
    exact occupied.free
  rw [← reopened] at realizes later
  obtain ⟨answer, _, admitted, realizes, later⟩ :=
    realizes.exists_step later (.write id 62976 [1, 2, 3]) (by
      rw [Archive.Allows, found₂]
      rfl)
  have written := admitted.write (by rw [Archive.opening_of_some found₂])
  have whole : Layout.writable (⟨.file, []⟩ : File).size 126 62976
      ([1, 2, 3] : List UInt8).length = 3 := by decide
  rw [file₂, free₂, whole] at written
  subst written
  obtain ⟨a₃, wrote⟩ : ∃ a₃, a₃ = a₂.next (.write id 62976 [1, 2, 3]) (.written 3) := ⟨_, rfl⟩
  have found₃ : a₃.openings id = some { home, openers := 2, removed := true } := wrote ▸ found₂
  have file₃ : a₃.file home = ⟨.file, overlay [] 62976 [1, 2, 3]⟩ := by
    rw [wrote, Archive.next, Archive.withBytes, file₂, Archive.opening_of_some found₂]
    exact Function.update_self ..
  rw [← wrote] at realizes later
  obtain ⟨answer, fs', _, realizes, later⟩ := realizes.exists_step later (.close id) (by
    rw [Archive.Allows, found₃, Archive.opening_of_some found₃]
    exact ⟨rfl, Nat.zero_lt_two⟩)
  obtain ⟨a', closed⟩ : ∃ a', a' = a₃.next (.close id) answer := ⟨_, rfl⟩
  have next : a' = a₃.withOpening id { home, openers := 1, removed := true } :=
    closed.trans (Archive.next_close_others found₃ (by simp) _)
  rw [← closed] at realizes later
  have inUse : a'.openings id = some { home, openers := 1, removed := true } := by
    rw [next]
    exact Function.update_self ..
  have allowed : a'.Allows (.close id) := by
    rw [Archive.Allows, inUse, Archive.opening_of_some inUse]
    exact ⟨rfl, Nat.zero_lt_one⟩
  obtain ⟨_, _, _, _, last⟩ := removed_released_at_last_close healthy enough small made mounted run
    found rfl later inUse
  obtain ⟨i, fs'', entry, _, done, surrenders, _, _⟩ := last rfl allowed
  have size : (a'.file home).size = 62979 := by
    rw [next]
    change (a₃.file home).size = 62979
    rw [file₃, File.size, length_overlay (by simp)]
    rfl
  have shows := realizes.represents.keeps.files (realizes.represents.matched.live inUse)
  have length : (fs'.owned home).length = 126 := by
    refine shows.length_ownedAt.trans ?_
    rw [File.sectorCount, size]
    decide
  have others : a'.total = 128 ∧ a'.reserved = 1 ∧ a'.granted = ∅ ∧ a'.live = {home} := by
    rw [next, wrote, reopened, removed]
    exact ⟨occupied.total, occupied.reserved, occupied.granted, occupied.live⟩
  have free : fs'.spaceMap.free = 1 := by
    obtain ⟨total, reserved, granted, live⟩ := others
    refine realizes.represents.keeps.free.trans ?_
    rw [Archive.free, total, reserved, granted, live, Finset.sum_singleton, Finset.card_empty,
      File.sectorCount, size]
    decide
  have freed : fs''.spaceMap.free = 127 := by
    have current := realizes.represents.matched.inode inUse
    rw [entry, Option.some.injEq] at current
    have record : i.record.size = 62979 := by
      rw [current]
      exact shows.size.trans size
    rw [surrenders.free, free, record]
    decide
  exact ⟨map, fs₀, fs, fs', fs'', a, a', id, _, _, healthy, enough, small, made, mounted, run, found,
    rfl, later, inUse, rfl, allowed, free, done, length, surrenders.calls, freed⟩

end FileSystem

end InodeVolume
