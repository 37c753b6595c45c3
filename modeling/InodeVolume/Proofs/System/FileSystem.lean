import InodeVolume.Proofs.System.Steps

/-!
# File systems

A file system is a volume with a registry. Whatever cache it has, and whatever
was on its device before, each operation that is in order returns and is
answered as the archive demands, and so it goes on for any number of operations.
-/

namespace InodeVolume

namespace Archive

variable {a : Archive} {count : Nat} {home : Sector} {id : InodeId}

/-- Of `count` sectors, only the first is taken. -/
structure Vacant (a : Archive) (count : Nat) : Prop where
  total : a.total = count
  reserved : a.reserved = 1
  granted : a.granted = ∅
  live : a.live = ∅
  openings : a.openings = fun _ => none

/-- Of `count` sectors, only the first and that of an empty file are taken, which one has open. -/
structure Occupied (a : Archive) (count : Nat) (home : Sector) (id : InodeId) : Prop where
  total : a.total = count
  reserved : a.reserved = 1
  granted : a.granted = ∅
  live : a.live = {home}
  file : a.file home = ⟨.file, []⟩
  openings : a.openings = Function.update (fun _ => none) id (some { home })

theorem Vacant.new (count : Nat) : Vacant { total := count, reserved := 1 } count :=
  ⟨rfl, rfl, rfl, rfl, rfl⟩

theorem Vacant.free (h : a.Vacant count) : a.free = count - 1 := by
  simp [Archive.free, h.total, h.reserved, h.granted, h.live]

theorem Vacant.occupied (h : a.Vacant count) :
    Occupied (((a.next .allocate (.sector (some home))).next (.create home 0 .file)
      (.created (.ok ()))).next (.openAt home) (.opened id)) count home id := by
  simp only [next, h.openings]
  refine ⟨h.total, h.reserved, ?_, ?_, ?_, rfl⟩
  · simp [withOpening, h.granted]
  · simp [withOpening, h.live]
  · simp [withOpening]

namespace Occupied

variable (h : a.Occupied count home id)

include h

theorem found : a.openings id = some { home } := h.openings ▸ Function.update_self ..

theorem opening : a.opening id = { home } := opening_of_some h.found

theorem fileOf : a.fileOf id = ⟨.file, []⟩ := (fileOf_of_some h.found).trans h.file

theorem free : a.free = count - 2 := by
  have one : (⟨.file, []⟩ : File).sectorCount = 1 := rfl
  simp [Archive.free, h.total, h.reserved, h.granted, h.live, h.file, one]

end Occupied

end Archive

structure FileSystem (δ α : Type) where
  volume : Volume δ α
  registry : Registry := {}

namespace FileSystem

variable {δ α β : Type}

def new (device : δ) (capacity total reserved : Nat) : Except Fault (FileSystem δ SpaceMap) := do
  let cache ← Cache.new device capacity
  let allocator ← SpaceMap.new total reserved
  return { volume := ⟨cache, allocator⟩ }

theorem eq_of_new {device : δ} {capacity total reserved : Nat} {fs : FileSystem δ SpaceMap}
    (made : new device capacity total reserved = .ok fs) : ∃ cache map,
      Cache.new device capacity = .ok cache ∧ SpaceMap.new total reserved = .ok map ∧
        fs = { volume := ⟨cache, map⟩ } := by
  cases cached : Cache.new device capacity with
  | error f =>
    rw [new, cached] at made
    cases made
  | ok cache =>
    cases mapped : SpaceMap.new total reserved with
    | error f =>
      rw [new, cached, mapped] at made
      cases made
    | ok map =>
      rw [new, cached, mapped] at made
      cases made
      exact ⟨cache, map, rfl, rfl, rfl⟩

def onVolume (act : Action (Volume δ α) β) : Action (FileSystem δ α) β :=
  .onPart FileSystem.volume (fun volume fs => { fs with volume }) act

def onCache (act : Action (Cache δ) β) : Action (FileSystem δ α) β := onVolume (Volume.onCache act)

variable [Device δ] [Allocator α]

def onFiles (act : Filing β) : Action (FileSystem δ α) β := do
  let (b, registry) ← onVolume (Volume.perform (act.run (← get).registry))
  modify fun fs => { fs with registry }
  return b

def perform : Operation → Action (FileSystem δ α) Answer
  | .allocate => return .sector (← onVolume (Volume.allocate 1))
  | .create home length kind => return .created (← onFiles (Record.create home length kind))
  | .openAt home => return .opened (← onFiles (Registry.openAt home))
  | .reopen id => return .opened (← onFiles (Registry.reopen id))
  | .close id => do
    onFiles (Registry.close id)
    return .nothing
  | .remove id => do
    onFiles (Registry.remove id)
    return .nothing
  | .forbid id => do
    onFiles (Registry.forbid id)
    return .nothing
  | .permit id => do
    onFiles (Registry.permit id)
    return .nothing
  | .read id offset count => return .bytes (← onFiles (Registry.read id offset count))
  | .write id offset data => return .written (← onFiles (Registry.write id offset data))
  | .locate id offset count forWrite =>
    return .located (← onFiles (Registry.locate id offset count forWrite))
  | .sync | .drain => do
    onCache Cache.drain
    return .nothing
  | .flush s => do
    onCache (Cache.flush s)
    return .nothing
  | .prefetch s => do
    onCache (Cache.prefetch s)
    return .nothing

omit [Device δ] [Allocator α] in
theorem onVolume_wrap {γ : Type} (wrap : β → γ) (act : Action (Volume δ α) β) :
    (onVolume (do return wrap (← act)) : Action (FileSystem δ α) γ) =
      do return wrap (← onVolume act) := by
  funext fs
  simp only [onVolume, Action.onPart, bind, EStateM.bind]
  cases act fs.volume <;> rfl

theorem onFiles_wrap (wrap : β → Answer) (act : Filing β) :
    (onFiles (do return wrap (← act)) : Action (FileSystem δ α) Answer) =
      do return wrap (← onFiles act) := by
  have ran (g : Registry) : Volume.perform ((do return wrap (← act) : Filing Answer).run g) =
      (do let p ← Volume.perform (act.run g)
          return (wrap p.1, p.2) : Action (Volume δ α) (Answer × Registry)) := Program.run_bind ..
  simp only [onFiles, ran, onVolume_wrap fun p : β × Registry => (wrap p.1, p.2), bind_assoc,
    pure_bind]

theorem onFiles_allocate : (onFiles Program.allocate : Action (FileSystem δ α) (Option Sector)) =
    onVolume (Volume.allocate 1) := by
  funext fs
  have ran : Volume.perform ((Program.allocate : Filing (Option Sector)).run fs.registry) =
      (do return (← Volume.allocate 1, fs.registry) : Action (Volume δ α) _) := rfl
  simp only [onFiles, Action.get_bind, ran, onVolume_wrap (·, fs.registry), bind_assoc, pure_bind]
  simp only [onVolume, Action.onPart, bind, EStateM.bind]
  cases Volume.allocate 1 fs.volume <;> rfl

/-- An operation is what it does with the cache alone, and then with registry and volume. -/
theorem perform_eq_filing (op : Operation) :
    (perform op : Action (FileSystem δ α) Answer) =
      (do onCache op.moving; onFiles op.filing) := by
  cases op with
  | allocate =>
    have wrapped : (onFiles Operation.allocate.filing : Action (FileSystem δ α) Answer) =
        do return .sector (← onFiles Program.allocate) := onFiles_wrap _ _
    rw [onFiles_allocate] at wrapped
    exact wrapped.symm
  | create | openAt | reopen | close | remove | forbid | permit | read | write | locate =>
    exact (onFiles_wrap _ _).symm
  | sync | drain | flush | prefetch => rfl

/-- Operations in order, one after the other, beside the archive that they are about. -/
inductive Run (fs₀ : FileSystem δ α) (a₀ : Archive) : FileSystem δ α → Archive → Prop where
  | start : Run fs₀ a₀ fs₀ a₀
  | step {fs fs' : FileSystem δ α} {a : Archive} {op : Operation} {answer : Answer} :
    Run fs₀ a₀ fs a → a.Allows op → perform op fs = .ok answer fs' →
      Run fs₀ a₀ fs' (a.next op answer)

variable [LawfulDevice δ] {fs fs' fs₀ : FileSystem δ α} {a a₀ : Archive} {op : Operation}
  {answer : Answer} {g : Registry} {w : Flat α}

/-- The file system has the registry `g`, and through a consistent cache it shows what `w` does. -/
structure SimulatesFlat (fs : FileSystem δ α) (g : Registry) (w : Flat α) : Prop where
  consistent : fs.volume.cache.Consistent
  registry : fs.registry = g
  flat : fs.volume.flat = w

theorem onFiles_flat (h : fs.volume.cache.Consistent) {act : Filing β} {b : β}
    (done : (act.run fs.registry).run Flat.answer fs.volume.flat = .ok (b, g) w) :
    ∃ fs', onFiles act fs = .ok b fs' ∧ fs'.SimulatesFlat g w := by
  obtain ⟨v, ran, consistent, same⟩ := Volume.perform_flat h done
  refine ⟨⟨v, g⟩, ?_, consistent, rfl, same⟩
  simp only [onFiles, Action.get_bind]
  rw [Action.bind_ok (b := (b, g)) (t := { fs with volume := v })]
  · rfl
  · simp only [onVolume, Action.onPart, ran]

omit [Allocator α] in
/-- What only moves data between cache and device cannot be seen. -/
theorem onCache_flat (fs : FileSystem δ α) {act : Action (Cache δ) β} {b : β} {c : Cache δ}
    (ran : act fs.volume.cache = .ok b c) (kept : Cache.Kept fs.volume.cache c) :
    ∃ fs', onCache act fs = .ok b fs' ∧ fs'.volume.cache = c ∧
      fs'.SimulatesFlat fs.registry fs.volume.flat := by
  refine ⟨{ fs with volume := { fs.volume with cache := c } }, ?_, rfl, kept.consistent, rfl, ?_⟩
  · simp only [onCache, onVolume, Volume.onCache, Action.onPart, ran]
  · simp only [Volume.flat, kept.content, kept.blockCount]

omit [Allocator α] in
theorem moving_eq {c : Cache δ} (h : c.Consistent) (op : Operation) :
    ∃ c', op.moving c = .ok () c' ∧ Cache.Kept c c' := by
  cases op with
  | sync | drain =>
    obtain ⟨c', drained, kept, _⟩ := Cache.drain_eq h
    exact ⟨c', drained, kept⟩
  | flush s =>
    obtain ⟨c', flushed, kept, _⟩ := Cache.flush_eq h s
    exact ⟨c', flushed, kept⟩
  | prefetch s => exact Cache.prefetch_eq h s
  | allocate | create | openAt | reopen | close | remove | forbid | permit | read | write
  | locate => exact ⟨c, rfl, .refl h⟩

/-- What an operation does with the flat volume, it does with the cached one. -/
theorem perform_flat (h : fs.volume.cache.Consistent)
    (done : (op.filing.run fs.registry).run Flat.answer fs.volume.flat = .ok (answer, g) w) :
    ∃ fs', perform op fs = .ok answer fs' ∧ fs'.SimulatesFlat g w := by
  obtain ⟨c, ran, kept⟩ := moving_eq h op
  obtain ⟨fs₁, moved, _, consistent, registry, flat⟩ := onCache_flat fs ran kept
  rw [← registry, ← flat] at done
  obtain ⟨fs', filed, simulates⟩ := onFiles_flat consistent done
  exact ⟨fs', by rw [perform_eq_filing, Action.bind_ok moved, filed], simulates⟩

variable [MappedAllocator α]

structure Realizes (fs : FileSystem δ α) (a : Archive) : Prop where
  consistent : fs.volume.cache.Consistent
  represents : Represents fs.volume.flat fs.registry a

theorem SimulatesFlat.realizes (h : fs.SimulatesFlat g w) (represents : Represents w g a) :
    fs.Realizes a := by
  obtain ⟨consistent, rfl, rfl⟩ := h
  exact ⟨consistent, represents⟩

theorem Realizes.locate_eq (h : fs.Realizes a) {id : InodeId} (inUse : (a.openings id).isSome)
    (offset count : Nat) (forWrite : Bool) : ∃ s fs',
    perform (.locate id offset count forWrite) fs = .ok (.located s) fs' ∧
      a.Admits (.locate id offset count forWrite) (.located s) ∧
      fs'.Realizes (a.next (.locate id offset count forWrite) (.located s)) ∧
      ∀ t, s = some t → (fs'.volume.flat.recordAt (a.opening id).home).Leads
        fs'.volume.cache.content offset t := by
  obtain ⟨⟨s, g⟩, w, done, answered, leads⟩ :=
    h.represents.returns_locate inUse offset count forWrite
  obtain ⟨fs', ran, simulates⟩ := onFiles_flat h.consistent done
  refine ⟨s, fs', by rw [perform, Action.bind_ok ran]; rfl, answered.admitted,
    simulates.realizes answered.represents, ?_⟩
  rw [← simulates.flat] at leads
  exact leads

/-- Every operation in order returns with a right answer. -/
theorem Realizes.perform_eq (h : fs.Realizes a) {op : Operation} (allowed : a.Allows op) :
    ∃ answer fs', perform op fs = .ok answer fs' ∧ a.Admits op answer ∧
      fs'.Realizes (a.next op answer) := by
  obtain ⟨⟨answer, g⟩, w, done, answered⟩ := h.represents.returns_filing allowed
  obtain ⟨fs', ran, simulates⟩ := perform_flat h.consistent done
  exact ⟨answer, fs', ran, answered.admitted, simulates.realizes answered.represents⟩

theorem Run.realizes (run : Run fs₀ a₀ fs a) (h : fs₀.Realizes a₀) : fs.Realizes a := by
  induction run with
  | start => exact h
  | step _ allowed performed ih =>
    obtain ⟨answer, fs', done, _, realizes⟩ := ih.perform_eq allowed
    rw [performed] at done
    cases done
    exact realizes

/-- A new file system has no files, whatever the device holds. -/
theorem realizes_new {device : δ} (healthy : LawfulDevice.Healthy device)
    {capacity total reserved : Nat} (enough : total ≤ Device.blockCount device)
    (small : total ≤ UInt32.size) {fs : FileSystem δ SpaceMap}
    (made : new device capacity total reserved = .ok fs) : fs.Realizes { total, reserved } := by
  obtain ⟨cache, map, cached, mapped, rfl⟩ := eq_of_new made
  obtain ⟨cache', cached', consistent, _, _, same⟩ :=
    Cache.new_eq healthy (Cache.positive_of_new cached)
  rw [cached] at cached'
  cases cached'
  refine ⟨consistent, .of_new mapped ?_ small, .empty _ fun _ => rfl⟩
  change total ≤ Device.blockCount cache.device
  exact same ▸ enough

theorem Realizes.exists_step (h : fs.Realizes a) (run : Run fs₀ a₀ fs a) (op : Operation)
    (allowed : a.Allows op) : ∃ answer fs', a.Admits op answer ∧ fs'.Realizes (a.next op answer) ∧
      Run fs₀ a₀ fs' (a.next op answer) := by
  obtain ⟨answer, fs', done, admitted, after⟩ := h.perform_eq allowed
  exact ⟨answer, fs', admitted, after, run.step allowed done⟩

theorem Realizes.exists_occupied {count : Nat} (h : fs.Realizes a) (run : Run fs₀ a₀ fs a)
    (vacant : a.Vacant count) (room : 1 < count) : ∃ fs' a' home id, Run fs₀ a₀ fs' a' ∧
      fs'.Realizes a' ∧ a'.Occupied count home id := by
  have free : 0 < a.free := vacant.free ▸ Nat.sub_pos_of_lt room
  obtain ⟨_, fs₁, admitted, realizes, run⟩ := h.exists_step run .allocate trivial
  obtain ⟨home, rfl⟩ := admitted.allocate free
  obtain ⟨_, fs₂, admitted, realizes, run⟩ :=
    realizes.exists_step run (.create home 0 .file) (Finset.mem_insert_self _ _)
  obtain rfl := admitted.create_empty
  obtain ⟨_, fs₃, admitted, realizes, run⟩ :=
    realizes.exists_step run (.openAt home) (Finset.mem_insert_self _ _)
  obtain ⟨id, rfl⟩ := admitted.openAt
  exact ⟨fs₃, _, home, id, run, realizes, vacant.occupied⟩

/-- Of 128 sectors, all but one are taken when a file is written to just behind what is
pointed at directly: 124 for its bytes, one for a table, one for its record. -/
theorem exists_run : ∃ (fs₀ fs : FileSystem MemoryDisk SpaceMap) (a : Archive) (id : InodeId)
    (home : Sector), new (MemoryDisk.zeroed 128) 1 128 1 = .ok fs₀ ∧
      Run fs₀ { total := 128, reserved := 1 } fs a ∧ a.openings id = some { home } ∧
      a.live = {home} ∧ a.granted = ∅ ∧ a.file home = ⟨.file, overlay [] 62976 [1, 2, 3]⟩ := by
  obtain ⟨fs₀, made⟩ : ∃ fs₀, new (MemoryDisk.zeroed 128) 1 128 1 = .ok fs₀ := ⟨_, rfl⟩
  have realizes := realizes_new (MemoryDisk.healthy_zeroed (by decide))
    (MemoryDisk.blockCount_zeroed 128).ge (by decide) made
  obtain ⟨fs, a, home, id, run, realizes, occupied⟩ :=
    realizes.exists_occupied .start (.new 128) (by decide)
  have allowed : a.Allows (.write id 62976 [1, 2, 3]) := by
    rw [Archive.Allows, occupied.found]
    rfl
  obtain ⟨_, fs, admitted, realizes, run⟩ := realizes.exists_step run _ allowed
  have whole : Layout.writable (a.fileOf id).size a.free 62976
      ([1, 2, 3] : List UInt8).length = 3 := by
    rw [occupied.fileOf, occupied.free]
    decide
  have written := admitted.write (by rw [occupied.opening])
  rw [whole] at written
  subst written
  refine ⟨fs₀, fs, _, id, home, made, run, occupied.found, occupied.live, occupied.granted, ?_⟩
  simp only [Archive.next, Archive.withBytes, occupied.fileOf, occupied.opening,
    Function.update_self]
  rfl

end FileSystem

end InodeVolume
