import InodeVolume.Cache.Agent
import InodeVolume.Proofs.System.Mounting

/-!
# Upkeep of the cache

Between any two operations on files, and before each request that one of them makes,
agents and others may load sectors ahead, write them back or empty the cache. None of
this, nor the size of the cache, can be told from what the operations answer: every run
does what a run on the flat volume does, where there is no cache.
-/

namespace InodeVolume

/-- What may be done with a cache beside the operations on files. -/
inductive Upkeep where
  | prefetch (s : Sector)
  | flush (s : Sector)
  | drain
  | sync
  | expect (s : Sector)
  /-- Loads the sector that is expected, if there is one. -/
  | follow

namespace Upkeep

variable {δ : Type} [Device δ]

def perform : Upkeep → Action (Cache δ) Unit
  | prefetch s => Cache.prefetch s
  | flush s => Cache.flush s
  | drain | sync => Cache.drain
  | expect s => modify fun c => { c with lookahead := c.lookahead.expect s }
  | follow => do
    let _ ← Cache.followOwn

variable [LawfulDevice δ]

theorem follow_eq {c : Cache δ} (h : c.Consistent) :
    ∃ c', Cache.followOwn c = .ok c.lookahead.target.isSome c' ∧ Cache.Kept c c' := by
  have taken : Cache.Kept c { c with lookahead := { c.lookahead with target := none } } :=
    (h.coherent.withLookahead _).kept h.healthy rfl h.within
  cases expected : c.lookahead.target with
  | none =>
    refine ⟨_, ?_, taken⟩
    simp only [Cache.followOwn, Action.get_bind, Lookahead.take, expected]
    rfl
  | some s =>
    obtain ⟨c', loaded, kept⟩ := Cache.prefetch_eq taken.consistent s
    refine ⟨c', ?_, taken.trans kept⟩
    simp only [Cache.followOwn, Action.get_bind, Lookahead.take, expected]
    rw [Action.bind_ok Action.modify_eq, Cache.follow, Action.bind_ok loaded]
    rfl

/-- Upkeep never stops at a fault and loses nothing. -/
theorem perform_eq {c : Cache δ} (h : c.Consistent) (u : Upkeep) :
    ∃ c', u.perform c = .ok () c' ∧ Cache.Kept c c' := by
  cases u with
  | prefetch s => exact Cache.prefetch_eq h s
  | flush s =>
    obtain ⟨c', done, kept, _⟩ := Cache.flush_eq h s
    exact ⟨c', done, kept⟩
  | drain | sync =>
    obtain ⟨c', done, kept, _⟩ := Cache.drain_eq h
    exact ⟨c', done, kept⟩
  | expect s =>
    exact ⟨_, Action.modify_eq, (h.coherent.withLookahead _).kept h.healthy rfl h.within⟩
  | follow =>
    obtain ⟨c', done, kept⟩ := follow_eq h
    refine ⟨c', ?_, kept⟩
    rw [perform, Action.bind_ok done]
    rfl

theorem forM_perform_eq {c : Cache δ} (h : c.Consistent) (now : List Upkeep) :
    ∃ c', now.forM perform c = .ok () c' ∧ Cache.Kept c c' := by
  induction now generalizing c with
  | nil => exact ⟨c, rfl, .refl h⟩
  | cons u rest ih =>
    obtain ⟨c₁, done, kept⟩ := u.perform_eq h
    obtain ⟨c₂, rest_done, kept'⟩ := ih kept.consistent
    exact ⟨c₂, (Action.bind_ok done).trans rest_done, kept.trans kept'⟩

end Upkeep

/-- A volume, and the upkeep that is due before each of its next requests. -/
structure Tended (δ α : Type) where
  volume : Volume δ α
  due : List (List Upkeep)

namespace Tended

variable {δ α β : Type}

def onVolume (act : Action (Volume δ α) β) : Action (Tended δ α) β :=
  .onPart Tended.volume (fun volume t => { t with volume }) act

variable [Device δ]

def tend : Action (Tended δ α) Unit := do
  match (← get).due with
  | [] => return
  | now :: rest =>
    modify fun t => { t with due := rest }
    onVolume (Volume.onCache (now.forM Upkeep.perform))

variable [Allocator α]

def answer (r : Request) : Action (Tended δ α) r.Answer := do
  tend
  onVolume (Volume.answer r)

/-- Where nothing is due, the volume answers. -/
theorem run_answer_nil (p : Program β) (v : Volume δ α) :
    p.run answer ⟨v, []⟩ = match Volume.perform p v with
      | .ok b v' => .ok b ⟨v', []⟩
      | .error f v' => .error f ⟨v', []⟩ := by
  induction p generalizing v with
  | done b => rfl
  | fault f => rfl
  | ask r next ih =>
    have asked : answer r (⟨v, []⟩ : Tended δ α) = onVolume (Volume.answer r) ⟨v, []⟩ := rfl
    simp only [Program.run, Volume.perform, bind, EStateM.bind, asked, onVolume, Action.onPart]
    cases answered : Volume.answer r v with
    | ok a v' => exact ih a v'
    | error f v' => rfl

variable [LawfulDevice δ] {t : Tended δ α} {w : Flat α}

omit [Allocator α] in
theorem tend_flat (h : t.volume.cache.Consistent) : ∃ t', tend t = .ok () t' ∧
    t'.volume.cache.Consistent ∧ t'.volume.flat = t.volume.flat := by
  obtain ⟨v, due⟩ := t
  cases due with
  | nil => exact ⟨_, rfl, h, rfl⟩
  | cons now rest =>
    obtain ⟨c, done, kept⟩ := Upkeep.forM_perform_eq h now
    refine ⟨⟨{ v with cache := c }, rest⟩, ?_, kept.consistent, ?_⟩
    · rw [tend, Action.get_bind]
      dsimp only
      rw [Action.bind_ok Action.modify_eq]
      simp only [onVolume, Volume.onCache, Action.onPart, done]
    · simp only [Volume.flat, kept.content, kept.blockCount]

theorem answer_flat (h : t.volume.cache.Consistent) {r : Request} {a : r.Answer}
    (done : Flat.answer r t.volume.flat = .ok a w) : ∃ t', answer r t = .ok a t' ∧
      t'.volume.cache.Consistent ∧ t'.volume.flat = w := by
  obtain ⟨t₁, tended, consistent, same⟩ := tend_flat h
  rw [← same] at done
  obtain ⟨v, answered, consistent, same⟩ := Volume.answer_flat consistent done
  refine ⟨{ t₁ with volume := v }, ?_, consistent, same⟩
  rw [answer, Action.bind_ok tended]
  simp only [onVolume, Action.onPart, answered]

end Tended

namespace Volume

variable {δ α β : Type} [Device δ] [Allocator α]

/-- Performs a program with upkeep before its requests, as far as there is any. -/
def performAmid (due : List (List Upkeep)) (p : Program β) : Action (Volume δ α) β :=
  .onPart (fun v => ⟨v, due⟩) (fun t _ => t.volume) (p.run Tended.answer)

theorem performAmid_nil (p : Program β) :
    (performAmid [] p : Action (Volume δ α) β) = perform p := by
  funext v
  simp only [performAmid, Action.onPart, Tended.run_answer_nil]
  cases perform p v <;> rfl

/-- Upkeep before its requests cannot be seen by a program. -/
theorem performAmid_flat [LawfulDevice δ] {v : Volume δ α} (h : v.cache.Consistent)
    (due : List (List Upkeep)) {p : Program β} {b : β} {w : Flat α}
    (done : p.run Flat.answer v.flat = .ok b w) :
    ∃ v', performAmid due p v = .ok b v' ∧ v'.cache.Consistent ∧ v'.flat = w := by
  have step (t : Tended δ α) (w : Flat α) (r : Request) (a : r.Answer) (w' : Flat α)
      (related : t.volume.cache.Consistent ∧ t.volume.flat = w)
      (answered : Flat.answer r w = .ok a w') :
      ∃ t', Tended.answer r t = .ok a t' ∧ t'.volume.cache.Consistent ∧ t'.volume.flat = w' := by
    obtain ⟨consistent, rfl⟩ := related
    exact Tended.answer_flat consistent answered
  obtain ⟨t, ran, shows⟩ := Program.run_simulates step (s := ⟨v, due⟩) ⟨h, rfl⟩ done
  exact ⟨t.volume, by simp only [performAmid, Action.onPart, ran], shows⟩

end Volume

/-- A turn of those who work on files, or of those who look after the cache. -/
inductive Turn where
  /-- An operation, and the upkeep that is due before each of its requests. -/
  | work (op : Operation) (due : List (List Upkeep))
  | upkeep (u : Upkeep)

def Turn.operations : List Turn → List Operation :=
  List.filterMap fun
    | work op _ => some op
    | upkeep _ => none

/-- What can be seen of an operation: its answer, and after it the inodes, with their lengths,
and the allocator. -/
structure Observation (α : Type) where
  answer : Answer
  registry : Registry
  allocator : α

/-- Operations on a registry and a flat volume, with what is seen of them. -/
inductive Flat.Does {α : Type} [Allocator α] :
    Registry → Flat α → List Operation → List (Observation α) → Registry → Flat α → Prop where
  | nil (g : Registry) (v : Flat α) : Does g v [] [] g v
  | cons {g g' g'' : Registry} {v w u : Flat α} {op : Operation} {rest : List Operation}
    {answer : Answer} {seen : List (Observation α)} :
    (op.filing.run g).run Flat.answer v = .ok (answer, g') w → Does g' w rest seen g'' u →
      Does g v (op :: rest) (⟨answer, g', w.allocator⟩ :: seen) g'' u

namespace FileSystem

variable {δ α : Type} [Device δ] [Allocator α]

def onFilesAmid {β : Type} (due : List (List Upkeep)) (act : Filing β) :
    Action (FileSystem δ α) β := do
  let (b, registry) ← onVolume (Volume.performAmid due (act.run (← get).registry))
  modify fun fs => { fs with registry }
  return b

/-- Performs an operation with upkeep before its requests, as far as there is any. -/
def performAmid (due : List (List Upkeep)) (op : Operation) : Action (FileSystem δ α) Answer := do
  onCache op.moving
  onFilesAmid due op.filing

theorem onFilesAmid_nil {β : Type} (act : Filing β) :
    (onFilesAmid [] act : Action (FileSystem δ α) β) = onFiles act := by
  simp only [onFilesAmid, onFiles, Volume.performAmid_nil]

/-- Without upkeep in between it is the operation itself. -/
theorem performAmid_nil (op : Operation) :
    (performAmid [] op : Action (FileSystem δ α) Answer) = perform op := by
  rw [performAmid, onFilesAmid_nil, perform_eq_filing]

def performAll : List Turn → Action (FileSystem δ α) (List (Observation α))
  | [] => return []
  | .work op due :: rest => do
    let answer ← performAmid due op
    let fs ← get
    return ⟨answer, fs.registry, fs.volume.allocator⟩ :: (← performAll rest)
  | .upkeep u :: rest => do
    onCache u.perform
    performAll rest

/-- Each operation on files is in order when its turn comes. -/
def Orderly : List Turn → Archive → FileSystem δ α → Prop
  | [], _, _ => True
  | .work op due :: rest, a, fs => a.Allows op ∧
    ∀ answer fs', performAmid due op fs = .ok answer fs' → Orderly rest (a.next op answer) fs'
  | .upkeep u :: rest, a, fs => ∀ fs', onCache u.perform fs = .ok () fs' → Orderly rest a fs'

theorem Orderly.work {turns : List Turn} {a : Archive} {fs fs' : FileSystem δ α} {op : Operation}
    {due : List (List Upkeep)} {answer : Answer} (allowed : a.Allows op)
    (done : performAmid due op fs = .ok answer fs') (rest : Orderly turns (a.next op answer) fs') :
    Orderly (.work op due :: turns) a fs := by
  refine ⟨allowed, fun answer' fs'' done' => ?_⟩
  rw [done] at done'
  cases done'
  exact rest

theorem Orderly.upkeep {turns : List Turn} {a : Archive} {fs fs' : FileSystem δ α} {u : Upkeep}
    (done : onCache u.perform fs = .ok () fs') (rest : Orderly turns a fs') :
    Orderly (.upkeep u :: turns) a fs := by
  intro fs'' done'
  rw [done] at done'
  cases done'
  exact rest

variable [LawfulDevice δ] {fs : FileSystem δ α} {g : Registry} {w : Flat α}

omit [Allocator α] in
theorem upkeep_flat (h : fs.volume.cache.Consistent) (u : Upkeep) :
    ∃ fs', onCache u.perform fs = .ok () fs' ∧ fs'.SimulatesFlat fs.registry fs.volume.flat := by
  obtain ⟨c, ran, kept⟩ := u.perform_eq h
  obtain ⟨fs', moved, _, simulates⟩ := onCache_flat fs ran kept
  exact ⟨fs', moved, simulates⟩

theorem performAmid_flat (h : fs.volume.cache.Consistent) (due : List (List Upkeep))
    {op : Operation} {answer : Answer}
    (done : (op.filing.run fs.registry).run Flat.answer fs.volume.flat = .ok (answer, g) w) :
    ∃ fs', performAmid due op fs = .ok answer fs' ∧ fs'.SimulatesFlat g w := by
  obtain ⟨c, ran, kept⟩ := moving_eq h op
  obtain ⟨fs₁, moved, _, consistent, registry, flat⟩ := onCache_flat fs ran kept
  rw [← registry, ← flat] at done
  obtain ⟨v, performed, consistent, same⟩ := Volume.performAmid_flat consistent due done
  refine ⟨⟨v, g⟩, ?_, consistent, rfl, same⟩
  rw [performAmid, Action.bind_ok moved, onFilesAmid, Action.get_bind,
    Action.bind_ok (b := (answer, g)) (t := { fs₁ with volume := v })]
  · rfl
  · simp only [onVolume, Action.onPart, performed]

/-- Whatever upkeep there is, a run does what its operations do on the flat volume. -/
theorem performAll_flat (h : fs.volume.cache.Consistent) {turns : List Turn}
    {seen : List (Observation α)}
    (does : Flat.Does fs.registry fs.volume.flat (Turn.operations turns) seen g w) :
    ∃ fs', performAll turns fs = .ok seen fs' ∧ fs'.SimulatesFlat g w := by
  induction turns generalizing fs seen with
  | nil =>
    cases does
    exact ⟨fs, rfl, h, rfl, rfl⟩
  | cons turn rest ih =>
    cases turn with
    | work op due =>
      cases does with
      | cons done later =>
        obtain ⟨fs', ran, consistent, rfl, rfl⟩ := performAmid_flat h due done
        obtain ⟨fs'', rest_ran, simulates⟩ := ih consistent later
        refine ⟨fs'', ?_, simulates⟩
        rw [performAll, Action.bind_ok ran, Action.get_bind, Action.bind_ok rest_ran]
        rfl
    | upkeep u =>
      -- The flat volume stays as it is, so the same operations are still to come on it.
      obtain ⟨fs', moved, consistent, registry, flat⟩ := upkeep_flat h u
      rw [← registry, ← flat] at does
      obtain ⟨fs'', rest_ran, simulates⟩ := ih consistent does
      refine ⟨fs'', ?_, simulates⟩
      rw [performAll, Action.bind_ok moved]
      exact rest_ran

/-- Nothing that can be read, allocated or written back tells the file systems apart. -/
structure Alike (fs₁ fs₂ : FileSystem δ α) : Prop where
  registry : fs₁.registry = fs₂.registry
  allocator : fs₁.volume.allocator = fs₂.volume.allocator
  content : fs₁.volume.cache.content = fs₂.volume.cache.content
  synced : ∃ fs₁' fs₂', perform .sync fs₁ = .ok .nothing fs₁' ∧
    perform .sync fs₂ = .ok .nothing fs₂' ∧
    LawfulDevice.content fs₁'.volume.cache.device = LawfulDevice.content fs₂'.volume.cache.device

theorem SimulatesFlat.alike {fs₁ fs₂ : FileSystem δ α} (h₁ : fs₁.SimulatesFlat g w)
    (h₂ : fs₂.SimulatesFlat g w) : fs₁.Alike fs₂ := by
  have flat : fs₁.volume.flat = fs₂.volume.flat := h₁.flat.trans h₂.flat.symm
  refine ⟨h₁.registry.trans h₂.registry.symm, congrArg Flat.allocator flat,
    congrArg Flat.content flat, ?_⟩
  obtain ⟨fs₁', done₁, saved₁⟩ := sync_eq h₁.consistent
  obtain ⟨fs₂', done₂, saved₂⟩ := sync_eq h₂.consistent
  refine ⟨fs₁', fs₂', done₁, done₂, ?_⟩
  exact congrArg Flat.content (saved₁.device.trans (flat.trans saved₂.device.symm))

variable [MappedAllocator α]

theorem Realizes.performAmid_eq {a : Archive} (h : fs.Realizes a) {op : Operation}
    (allowed : a.Allows op) (due : List (List Upkeep)) : ∃ answer fs',
      performAmid due op fs = .ok answer fs' ∧ a.Admits op answer ∧
        fs'.Realizes (a.next op answer) := by
  obtain ⟨⟨answer, g⟩, w, done, answered⟩ := h.represents.returns_filing allowed
  obtain ⟨fs', ran, simulates⟩ := performAmid_flat h.consistent due done
  exact ⟨answer, fs', ran, answered.admitted, simulates.realizes answered.represents⟩

theorem Realizes.upkeep {a : Archive} (h : fs.Realizes a) (u : Upkeep) :
    ∃ fs', onCache u.perform fs = .ok () fs' ∧ fs'.Realizes a := by
  obtain ⟨fs', moved, simulates⟩ := upkeep_flat h.consistent u
  exact ⟨fs', moved, simulates.realizes h.represents⟩

/-- On the flat volume, operations in order never stop at a fault. -/
theorem Realizes.exists_does {a : Archive} (h : fs.Realizes a) {turns : List Turn}
    (orderly : Orderly turns a fs) : ∃ seen g w,
      Flat.Does fs.registry fs.volume.flat (Turn.operations turns) seen g w := by
  induction turns generalizing fs a with
  | nil => exact ⟨[], _, _, .nil _ _⟩
  | cons turn rest ih =>
    cases turn with
    | work op due =>
      obtain ⟨allowed, after⟩ := orderly
      obtain ⟨⟨answer, g⟩, w, done, answered⟩ := h.represents.returns_filing allowed
      obtain ⟨fs', ran, simulates⟩ := performAmid_flat h.consistent due done
      obtain ⟨seen, g', w', later⟩ :=
        ih (simulates.realizes answered.represents) (after answer fs' ran)
      obtain ⟨_, rfl, rfl⟩ := simulates
      exact ⟨_, g', w', .cons done later⟩
    | upkeep u =>
      obtain ⟨fs', moved, simulates⟩ := upkeep_flat h.consistent u
      obtain ⟨seen, g', w', later⟩ := ih (simulates.realizes h.represents) (orderly fs' moved)
      rw [simulates.registry, simulates.flat] at later
      exact ⟨seen, g', w', later⟩

/-- Two runs of the same operations on the same device, one of which has its operations in
order: with any two caches, and with any upkeep between the operations and before the requests of
each, they return and show the same, call the allocator alike and leave the same behind. -/
theorem upkeep_unseen {device : δ} {map : SpaceMap} {a : Archive}
    (mountable : Mountable device map a) {capacity₁ capacity₂ : Nat} (positive₁ : 0 < capacity₁)
    (positive₂ : 0 < capacity₂) : ∃ fs₁ fs₂ : FileSystem δ (Ledger SpaceMap),
      mount device capacity₁ { allocator := map } = .ok fs₁ ∧
      mount device capacity₂ { allocator := map } = .ok fs₂ ∧
      ∀ first second, Turn.operations first = Turn.operations second → Orderly first a fs₁ →
        ∃ seen fs₁' fs₂', performAll first fs₁ = .ok seen fs₁' ∧
          performAll second fs₂ = .ok seen fs₂' ∧ fs₁'.Alike fs₂' := by
  have stored := mountable.holdsArchive
  obtain ⟨fs₁, mounted₁, simulates₁⟩ :=
    mount_eq stored.healthy positive₁ ({ allocator := map } : Ledger SpaceMap)
  obtain ⟨fs₂, mounted₂, simulates₂⟩ :=
    mount_eq stored.healthy positive₂ ({ allocator := map } : Ledger SpaceMap)
  refine ⟨fs₁, fs₂, mounted₁, mounted₂, fun first second same orderly => ?_⟩
  obtain ⟨seen, g, w, does⟩ := (stored.realizes simulates₁).exists_does orderly
  obtain ⟨fs₁', ran₁, ended₁⟩ := performAll_flat simulates₁.consistent does
  rw [same, simulates₁.registry, simulates₁.flat, ← simulates₂.registry, ← simulates₂.flat] at does
  obtain ⟨fs₂', ran₂, ended₂⟩ := performAll_flat simulates₂.consistent does
  exact ⟨seen, fs₁', fs₂', ran₁, ran₂, ended₁.alike ended₂⟩

/-- The same file is created, written and read with one slot and much upkeep, and with 64 slots
and none. -/
theorem upkeep_unseen_written : ∃ (map : SpaceMap) (home : Sector) (id : InodeId),
    Mountable (MemoryDisk.zeroed 128) map { total := 128, reserved := 1 } ∧ 0 < 1 ∧ 0 < 64 ∧
    ∃ (fs₁ fs₂ : FileSystem MemoryDisk (Ledger SpaceMap)) (seen : List (Observation (Ledger SpaceMap)))
      (fs₁' fs₂' : FileSystem MemoryDisk (Ledger SpaceMap)),
      mount (MemoryDisk.zeroed 128) 1 { allocator := map } = .ok fs₁ ∧
      mount (MemoryDisk.zeroed 128) 64 { allocator := map } = .ok fs₂ ∧
      performAll [.work .allocate [], .upkeep .drain, .work (.create home 0 .file) [[.drain]],
        .upkeep (.expect 200), .upkeep .follow, .work (.openAt home) [],
        .work (.write id 62976 [1, 2, 3]) [[.prefetch home, .expect 5], [], [.follow, .sync]],
        .upkeep .sync, .upkeep (.prefetch home), .work (.read id 62974 10) [[.flush home]]] fs₁ =
          .ok seen fs₁' ∧
      performAll [.work .allocate [], .work (.create home 0 .file) [], .work (.openAt home) [],
        .work (.write id 62976 [1, 2, 3]) [], .work (.read id 62974 10) []] fs₂ = .ok seen fs₂' ∧
      fs₁'.Alike fs₂' := by
  obtain ⟨fs₀, made⟩ : ∃ fs₀, new (MemoryDisk.zeroed 128) 1 128 1 = .ok fs₀ := ⟨_, rfl⟩
  obtain ⟨map, mapped, _⟩ := mount_of_new made
  have mountable : Mountable (MemoryDisk.zeroed 128) map { total := 128, reserved := 1 } :=
    .blank (MemoryDisk.healthy_zeroed (by decide)) (MemoryDisk.blockCount_zeroed 128).ge (by decide)
      mapped
  obtain ⟨fs₁, fs₂, mounted₁, mounted₂, unseen⟩ :=
    upkeep_unseen mountable Nat.one_pos (by decide : 0 < 64)
  let a₀ : Archive := { total := 128, reserved := 1 }
  have realizes : fs₁.Realizes a₀ :=
    mountable.holdsArchive.realizes (simulatesFlat_of_mount mountable.holdsArchive.healthy mounted₁)
  have room : 0 < a₀.free := by simp [a₀, Archive.free]
  have anytime : a₀.Allows .allocate := trivial
  obtain ⟨_, _, allocated, admitted, realizes⟩ := realizes.performAmid_eq anytime []
  obtain ⟨home, rfl⟩ := admitted.allocate room
  obtain ⟨_, drained, realizes⟩ := realizes.upkeep .drain
  let a₁ : Archive := a₀.next .allocate (.sector (some home))
  have granted : a₁.Allows (.create home 0 .file) := Finset.mem_insert_self home _
  obtain ⟨_, _, created, admitted, realizes⟩ := realizes.performAmid_eq granted [[.drain]]
  obtain rfl := admitted.create_empty
  obtain ⟨_, expected, realizes⟩ := realizes.upkeep (.expect 200)
  obtain ⟨_, followed, realizes⟩ := realizes.upkeep .follow
  let a₂ : Archive := a₁.next (.create home 0 .file) (.created (.ok ()))
  have live : a₂.Allows (.openAt home) := Finset.mem_insert_self home _
  obtain ⟨_, _, opened, admitted, realizes⟩ := realizes.performAmid_eq live []
  obtain ⟨id, rfl⟩ := admitted.openAt
  let a₃ : Archive := a₂.next (.openAt home) (.opened id)
  have inUse : (a₃.openings id).isSome := by
    simp [a₃, a₂, a₁, a₀, Archive.next, Archive.withOpening]
  have writable : a₃.Allows (.write id 62976 [1, 2, 3]) := inUse
  obtain ⟨answer, _, written, admitted, realizes⟩ := realizes.performAmid_eq writable
    [[.prefetch home, .expect 5], [], [.follow, .sync]]
  obtain ⟨count, rfl⟩ : ∃ count, answer = .written count :=
    ⟨_, admitted.write (by simp [a₀, Archive.next, Archive.opening, Archive.withOpening])⟩
  obtain ⟨_, synced, realizes⟩ := realizes.upkeep .sync
  obtain ⟨_, fetched, realizes⟩ := realizes.upkeep (.prefetch home)
  obtain ⟨seen, fs₁', fs₂', ran₁, ran₂, alike⟩ := unseen
    [.work .allocate [], .upkeep .drain, .work (.create home 0 .file) [[.drain]],
      .upkeep (.expect 200), .upkeep .follow, .work (.openAt home) [],
      .work (.write id 62976 [1, 2, 3]) [[.prefetch home, .expect 5], [], [.follow, .sync]],
      .upkeep .sync, .upkeep (.prefetch home), .work (.read id 62974 10) [[.flush home]]]
    [.work .allocate [], .work (.create home 0 .file) [], .work (.openAt home) [],
      .work (.write id 62976 [1, 2, 3]) [], .work (.read id 62974 10) []] rfl <|
    .work anytime allocated <| .upkeep drained <| .work granted created <| .upkeep expected <|
    .upkeep followed <| .work live opened <| .work writable written <| .upkeep synced <|
    .upkeep fetched ⟨inUse, fun _ _ _ => trivial⟩
  exact ⟨map, home, id, mountable, Nat.one_pos, by decide, fs₁, fs₂, seen, fs₁', fs₂', mounted₁,
    mounted₂, ran₁, ran₂, alike⟩

end FileSystem

end InodeVolume
