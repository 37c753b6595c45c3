import InodeVolume.Proofs.Disk.Image
import InodeVolume.Proofs.Packer.Storing

/-!
# Packing

Beside an agent that empties the cache whenever it likes, the packer does to its volume what it
would do to one without a cache. So what it says and what it leaves on the volume is told by the
files alone.
-/

namespace InodeVolume

namespace Packer

def fileLine (name : String) (home : Sector) (count : Nat) : String :=
  s!"file: {Quoted.encode name} inode={home} bytes={count}"

def fileLines (files : List (String × SparseFile)) (placed : List (Sector × Nat)) : List String :=
  List.zipWith (fun (name, _) (home, count) => fileLine name home count) files placed

def sources (files : List (String × SparseFile)) : List (String × Except HostError Source) :=
  files.map fun (name, f) => (name, .ok (.file f))

def contents (files : List (String × SparseFile)) : List (List UInt8) :=
  files.map fun (_, f) => f.bytes

namespace Packing

variable {p : Packing} {lines : List String} {v w : Flat SpaceMap}

/-- The packer has said `lines`, and its volume shows what `w` does. -/
structure SimulatesFlat (p : Packing) (lines : List String) (w : Flat SpaceMap) : Prop where
  consistent : p.volume.cache.Consistent
  lines : p.lines = lines
  flat : p.volume.flat = w

theorem SimulatesFlat.say (h : p.SimulatesFlat lines w) (line : String) :
    ∃ p', Packing.say line p = .ok () p' ∧ p'.SimulatesFlat (line :: lines) w :=
  ⟨_, rfl, h.consistent, congrArg (line :: ·) h.lines, h.flat⟩

/-- Emptying the cache cannot be seen. -/
theorem SimulatesFlat.drained (h : p.SimulatesFlat lines w) :
    ∃ c, Cache.drain p.volume.cache = .ok () c ∧
      SimulatesFlat { p with volume := { p.volume with cache := c } } lines w := by
  obtain ⟨c, ran, kept, _⟩ := Cache.drain_eq h.consistent
  refine ⟨c, ran, kept.consistent, h.lines, ?_⟩
  rw [← h.flat]
  simp only [Volume.flat, kept.content, kept.blockCount]

theorem SimulatesFlat.flush (h : p.SimulatesFlat lines w) :
    ∃ p', Packing.flush p = .ok () p' ∧ p'.SimulatesFlat lines w := by
  obtain ⟨c, ran, simulates⟩ := h.drained
  refine ⟨_, ?_, simulates⟩
  simp only [Packing.flush, onVolume, Volume.onCache, Action.onPart, ran]

theorem SimulatesFlat.tend (h : p.SimulatesFlat lines w) :
    ∃ p', Packing.tend p = .ok () p' ∧ p'.SimulatesFlat lines w := by
  unfold Packing.tend
  rw [Action.get_bind]
  cases due : p.flushes with
  | nil => exact ⟨p, rfl, h⟩
  | cons now rest =>
    have waiting : SimulatesFlat { p with flushes := rest } lines w :=
      ⟨h.consistent, h.lines, h.flat⟩
    cases now with
    | false => exact ⟨_, rfl, waiting⟩
    | true =>
      obtain ⟨c, ran, simulates⟩ := waiting.drained
      refine ⟨_, ?_, simulates⟩
      have served : onVolume (Volume.onCache (Cache.byAgent Cache.drain)) { p with flushes := rest } =
          .ok true { p with volume := { p.volume with cache := c }, flushes := rest } := by
        simp only [onVolume, Volume.onCache, Action.onPart, Cache.byAgent, ran]
      dsimp only
      rw [Action.bind_ok Action.modify_eq, if_pos rfl, Action.bind_ok served]
      rfl

/-- The packer is answered as if it had its volume for itself. -/
theorem SimulatesFlat.answer (h : p.SimulatesFlat lines w) {r : Request} {a : r.Answer}
    {w' : Flat SpaceMap} (done : Flat.answer r w = .ok a w') :
    ∃ p', Packing.answer r p = .ok a p' ∧ p'.SimulatesFlat lines w' := by
  obtain ⟨p₁, tended, consistent, said, rfl⟩ := h.tend
  obtain ⟨volume, answered, consistent, same⟩ := Volume.answer_flat consistent done
  refine ⟨{ p₁ with volume }, ?_, consistent, said, same⟩
  rw [Packing.answer, Action.bind_ok tended]
  simp only [onVolume, Action.onPart, answered]

theorem SimulatesFlat.run (h : p.SimulatesFlat lines w) {β : Type} {program : Program β}
    {post : β → Flat SpaceMap → Prop} (returns : program.Returns w post) :
    ∃ b p' w', program.run Packing.answer p = .ok b p' ∧ p'.SimulatesFlat lines w' ∧ post b w' := by
  obtain ⟨b, w', done, holds⟩ := returns
  have step (p : Packing) (w : Flat SpaceMap) (r : Request) (a : r.Answer) (w' : Flat SpaceMap)
      (h : p.SimulatesFlat lines w) (answered : Flat.answer r w = .ok a w') :
      ∃ p', Packing.answer r p = .ok a p' ∧ p'.SimulatesFlat lines w' := h.answer answered
  obtain ⟨p', ran, simulates⟩ := Program.run_simulates step h done
  exact ⟨b, p', w', ran, simulates, holds⟩

/-- How packing ends: it goes through all files, or stops at one whose record finds no sector. -/
inductive Ended (files : List (String × SparseFile)) (placed : List (Sector × Nat)) :
    Option Failure → Prop where
  | all : placed.length = files.length → Ended files placed none
  | full : placed.length < files.length → Ended files placed (some .noSectorForInode)

theorem Ended.cons {files : List (String × SparseFile)} {placed : List (Sector × Nat)}
    {failure : Option Failure} (h : Ended files placed failure) (file : String × SparseFile)
    (entry : Sector × Nat) : Ended (file :: files) (entry :: placed) failure := by
  cases h with
  | all same => exact .all (congrArg Nat.succ same)
  | full fewer => exact .full (Nat.succ_lt_succ fewer)

/-- Files are packed one by one, and of each that is placed a line tells where. -/
theorem SimulatesFlat.addAll {a : Archive} (h : p.SimulatesFlat lines w) (keeps : w.Keeps a)
    (rest : a.AtRest) (files : List (String × SparseFile)) :
    ∃ failure p' placed w' a', Packing.addAll (sources files) p = .ok failure p' ∧
      Ended files placed failure ∧ a.Packs (contents files) placed a' ∧ w'.Keeps a' ∧
      p'.SimulatesFlat ((fileLines files placed).reverse ++ lines) w' := by
  induction files generalizing p lines w a with
  | nil => exact ⟨none, p, [], w, a, rfl, .all rfl, .done, keeps, h⟩
  | cons file files ih =>
    obtain ⟨name, f⟩ := file
    obtain ⟨p₁, tended, simulates⟩ := h.tend
    obtain ⟨⟨result, g⟩, p₂, w₂, stored, simulates, outcome⟩ :=
      simulates.run (returns_store keeps rest f.bytes)
    -- Unlike the image, a file of the host is the same whatever is on the volume.
    have given : Packing.content (.file f) p₁ = .ok f p₁ := rfl
    rw [sources, List.map_cons, Packing.addAll, Action.bind_ok tended, Action.bind_ok given,
      storeFile_eq, Action.bind_ok stored]
    rcases outcome with ⟨rfl, none_left, keeps⟩ | ⟨home, count, rfl, takes, keeps⟩
    · exact ⟨_, p₂, [], w₂, a, rfl, .full (Nat.succ_pos _), .full none_left, keeps, simulates⟩
    · obtain ⟨p₃, said, simulates⟩ := simulates.say (fileLine name home count)
      obtain ⟨failure, p', placed, w', a', done, ended, packs, keeps, simulates⟩ :=
        ih simulates keeps (rest.withFile home _)
      refine ⟨failure, p', (home, count) :: placed, w', a', ?_, ended.cons _ _,
        .placed takes packs, keeps, ?_⟩
      · exact (Action.bind_ok said).trans done
      · simpa [fileLines] using simulates

def lastLine (free : Nat) : Option Failure → List String
  | none => [s!"free sectors: {free}"]
  | some _ => []

/-- Whether or not all files were packed, the packer ends with what `w` shows on its volume. -/
theorem SimulatesFlat.finish {a : Archive} (h : p.SimulatesFlat lines w) (keeps : w.Keeps a)
    (rest : a.AtRest) (files : List (String × SparseFile)) :
    ∃ failure p' placed w' a', Packing.finish (sources files) p = .ok failure p' ∧
      Ended files placed failure ∧ a.Packs (contents files) placed a' ∧ w'.Keeps a' ∧
      p'.SimulatesFlat (lastLine a'.free failure ++ ((fileLines files placed).reverse ++ lines))
        w' := by
  obtain ⟨failure, p₁, placed, w', a', added, ended, packs, keeps, simulates⟩ :=
    h.addAll keeps rest files
  obtain ⟨p₂, tended, simulates⟩ := simulates.tend
  rw [Packing.finish, Action.bind_ok added, Action.bind_ok tended]
  cases failure with
  | some e => exact ⟨some e, p₂, placed, w', a', rfl, ended, packs, keeps, simulates⟩
  | none =>
    obtain ⟨p₃, flushed, simulates⟩ := simulates.flush
    have free : p₃.volume.allocator.free = a'.free := by
      rw [← keeps.free, ← simulates.flat]
      rfl
    obtain ⟨p', said, simulates⟩ := simulates.say s!"free sectors: {p₃.volume.allocator.free}"
    rw [free] at simulates
    refine ⟨none, p', placed, w', a', ?_, ended, packs, keeps, simulates⟩
    exact (Action.bind_ok flushed).trans ((Action.get_bind).trans (Action.bind_ok said))

end Packing

end Packer

end InodeVolume
