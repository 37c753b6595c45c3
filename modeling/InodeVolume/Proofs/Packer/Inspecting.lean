import InodeVolume.Proofs.Cache.Clean
import InodeVolume.Proofs.Cache.Mirrors
import InodeVolume.Proofs.Packer.Untrusted
import InodeVolume.Proofs.Packer.Visiting

/-!
# Inspecting an image

To inspect an image is to do the steps of `cat` over any device, with any allocator and any look at
the file. Over a recorder and with a ledger it leaves no trace of a write or of a call, and what is
recorded is what `cat` does on the image itself.
-/

namespace InodeVolume

namespace ImageDisk

/-- To read from an image changes nothing, also where there is no block to be read. -/
theorem readBlock_same (n : Nat) (d : ImageDisk) :
    (Device.readBlock n).Ends d (fun _ d' => d' = d) fun _ d' => d' = d := by
  unfold Action.Ends
  simp only [Device.readBlock]
  split
  next done =>
    split at done
    · cases done
    · split at done <;> cases done
      rfl
  next failed =>
    split at failed
    · cases failed
      rfl
    · split at failed <;> cases failed
      rfl

end ImageDisk

namespace Kind

open InodeVolume.Action

variable {δ : Type} [Device δ] {P : δ → Prop} {d : δ}

theorem probe_keeps (keeps : Device.ReadKeeps P) (holds : P d) (s : Sector) :
    (probe s).Ends d (fun _ d' => P d') fun _ d' => P d' := by
  unfold probe
  apply ends_get_bind.mpr
  split
  · exact holds
  · apply ends_bind.mpr
    apply (keeps s d holds).mono
    · intro data d' holds'
      dsimp only
      split
      · exact holds'
      · exact holds'
    · exact fun _ _ => id

theorem probe_mirrors (s : Sector) (r : Recorder δ) :
    Mirrors Recorder.disk (probe s) (probe s) r := by
  unfold probe
  apply mirrors_get_bind.mpr
  change Mirrors _ _ (if (s.isNull || decide (Device.blockCount r ≤ s)) = true then _ else _) r
  split
  · exact mirrors_pure _ _
  · apply (Recorder.transfer_mirrors (.read s) _ r).bind
    intro data r'
    dsimp only
    split
    · exact mirrors_pure _ _
    · exact mirrors_pure _ _

end Kind

namespace Packer

structure Inspection (δ α β : Type) where
  found : Except Failure β
  disk : δ
  /-- None, if it has not come to that. -/
  allocator : Option α

section

variable {δ α β : Type} [Device δ]

def mountOn (given : Nat → Except Fault α) (disk : δ) : Except Fault (Volume δ α) := do
  let cache ← Cache.new disk Cache.defaultCapacity
  let allocator ← given (Device.blockCount disk)
  return ⟨cache, allocator⟩

variable [Allocator α]

/-- The steps of `cat`, with any look at the file. -/
def inspect (given : Nat → Except Fault α) (look : InodeId → Filing β) (home : Sector) (disk : δ) :
    Inspection δ α β :=
  match Kind.probe home disk with
  | .error f disk => ⟨.error (.fault f), disk, none⟩
  | .ok (.error e) disk => ⟨.error (.probe e), disk, none⟩
  | .ok (.ok _) disk =>
    match mountOn given disk with
    | .error f => ⟨.error (.fault f), disk, none⟩
    | .ok volume =>
      match Volume.perform ((visit home look).run {}) volume with
      | .ok (b, _) volume => ⟨.ok b, volume.unmount, some volume.allocator⟩
      | .error f volume => ⟨.error (.fault f), volume.unmount, some volume.allocator⟩

end

def fullMap (count : Nat) : Except Fault SpaceMap := SpaceMap.new count count

theorem mountOn_fullMap (disk : ImageDisk) :
    mountOn fullMap disk = mount disk disk.blockCount disk.blockCount := rfl

/-- `cat` is to inspect an image by reading the file to its end. -/
theorem cat_eq_inspect (image : ImageDisk) (home : Sector) :
    cat image home = ((inspect fullMap slurp home image).found,
      (inspect fullMap slurp home image).disk.file) := by
  unfold cat inspect
  rw [contentOf_eq]
  cases Kind.probe home image with
  | error f disk => rfl
  | ok result disk =>
    cases result with
    | error e => rfl
    | ok kind =>
      dsimp only
      rw [mountOn_fullMap]
      cases mount disk disk.blockCount disk.blockCount with
      | error f => rfl
      | ok volume =>
        dsimp only
        cases Volume.perform ((visit home slurp).run {}) volume with
        | error f volume => rfl
        | ok p volume => rfl

section

variable {δ α β : Type} [Device δ] {P : δ → Prop} {given : Nat → Except Fault α} {disk : δ}

theorem mountOn_eq_ok {volume : Volume δ α} (mounted : mountOn given disk = .ok volume) :
    Cache.new disk Cache.defaultCapacity = .ok volume.cache ∧
      given (Device.blockCount disk) = .ok volume.allocator := by
  unfold mountOn at mounted
  cases made : Cache.new disk Cache.defaultCapacity with
  | error f =>
    rw [made] at mounted
    cases mounted
  | ok cache =>
    cases chosen : given (Device.blockCount disk) with
    | error f =>
      rw [made, chosen] at mounted
      cases mounted
    | ok allocator =>
      rw [made, chosen] at mounted
      cases mounted
      exact ⟨rfl, rfl⟩

variable [Allocator α] {look : InodeId → Filing β}

theorem OnlyLooks.reads_alone (looks : OnlyLooks look) (home : Sector) :
    ((visit home look).run {}).Reads :=
  looks.reads_visit Std.TreeMap.getElem?_emptyc

/-- The device comes to no other state than by being read, and the allocator is the one that was
given. -/
theorem inspect_keeps (keeps : Device.ReadKeeps P) (looks : OnlyLooks look) (home : Sector)
    (holds : P disk) : P (inspect given look home disk).disk ∧
      ∀ a, (inspect given look home disk).allocator = some a → ∃ count, given count = .ok a := by
  have probed := Kind.probe_keeps keeps holds home
  unfold inspect
  cases ended : Kind.probe home disk with
  | error f disk' => exact ⟨probed.error ended, nofun⟩
  | ok result disk' =>
    have holds' := probed.ok ended
    cases result with
    | error e => exact ⟨holds', nofun⟩
    | ok kind =>
      dsimp only
      cases mounted : mountOn given disk' with
      | error f => exact ⟨holds', nofun⟩
      | ok volume =>
        obtain ⟨made, chosen⟩ := mountOn_eq_ok mounted
        have visited := Volume.perform_clean keeps (looks.reads_alone home)
          (Cache.clean_of_new holds' made)
        dsimp only
        cases done : Volume.perform ((visit home look).run {}) volume with
        | error f w =>
          obtain ⟨clean, same⟩ := visited.error done
          refine ⟨Volume.device_unmount clean, ?_⟩
          rintro _ ⟨⟩
          exact ⟨_, same ▸ chosen⟩
        | ok p w =>
          obtain ⟨clean, same⟩ := visited.ok done
          refine ⟨Volume.device_unmount clean, ?_⟩
          rintro _ ⟨⟩
          exact ⟨_, same ▸ chosen⟩

def ledgered (given : Nat → Except Fault α) (count : Nat) : Except Fault (Ledger α) :=
  (given count).map fun allocator => { allocator }

omit [Allocator α] in
theorem mountOn_unrecorded (r : Recorder δ) :
    mountOn given r.disk = (mountOn (ledgered given) r).map Volume.unrecorded := by
  have counted : Device.blockCount r = Device.blockCount r.disk := rfl
  unfold mountOn ledgered
  rw [Cache.new_unrecorded r.disk r.log, counted]
  cases Cache.new r Cache.defaultCapacity with
  | error f => rfl
  | ok cache =>
    cases given (Device.blockCount r.disk) with
    | error f => rfl
    | ok allocator => rfl

/-- An inspection goes the same way whether or not it is recorded. -/
theorem inspect_recorded (looks : OnlyLooks look) (home : Sector) (r : Recorder δ) :
    (inspect given look home r.disk).found = (inspect (ledgered given) look home r).found ∧
      (inspect given look home r.disk).disk = (inspect (ledgered given) look home r).disk.disk := by
  have probed := Kind.probe_mirrors home r
  unfold inspect
  cases ended : Kind.probe home r with
  | error f r' =>
    rw [probed.error ended]
    exact ⟨rfl, rfl⟩
  | ok result r' =>
    rw [probed.ok ended]
    cases result with
    | error e => exact ⟨rfl, rfl⟩
    | ok kind =>
      dsimp only
      rw [mountOn_unrecorded r']
      cases mountOn (ledgered given) r' with
      | error f => exact ⟨rfl, rfl⟩
      | ok volume =>
        have visited := Volume.perform_mirrors (looks.reads_alone home) volume
        dsimp only [Except.map]
        cases done : Volume.perform ((visit home look).run {}) volume with
        | error f w =>
          rw [visited.error done]
          exact ⟨rfl, w.unmount_unrecorded⟩
        | ok p w =>
          rw [visited.ok done]
          exact ⟨rfl, w.unmount_unrecorded⟩

end

/-- An inspection of an image that is recorded, with a ledger for the allocator. -/
def watched {β : Type} (look : InodeId → Filing β) (home : Sector) (file : SparseFile) :
    Inspection (Recorder ImageDisk) (Ledger SpaceMap) β :=
  inspect (ledgered fullMap) look home ⟨.ofFile file, []⟩

/-- An inspection leaves no trace in the image. -/
structure Traceless {β : Type} (look : InodeId → Filing β) (home : Sector) (file : SparseFile) :
    Prop where
  /-- It goes the same way when nobody watches. -/
  found : (inspect fullMap look home (ImageDisk.ofFile file)).found =
    (watched look home file).found
  disk : (inspect fullMap look home (ImageDisk.ofFile file)).disk = .ofFile file
  unwritten (n : Nat) (data : Block) : .written n data ∉ (watched look home file).disk.log
  /-- Nothing is asked for but sectors to be read, so no call to the allocator is even begun. -/
  asks : ((visit home look).run {}).Reads
  uncalled {ledger : Ledger SpaceMap} :
    (watched look home file).allocator = some ledger → ledger.calls = []

/-- The disk of a recorder is that of the file, and nobody has asked for a write. -/
def Unwritten (file : SparseFile) (r : Recorder ImageDisk) : Prop :=
  r.disk = .ofFile file ∧ ∀ n data, .written n data ∉ r.log

theorem readKeeps_unwritten (file : SparseFile) : Device.ReadKeeps (Unwritten file) := by
  rintro n r ⟨same, unwritten⟩
  have read : (Device.readBlock n).Ends r (fun _ r' => r'.disk = r.disk)
      fun _ r' => r'.disk = r.disk :=
    Recorder.transfer_ends.mpr (ImageDisk.readBlock_same n r.disk)
  have kept {r' : Recorder ImageDisk} (ended : r'.disk = r.disk ∧ r'.log = r.log ++ [.read n]) :
      Unwritten file r' := by
    refine ⟨ended.1.trans same, fun m data member => ?_⟩
    rw [ended.2] at member
    rcases List.mem_append.mp member with before | last
    · exact unwritten m data before
    · cases List.mem_singleton.mp last
  exact (read.and (Recorder.readBlock_log n r)).mono (fun _ _ => kept) fun _ _ => kept

theorem OnlyLooks.traceless {β : Type} {look : InodeId → Filing β} (looks : OnlyLooks look)
    (home : Sector) (file : SparseFile) : Traceless look home file := by
  obtain ⟨unwritten, given⟩ : Unwritten file (watched look home file).disk ∧
      ∀ ledger, (watched look home file).allocator = some ledger →
        ∃ count, ledgered fullMap count = .ok ledger :=
    inspect_keeps (readKeeps_unwritten file) looks home ⟨rfl, fun _ _ => List.not_mem_nil⟩
  obtain ⟨found, disk⟩ : (inspect fullMap look home (ImageDisk.ofFile file)).found =
        (watched look home file).found ∧
      (inspect fullMap look home (ImageDisk.ofFile file)).disk =
        (watched look home file).disk.disk :=
    inspect_recorded looks home (⟨.ofFile file, []⟩ : Recorder ImageDisk)
  refine ⟨found, disk.trans unwritten.1, unwritten.2, looks.reads_alone home, ?_⟩
  intro ledger left
  obtain ⟨count, made⟩ := given ledger left
  unfold ledgered at made
  cases mapped : fullMap count with
  | error f =>
    rw [mapped] at made
    cases made
  | ok map =>
    rw [mapped] at made
    cases made
    rfl

/-- Whatever an image has in it, and wherever a file is looked for: the bytes tell whether there is
one, and if so, it can be opened. Reading from it, as `cat` does or from any offset to any other,
writes nothing and calls no allocator, also where it stops at a fault. -/
theorem cat_leaves_no_trace {file : SparseFile} (bounded : file.length < UInt64.size) (n : Nat) :
    Kind.probe n (ImageDisk.ofFile file) =
      .ok (verdict file.bytes n) (ImageDisk.ofFile file) ∧
    (∀ kind, verdict file.bytes n = .ok kind → ∀ capacity, 0 < capacity →
      ∀ (α : Type) [Allocator α] (allocator : α),
        ∃ cache, Cache.new (ImageDisk.ofFile file) capacity = .ok cache ∧ ∃ id g v i,
          Volume.perform ((Registry.openAt n).run {}) ⟨cache, allocator⟩ = .ok (id, g) v ∧
            g.inodes[id]? = some i ∧ i.home = n ∧ i.record.kind = .ok kind) ∧
    cat (.ofFile file) n = ((inspect fullMap slurp n (ImageDisk.ofFile file)).found, file) ∧
    Traceless slurp n file ∧
    ∀ offset count, Traceless (fun id => Registry.read id offset count) n file := by
  have traceless := onlyLooks_slurp.traceless n file
  refine ⟨Kind.probe_ofFile bounded n, ?_, ?_, traceless, ?_⟩
  · intro kind found capacity positive α _ allocator
    exact open_of_verdict bounded found positive allocator
  · rw [cat_eq_inspect, traceless.disk]
    rfl
  · exact fun offset count => (onlyLooks_read offset count).traceless n file

/-- An image that ends in the middle of a sector, with a file whose length is -1. The bytes ahead
have its tag, and the sectors that it points to are not there. -/
theorem cat_leaves_no_trace_negative_length : ∃ file : SparseFile,
    file.length < UInt64.size ∧ file.length % 512 = 96 ∧
      Kind.probe 1 (ImageDisk.ofFile file) = .ok (.ok .file) (ImageDisk.ofFile file) ∧
      Kind.probe 2 (ImageDisk.ofFile file) = .ok (.error (.outside 2)) (ImageDisk.ofFile file) ∧
      (∃ f, (cat (.ofFile file) 1).1 = .error (.fault f)) ∧ (cat (.ofFile file) 1).2 = file ∧
      Traceless slurp 1 file ∧ Traceless (fun id => Registry.read id 100 1000) 1 file := by
  let data : List UInt8 := List.replicate 512 0 ++ List.replicate 4 255 ++
    [0x44, 0x4f, 0x4e, 0x49] ++ List.replicate 600 255
  have length : data.length = 1120 := by decide +kernel
  have bounded : (SparseFile.ofBytes data).length < UInt64.size := by
    rw [SparseFile.length_ofBytes, length]
    decide
  have found : verdict (SparseFile.ofBytes data).bytes 1 = .ok .file := by
    rw [SparseFile.bytes_ofBytes]
    decide +kernel
  have past : verdict (SparseFile.ofBytes data).bytes 2 = .error (.outside 2) := by
    rw [SparseFile.bytes_ofBytes]
    decide +kernel
  have stopped : (match (cat (.ofFile (.ofBytes data)) 1).1 with
      | .error (.fault f) => some f
      | _ => none) = some .capacityOverflow := by
    decide +kernel
  obtain ⟨probed, _, same, traceless, reads⟩ := cat_leaves_no_trace bounded 1
  obtain ⟨probed', _⟩ := cat_leaves_no_trace bounded 2
  refine ⟨_, bounded, by rw [SparseFile.length_ofBytes, length], found ▸ probed, past ▸ probed',
    ?_, congrArg Prod.snd same, traceless, reads 100 1000⟩
  split at stopped
  next f ended => exact ⟨f, ended⟩
  next => cases stopped

end Packer

end InodeVolume
