import InodeVolume.Proofs.Disk.Atomic

/-!
# Recorders

A recorder takes down every transfer that is asked of its disk, with the data that is to be written,
whether the disk makes the transfer or refuses it. In all else it is the disk.
-/

namespace InodeVolume

inductive Recorded where
  | read (block : Nat)
  | written (block : Nat) (data : Block)
deriving DecidableEq

namespace Recorded

def block : Recorded → Nat
  | read n | written n _ => n

def data? : Recorded → Option Block
  | read _ => none
  | written _ data => some data

def about (n : Nat) (log : List Recorded) : List Recorded := log.filter (·.block = n)

@[simp] theorem about_nil (n : Nat) : about n [] = [] := rfl

@[simp] theorem about_append (n : Nat) (log log' : List Recorded) :
    about n (log ++ log') = about n log ++ about n log' := List.filter_append log log'

theorem mem_about {n : Nat} {log : List Recorded} {entry : Recorded} :
    entry ∈ about n log ↔ entry ∈ log ∧ entry.block = n := by
  simp [about, List.mem_filter]

@[simp] theorem about_read (n s : Nat) :
    about n [.read s] = if s = n then [.read s] else [] := by
  by_cases own : s = n <;> simp [about, block, own]

@[simp] theorem about_written (n s : Nat) (data : Block) :
    about n [.written s data] = if s = n then [.written s data] else [] := by
  by_cases own : s = n <;> simp [about, block, own]

end Recorded

structure Recorder (δ : Type) where
  disk : δ
  /-- Oldest first. -/
  log : List Recorded := []

namespace Recorder

variable {δ β : Type}

def onDisk (act : Action δ β) : Action (Recorder δ) β :=
  .onPart Recorder.disk (fun disk r => { r with disk }) act

def transfer (entry : Recorded) (act : Action δ β) : Action (Recorder δ) β := do
  modify fun r => { r with log := r.log ++ [entry] }
  onDisk act

instance [Device δ] : Device (Recorder δ) where
  blockCount r := Device.blockCount r.disk
  readBlock n := transfer (.read n) (Device.readBlock n)
  writeBlock n b := transfer (.written n b) (Device.writeBlock n b)

/-- A transfer ends as it does on the disk, and is in the log in either case. -/
theorem transfer_ends {entry : Recorded} {act : Action δ β} {r : Recorder δ}
    {post : β → Recorder δ → Prop} {stop : Fault → Recorder δ → Prop} :
    (transfer entry act).Ends r post stop ↔
      act.Ends r.disk (fun b disk => post b ⟨disk, r.log ++ [entry]⟩)
        fun f disk => stop f ⟨disk, r.log ++ [entry]⟩ := by
  unfold transfer
  rw [Action.ends_bind, Action.ends_modify]
  exact Action.ends_onPart

theorem transfer_eq {entry : Recorded} {act : Action δ β} {r : Recorder δ} {b : β} {disk : δ}
    (done : act r.disk = .ok b disk) : transfer entry act r = .ok b ⟨disk, r.log ++ [entry]⟩ := by
  change onDisk act { r with log := r.log ++ [entry] } = _
  simp only [onDisk, Action.onPart, done]

instance [Device δ] [LawfulDevice δ] : LawfulDevice (Recorder δ) where
  Healthy r := LawfulDevice.Healthy r.disk
  content r := LawfulDevice.content r.disk
  blockCount_lt {r} h := LawfulDevice.blockCount_lt (d := r.disk) h
  readBlock_eq healthy inside := by
    obtain ⟨disk, done, kept⟩ := LawfulDevice.readBlock_eq healthy inside
    exact ⟨_, transfer_eq done, kept⟩
  writeBlock_eq b healthy inside := by
    obtain ⟨disk, done, kept⟩ := LawfulDevice.writeBlock_eq b healthy inside
    exact ⟨_, transfer_eq done, kept⟩

variable [Device δ]

theorem readBlock_log (n : Nat) (r : Recorder δ) :
    (Device.readBlock n).Ends r (fun _ r' => r'.log = r.log ++ [.read n])
      fun _ r' => r'.log = r.log ++ [.read n] :=
  transfer_ends.mpr (Action.ends_iff.mpr ⟨fun _ _ _ => rfl, fun _ _ _ => rfl⟩)

theorem writeBlock_log (n : Nat) (b : Block) (r : Recorder δ) :
    (Device.writeBlock n b).Ends r (fun _ r' => r'.log = r.log ++ [.written n b])
      fun _ r' => r'.log = r.log ++ [.written n b] :=
  transfer_ends.mpr (Action.ends_iff.mpr ⟨fun _ _ _ => rfl, fun _ _ _ => rfl⟩)

end Recorder

end InodeVolume
