import InodeVolume.Proofs.Cache.Fates

/-!
# Device traffic of a cache

Which transfers a run of commands asks of the device, sector by sector. A sector is read again only
after it was evicted. It is written when it is evicted with data that was stored in it since it came
into the cache, and at no other time; what is written is the data that was stored last.
-/

namespace InodeVolume

/-- The data of an entry that its block does not have yet. -/
def Entry.unsaved (e : Entry) : Option Block := if e.dirty then some e.data else none

namespace Fate

variable {s : Sector} {command : CacheCommand} {e e' : Option Entry} {made : List Recorded}

theorem length_le (h : Fate s command e made e') : made.length ≤ 1 := by
  cases h with
  | untouched | stored => exact Nat.zero_le 1
  | loaded => exact Nat.le_refl 1
  | evicted silent e own =>
    unfold Entry.writeBack
    cases e.dirty <;> simp

theorem of_read (h : Fate s command e made e') (member : .read s ∈ made) :
    (command = .read s ∨ command = .prefetch s) ∧ e = none ∧ ∃ f, e' = some f := by
  cases h with
  | untouched | stored => cases member
  | loaded asked data => exact ⟨asked, rfl, _, rfl⟩
  | evicted silent e own =>
    unfold Entry.writeBack at member
    split at member <;> simp at member

/-- What is written is what an entry had that is given up. -/
theorem written_iff (h : Fate s command e made e') {data : Block} :
    .written s data ∈ made ↔ e' = none ∧ ∃ f, e = some f ∧ f.unsaved = some data := by
  cases h with
  | untouched silent e => cases e <;> simp
  | loaded | stored => simp
  | evicted silent e own =>
    subst own
    unfold Entry.writeBack
    cases dirty : e.dirty with
    | false => simp [Entry.unsaved, dirty]
    | true => simpa [Entry.unsaved, dirty] using eq_comm

theorem eq_nil_of_drain (h : Fate s .drain none made e') : made = [] := by
  cases h with
  | untouched => rfl
  | loaded asked => rcases asked with asked | asked <;> cases asked

theorem of_unsaved (h : Fate s command e made e') {f : Entry} {data : Block} (here : e' = some f)
    (unsaved : f.unsaved = some data) : e = some f ∨ command = .write s data := by
  cases h with
  | untouched silent e => exact .inl here
  | evicted => cases here
  | loaded asked loaded =>
    cases here
    cases unsaved
  | stored stored e =>
    cases here
    cases unsaved
    exact .inr rfl

end Fate

namespace Stage

section

variable {δ : Type}

/-- What a stage makes of the data that was last stored in a sector since it came into the cache. -/
def store (s : Sector) (earlier : Option Block) (x : Stage δ) : Option Block :=
  match x.command.dataFor? s with
  | some data => some data
  | none => if s ∈ x.loaded then none else earlier

def lastStored (s : Sector) (run : List (Stage δ)) : Option Block := run.foldl (store s) none

def transfers (x : Stage (Recorder δ)) : List Recorded :=
  x.after.device.log.drop x.before.device.log.length

structure Sound (x : Stage (Recorder δ)) : Prop where
  before : x.before.Indexed
  after : x.after.Indexed
  log : x.after.device.log = x.before.device.log ++ x.transfers
  fate (s : Sector) :
    Fate s x.command (x.before.entryOf? s) (Recorded.about s x.transfers) (x.after.entryOf? s)
  drained : x.command = .drain → ∀ s, x.after.entryOf? s = none

namespace Sound

variable {x : Stage (Recorder δ)} {s : Sector}

theorem mem_about (n : Nat) {entry : Recorded} (own : entry.block = n) :
    entry ∈ Recorded.about n x.transfers ↔ entry ∈ x.transfers := by
  rw [Recorded.mem_about, and_iff_left own]

theorem of_read (h : x.Sound) (member : .read s ∈ x.transfers) :
    (x.command = .read s ∨ x.command = .prefetch s) ∧ s ∉ x.before.sectors ∧
      s ∈ x.after.sectors := by
  obtain ⟨asked, absent, present⟩ := (h.fate s).of_read ((mem_about s rfl).mpr member)
  refine ⟨asked, ?_, h.after.mem_sectors_iff.mpr present⟩
  rw [h.before.mem_sectors_iff, absent]
  rintro ⟨_, ⟨⟩⟩

theorem written_iff (h : x.Sound) {data : Block} : .written s data ∈ x.transfers ↔
    x.after.entryOf? s = none ∧ ∃ f, x.before.entryOf? s = some f ∧ f.unsaved = some data := by
  rw [← (h.fate s).written_iff]
  exact (mem_about s rfl).symm

theorem mem_evicted (h : x.Sound) : s ∈ x.evicted ↔
    x.after.entryOf? s = none ∧ ∃ f, x.before.entryOf? s = some f := by
  rw [Stage.mem_evicted, h.before.mem_sectors_iff, h.after.mem_sectors_iff, and_comm,
    Option.eq_none_iff_forall_ne_some, not_exists]

/-- What is known of the last data stored in a sector goes on to agree with its entry. -/
theorem store_eq (h : x.Sound) {earlier : Option Block}
    (agrees : ∀ f, x.before.entryOf? s = some f → earlier = f.unsaved) {f : Entry}
    (here : x.after.entryOf? s = some f) : store s earlier x = f.unsaved := by
  have loaded : s ∈ x.loaded ↔ x.before.entryOf? s = none := by
    rw [mem_loaded, h.after.mem_sectors_iff, h.before.mem_sectors_iff, here,
      Option.eq_none_iff_forall_ne_some, not_exists]
    exact and_iff_right ⟨f, rfl⟩
  have fate := h.fate s
  unfold store
  rw [here] at fate
  generalize before : x.before.entryOf? s = e at fate
  generalize Recorded.about s x.transfers = made at fate
  generalize x.command = command at fate
  cases fate with
  | untouched silent =>
    have cached : s ∉ x.loaded := by simp [loaded, before]
    simp only [silent, if_neg cached]
    exact agrees f before
  | loaded asked data =>
    have silent : command.dataFor? s = none := by
      rcases asked with rfl | rfl <;> rfl
    simp only [silent, if_pos (loaded.mpr before)]
    rfl
  | stored data =>
    simp [CacheCommand.dataFor?, Entry.unsaved]

end Sound

end

variable {δ : Type} [Device δ] {c c' : Cache (Recorder δ)} {run : List (Stage (Recorder δ))}
  {s : Sector}

theorem Chain.log (h : Chain c run c') (sound : ∀ x ∈ run, x.Sound) :
    c'.device.log = c.device.log ++ run.flatMap transfers := by
  induction h with
  | nil => simp
  | @cons c middle _ command _ rest _ _ ih =>
    obtain ⟨first, later⟩ := List.forall_mem_cons.mp sound
    have logged : middle.device.log = c.device.log ++ _ := first.log
    rw [ih later, logged, List.flatMap_cons, List.append_assoc]

theorem Chain.lastStored_eq (h : Chain c run c') (sound : ∀ x ∈ run, x.Sound)
    {earlier : Option Block} (agrees : ∀ f, c.entryOf? s = some f → earlier = f.unsaved) {f : Entry}
    (here : c'.entryOf? s = some f) : run.foldl (store s) earlier = f.unsaved := by
  induction h generalizing earlier with
  | nil => exact agrees f here
  | cons _ _ ih =>
    obtain ⟨first, later⟩ := List.forall_mem_cons.mp sound
    exact ih later (fun f => first.store_eq agrees) here

theorem Chain.of_unsaved (h : Chain c run c') (sound : ∀ x ∈ run, x.Sound) {f : Entry}
    {data : Block} (here : c'.entryOf? s = some f) (unsaved : f.unsaved = some data) :
    c.entryOf? s = some f ∨ ∃ x ∈ run, x.command = .write s data := by
  induction h with
  | nil => exact .inl here
  | cons _ _ ih =>
    obtain ⟨first, later⟩ := List.forall_mem_cons.mp sound
    rcases ih later here with there | ⟨x, member, stored⟩
    · rcases (first.fate s).of_unsaved there unsaved with before | stored
      · exact .inl before
      · exact .inr ⟨_, List.mem_cons_self, stored⟩
    · exact .inr ⟨x, List.mem_cons_of_mem _ member, stored⟩

/-- The law of the transfers that a run asks of the device. -/
structure Traffic (run : List (Stage (Recorder δ))) : Prop where
  /-- A command transfers a block at most once. -/
  once {x : Stage (Recorder δ)} (s : Sector) : x ∈ run → (Recorded.about s x.transfers).length ≤ 1
  /-- Between two reads of a block its sector is evicted. -/
  reads_apart {earlier inner later : List (Stage (Recorder δ))} {x y : Stage (Recorder δ)}
    {s : Sector} : run = earlier ++ x :: inner ++ y :: later → .read s ∈ x.transfers →
      .read s ∈ y.transfers → ∃ z ∈ inner, s ∈ z.evicted
  /-- A block is written when its sector is evicted, with the data that was last stored in the
  sector since it came into the cache, if there is any. -/
  written_iff {earlier later : List (Stage (Recorder δ))} {x : Stage (Recorder δ)} {s : Sector}
    {data : Block} : run = earlier ++ x :: later →
      (.written s data ∈ x.transfers ↔ s ∈ x.evicted ∧ lastStored s earlier = some data)
  /-- Between two writes of a block data is stored in its sector. -/
  writes_apart {earlier inner later : List (Stage (Recorder δ))} {x y : Stage (Recorder δ)}
    {s : Sector} {data data' : Block} : run = earlier ++ x :: inner ++ y :: later →
      .written s data ∈ x.transfers → .written s data' ∈ y.transfers →
      ∃ z ∈ inner, z.command = .write s data'
  /-- To store data nothing is read. -/
  unread_of_write {x : Stage (Recorder δ)} {s : Sector} {data : Block} : x ∈ run →
    x.command = .write s data → ∀ t, .read t ∉ x.transfers
  /-- Where nothing is stored, nothing is written. -/
  unwritten : (∀ x ∈ run, ∀ s data, x.command ≠ .write s data) →
    ∀ x ∈ run, ∀ s data, .written s data ∉ x.transfers
  /-- To drain the cache again takes no transfer. -/
  drained {earlier later : List (Stage (Recorder δ))} {x y : Stage (Recorder δ)} :
    run = earlier ++ x :: y :: later → x.command = .drain → y.command = .drain → y.transfers = []

theorem Chain.traffic (h : Chain c run c') (sound : ∀ x ∈ run, x.Sound)
    (empty : ∀ s, c.entryOf? s = none) : Traffic run where
  once s member := ((sound _ member).fate s).length_le
  reads_apart {earlier inner later x y s} parts read read' := by
    subst parts
    have first := sound x (by simp)
    have second := sound y (by simp)
    exact h.between.exists_evicted (first.of_read read).2.2 (second.of_read read').2.1
  written_iff {earlier later x s data} parts := by
    subst parts
    have chain := h.around.1
    -- The cache was empty, so what an entry has unsaved was stored in the run.
    have stored {f : Entry} (here : x.before.entryOf? s = some f) :
        lastStored s earlier = f.unsaved :=
      chain.lastStored_eq (fun z member => sound z (by simp [member]))
        (fun f here => by simp [empty] at here) here
    rw [(sound x (by simp)).written_iff, (sound x (by simp)).mem_evicted, and_assoc]
    apply and_congr_right
    intro _
    constructor
    · rintro ⟨f, here, unsaved⟩
      exact ⟨⟨f, here⟩, (stored here).trans unsaved⟩
    · rintro ⟨⟨f, here⟩, last⟩
      exact ⟨f, here, (stored here).symm.trans last⟩
  writes_apart {earlier inner later x y s data data'} parts written written' := by
    subst parts
    obtain ⟨gone, _⟩ := (sound x (by simp)).written_iff.mp written
    obtain ⟨_, f, here, unsaved⟩ := (sound y (by simp)).written_iff.mp written'
    have inside : ∀ z ∈ inner, z.Sound := fun z member => sound z (by simp [member])
    rcases h.between.of_unsaved inside here unsaved with there | found
    · rw [gone] at there
      cases there
    · exact found
  unread_of_write member asked t read := by
    obtain ⟨other, _⟩ := (sound _ member).of_read read
    rw [asked] at other
    rcases other with other | other <;> cases other
  unwritten silent x member s data written := by
    obtain ⟨earlier, later, rfl⟩ := List.append_of_mem member
    obtain ⟨_, f, here, unsaved⟩ := (sound x member).written_iff.mp written
    have before : ∀ z ∈ earlier, z.Sound := fun z inside => sound z (by simp [inside])
    rcases h.around.1.of_unsaved before here unsaved with there | ⟨z, inside, stored⟩
    · rw [empty] at there
      cases there
    · exact silent z (by simp [inside]) s data stored
  drained {earlier later x y} parts drained drained' := by
    subst parts
    have follows : x.after = y.before := by
      cases h.around.2 with
      | cons _ _ => rfl
    have none (s : Sector) : y.before.entryOf? s = none := by
      rw [← follows]
      exact (sound x (by simp)).drained drained s
    apply List.eq_nil_iff_forall_not_mem.mpr
    intro entry member
    have fate := (sound y (by simp)).fate entry.block
    rw [drained', none] at fate
    have silent := fate.eq_nil_of_drain
    rw [← (Sound.mem_about (x := y) entry.block rfl), silent] at member
    cases member

variable [LawfulDevice δ]

theorem sound_of_perform {command : CacheCommand} {reply : Option Block} (h : c.Consistent)
    (within : command.Within (Device.blockCount c.device))
    (done : command.perform c = .ok reply c') :
    Sound ⟨c, command, c'⟩ ∧ c'.Consistent ∧
      Device.blockCount c'.device = Device.blockCount c.device := by
  obtain ⟨_, _, done', outcome⟩ := CacheCommand.perform_eq h within
  cases done.symm.trans done'
  obtain ⟨made, affected⟩ := (CacheCommand.perform_affects h command).ok done
  have transferred : transfers ⟨c, command, c'⟩ = made := by
    rw [transfers, affected.log]
    exact List.drop_left
  refine ⟨⟨h.toIndexed, outcome.consistent.toIndexed, ?_, ?_, ?_⟩, outcome.consistent,
    outcome.blockCount⟩
  · rw [transferred]
    exact affected.log
  · rw [transferred]
    exact affected.fate
  · intro drained s
    apply outcome.consistent.entryOf?_eq_none_iff.mpr
    exact Cache.slotOf?_of_occupancy (outcome.drain drained).1 s

/-- On a healthy device every stage of a run is sound. -/
theorem Chain.sound (h : Chain c run c') (consistent : c.Consistent)
    (within : ∀ x ∈ run, x.command.Within (Device.blockCount c.device)) : ∀ x ∈ run, x.Sound := by
  induction h with
  | nil => nofun
  | cons done _ ih =>
    obtain ⟨first, later⟩ := List.forall_mem_cons.mp within
    obtain ⟨sound, consistent', count⟩ := sound_of_perform consistent first done
    intro x member
    cases member with
    | head => exact sound
    | tail _ member =>
      apply ih consistent' _ x member
      rw [count]
      exact later

end Stage

namespace CacheCommand

variable {δ : Type} [Device δ] [LawfulDevice δ]

/-- Commands on a new cache over a healthy device all return, and the transfers that they ask of the
device are lawful. -/
theorem transfers_lawful {device : δ} (healthy : LawfulDevice.Healthy device) {capacity : Nat}
    (positive : 0 < capacity) (commands : List CacheCommand)
    (within : ∀ command ∈ commands, command.Within (Device.blockCount device)) :
    ∃ start final : Cache (Recorder δ),
      Cache.new ⟨device, []⟩ capacity = .ok start ∧ performAll commands start = .ok () final ∧
      (stages commands start).map Stage.command = commands ∧
      final.device.log = (stages commands start).flatMap Stage.transfers ∧
      Stage.Traffic (stages commands start) := by
  have recorded : LawfulDevice.Healthy (⟨device, []⟩ : Recorder δ) := healthy
  obtain ⟨start, final, made, done, asked, chain, consistent, same, _⟩ :=
    exists_chain recorded positive within
  have within : ∀ x ∈ stages commands start,
      x.command.Within (Device.blockCount start.device) := by
    intro x member
    rw [same]
    apply within
    rw [← asked]
    exact List.mem_map_of_mem member
  have sound := chain.sound consistent within
  refine ⟨start, final, made, done, asked, ?_, chain.traffic sound (Cache.entryOf?_of_new made)⟩
  rw [chain.log sound, same]
  rfl

/-- One slot: the data that was stored in sector 1 is written when the slot is needed for sector 2,
which is given up without a write. -/
theorem transfers_lawful_single :
    LawfulDevice.Healthy (MemoryDisk.zeroed 3) ∧ 0 < 1 ∧
      (∀ command ∈ [prefetch 1, write 1 (Vector.replicate 512 7), read 2, drain, drain],
        command.Within (Device.blockCount (MemoryDisk.zeroed 3))) ∧
      ∃ start final : Cache (Recorder MemoryDisk),
        Cache.new ⟨MemoryDisk.zeroed 3, []⟩ 1 = .ok start ∧
        performAll [prefetch 1, write 1 (Vector.replicate 512 7), read 2, drain, drain] start =
          .ok () final ∧
        Stage.Traffic (stages
          [prefetch 1, write 1 (Vector.replicate 512 7), read 2, drain, drain] start) ∧
        final.device.log.map Recorded.block = [1, 1, 2] ∧
        (final.device.log.filterMap Recorded.data?).map (Block.slice · 0 2) = [[7, 7]] := by
  have healthy : LawfulDevice.Healthy (MemoryDisk.zeroed 3) :=
    MemoryDisk.healthy_zeroed (by decide)
  have within : ∀ command ∈ [prefetch 1, write 1 (Vector.replicate 512 7), read 2, drain, drain],
      command.Within (Device.blockCount (MemoryDisk.zeroed 3)) := by
    simp [Within]
  obtain ⟨start, final, made, done, _, logged, traffic⟩ :=
    transfers_lawful healthy Nat.one_pos _ within
  refine ⟨healthy, Nat.one_pos, within, start, final, made, done, traffic, ?_⟩
  rw [logged]
  clear traffic logged done
  cases made
  decide +kernel

end CacheCommand

end InodeVolume
