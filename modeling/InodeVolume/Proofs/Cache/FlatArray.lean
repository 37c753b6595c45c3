import InodeVolume.Proofs.Cache.Content
import InodeVolume.Volume

/-!
# The cache as a flat array of sectors

After any history of commands, a sector reads as it was last written, or as the
device had it before the first command. `latest` says so from the history alone;
`flat_array` says that every further command answers and leaves behind what
`latest` demands, and that nothing is lost when the cache is given up.
-/

namespace InodeVolume

inductive CacheCommand where
  | read (s : Sector)
  | write (s : Sector) (data : Block)
  | flush (s : Sector)
  | drain
  | prefetch (s : Sector)

namespace CacheCommand

def Within (limit : Nat) : CacheCommand → Prop
  | read s | write s _ => s < limit
  | flush _ | drain | prefetch _ => True

def dataFor? (s : Sector) : CacheCommand → Option Block
  | write t data => if t = s then some data else none
  | _ => none

/-- The data most recently written to a sector, or else its first content. -/
def latest (initial : Sector → Block) (history : List CacheCommand) (s : Sector) : Block :=
  (history.reverse.findSome? (dataFor? s)).getD (initial s)

@[simp] theorem latest_nil (initial : Sector → Block) : latest initial [] = initial := rfl

theorem latest_append (initial : Sector → Block) (history : List CacheCommand)
    (command : CacheCommand) (s : Sector) :
    latest initial (history ++ [command]) s =
      (command.dataFor? s).getD (latest initial history s) := by
  simp only [latest, List.reverse_append, List.reverse_singleton, List.singleton_append,
    List.findSome?_cons]
  cases command.dataFor? s <;> rfl

variable {δ : Type}

theorem contains_of_missing {c : Cache δ} {s : Sector} (missing : c.slotOf? s = none) :
    c.contains s = false := by
  rw [Cache.contains, Std.TreeMap.contains_eq_isSome_getElem?]
  exact Option.isSome_eq_false_iff.mpr (Option.isNone_iff_eq_none.mpr missing)

theorem occupancy_of_missing {c : Cache δ} (missing : ∀ s, c.slotOf? s = none) :
    c.occupancy = [] := by
  rw [Cache.occupancy, List.eq_nil_iff_forall_not_mem]
  rintro ⟨s, slot⟩ member
  have found : c.slotOf? s = some slot := Std.TreeMap.mem_toList_iff_getElem?_eq_some.mp member
  simp [missing] at found

variable [Device δ]

def perform : CacheCommand → Action (Cache δ) (Option Block)
  | read s => do return some (← Cache.read s)
  | write s data => do Cache.write s data; return none
  | flush s => do Cache.flush s; return none
  | drain => do Cache.drain; return none
  | prefetch s => do Cache.prefetch s; return none

def performAll : List CacheCommand → Action (Cache δ) Unit
  | [] => return ()
  | command :: rest => do
    let _ ← command.perform
    performAll rest

variable [LawfulDevice δ]

structure Outcome (c c' : Cache δ) (command : CacheCommand) (reply : Option Block) : Prop where
  consistent : c'.Consistent
  blockCount : Device.blockCount c'.device = Device.blockCount c.device
  content (s : Sector) : c'.content s = (command.dataFor? s).getD (c.content s)
  read {s : Sector} : command = .read s → reply = some (c.content s)
  flush {s : Sector} : command = .flush s →
    c'.contains s = false ∧ LawfulDevice.content c'.device s = c.content s
  drain : command = .drain → c'.occupancy = [] ∧ LawfulDevice.content c'.device = c.content

theorem outcome_of_kept {c c' : Cache δ} {command : CacheCommand} (kept : Cache.Kept c c')
    (silent : ∀ s, command.dataFor? s = none) (reply : Option Block)
    (read : ∀ {s}, command = .read s → reply = some (c.content s))
    (flush : ∀ {s}, command = .flush s →
      c'.contains s = false ∧ LawfulDevice.content c'.device s = c.content s)
    (drain : command = .drain →
      c'.occupancy = [] ∧ LawfulDevice.content c'.device = c.content) :
    Outcome c c' command reply where
  consistent := kept.consistent
  blockCount := kept.blockCount
  content s := by rw [silent, kept.content]; rfl
  read := read
  flush := flush
  drain := drain

theorem perform_eq {c : Cache δ} (h : c.Consistent) {command : CacheCommand}
    (within : command.Within (Device.blockCount c.device)) :
    ∃ reply c', command.perform c = .ok reply c' ∧ Outcome c c' command reply := by
  cases command with
  | read s =>
    obtain ⟨c', done, kept⟩ := Cache.read_eq h within
    refine ⟨some (c.content s), c', ?_,
      outcome_of_kept kept (fun _ => rfl) _ ?_ nofun nofun⟩
    · rw [perform, Action.bind_ok done]
      rfl
    · rintro t ⟨⟩
      rfl
  | write s data =>
    obtain ⟨c', done, written⟩ := Cache.write_eq h within data
    refine ⟨none, c', ?_, written.consistent, written.blockCount, ?_, nofun, nofun, nofun⟩
    · rw [perform, Action.bind_ok done]
      rfl
    · intro t
      rw [written.content]
      by_cases same : s = t
      · simp [dataFor?, same]
      · simp [dataFor?, same, Function.update_of_ne (Ne.symm same)]
  | flush s =>
    obtain ⟨c', done, kept, missing, saved⟩ := Cache.flush_eq h s
    refine ⟨none, c', ?_, outcome_of_kept kept (fun _ => rfl) _ nofun ?_ nofun⟩
    · rw [perform, Action.bind_ok done]
      rfl
    · rintro t ⟨⟩
      exact ⟨contains_of_missing missing, saved⟩
  | drain =>
    obtain ⟨c', done, kept, missing, saved⟩ := Cache.drain_eq h
    refine ⟨none, c', ?_, outcome_of_kept kept (fun _ => rfl) _ nofun nofun ?_⟩
    · rw [perform, Action.bind_ok done]
      rfl
    · exact fun _ => ⟨occupancy_of_missing missing, saved⟩
  | prefetch s =>
    obtain ⟨c', done, kept⟩ := Cache.prefetch_eq h s
    refine ⟨none, c', ?_, outcome_of_kept kept (fun _ => rfl) _ nofun nofun nofun⟩
    rw [perform, Action.bind_ok done]
    rfl

/-- A history leaves every sector with the content that was written last. -/
theorem performAll_eq {c : Cache δ} (h : c.Consistent) (initial : Sector → Block)
    (earlier history : List CacheCommand)
    (within : ∀ command ∈ history, command.Within (Device.blockCount c.device))
    (shows : c.content = latest initial earlier) :
    ∃ c', performAll history c = .ok () c' ∧ c'.Consistent ∧
      Device.blockCount c'.device = Device.blockCount c.device ∧
      c'.content = latest initial (earlier ++ history) := by
  induction history generalizing c earlier with
  | nil => exact ⟨c, rfl, h, rfl, by simpa using shows⟩
  | cons command rest ih =>
    obtain ⟨reply, middle, done, outcome⟩ := perform_eq h (within command (by simp))
    have shows_middle : middle.content = latest initial (earlier ++ [command]) := by
      funext s
      rw [outcome.content, latest_append, shows]
    obtain ⟨c', rest_done, consistent, count, rest_shows⟩ :=
      ih outcome.consistent (earlier ++ [command])
        (fun next member => outcome.blockCount ▸ within next (by simp [member])) shows_middle
    refine ⟨c', ?_, consistent, count.trans outcome.blockCount, by simpa using rest_shows⟩
    rw [performAll, Action.bind_ok done]
    exact rest_done

theorem unmount_eq {α : Type} {v : Volume δ α} (h : v.cache.Consistent) :
    ∃ c, Cache.Kept v.cache c ∧ v.unmount = c.device ∧
      LawfulDevice.content c.device = v.cache.content := by
  obtain ⟨c, done, kept, _, saved⟩ := Cache.drain_eq h
  have drained : Volume.onCache Cache.drain v = .ok () { v with cache := c } := by
    simp only [Volume.onCache, Action.onPart, done]
  exact ⟨c, kept, by rw [Volume.unmount, drained], saved⟩

/-- It leaves its content there. -/
theorem content_unmount {α : Type} {v : Volume δ α} (h : v.cache.Consistent) :
    LawfulDevice.content v.unmount = v.cache.content := by
  obtain ⟨c, _, same, saved⟩ := unmount_eq h
  rw [same, saved]

/-- From a new cache over a healthy device, any history of commands and one more:
all of them return, and the last one shows each sector as the history left it. -/
theorem flat_array {device : δ} (healthy : LawfulDevice.Healthy device) {capacity : Nat}
    (positive : 0 < capacity) (history : List CacheCommand) (command : CacheCommand)
    (within : ∀ c ∈ history ++ [command], c.Within (Device.blockCount device)) :
    ∃ start before after reply,
      Cache.new device capacity = .ok start ∧
      performAll history start = .ok () before ∧
      command.perform before = .ok reply after ∧
      before.content = latest (LawfulDevice.content device) history ∧
      after.content = latest (LawfulDevice.content device) (history ++ [command]) ∧
      (∀ s, command = .read s →
        reply = some (latest (LawfulDevice.content device) history s)) ∧
      (∀ s, command = .flush s → after.contains s = false ∧
        LawfulDevice.content after.device s = latest (LawfulDevice.content device) history s) ∧
      (command = .drain → after.occupancy = [] ∧
        LawfulDevice.content after.device = latest (LawfulDevice.content device) history) ∧
      (∀ s, command.dataFor? s = none → after.content s = before.content s) ∧
      ∀ {α : Type} (allocator : α), LawfulDevice.content (Volume.unmount ⟨after, allocator⟩) =
        latest (LawfulDevice.content device) (history ++ [command]) := by
  obtain ⟨start, made, consistent, shows, _, rfl⟩ := Cache.new_eq healthy positive
  obtain ⟨before, done, sound, count, history_shows⟩ :=
    performAll_eq consistent (LawfulDevice.content start.device) [] history
      (fun c member => within c (by simp [member])) shows
  obtain ⟨reply, after, answered, outcome⟩ :=
    perform_eq sound (count ▸ within command (by simp))
  simp only [List.nil_append] at history_shows
  have shows_after : after.content =
      latest (LawfulDevice.content start.device) (history ++ [command]) := by
    funext s
    rw [outcome.content, latest_append, history_shows]
  refine ⟨start, before, after, reply, made, done, answered, history_shows, shows_after, ?_, ?_, ?_,
    ?_, ?_⟩
  · intro s asked
    rw [outcome.read asked, history_shows]
  · intro s asked
    exact history_shows ▸ outcome.flush asked
  · intro asked
    exact history_shows ▸ outcome.drain asked
  · intro s silent
    rw [outcome.content, silent]
    rfl
  · intro α allocator
    exact (content_unmount outcome.consistent).trans shows_after

/-- One slot: reading sector 2 evicts what was written to sector 1, which still reads back. -/
theorem flat_array_evicted :
    LawfulDevice.Healthy (MemoryDisk.zeroed 3) ∧
      ∃ (start before after : Cache MemoryDisk) (reply : Option Block),
        Cache.new (MemoryDisk.zeroed 3) 1 = .ok start ∧
        performAll [.write 1 (Vector.replicate 512 7), .read 2, .prefetch 0] start =
          .ok () before ∧
        (read 1).perform before = .ok reply after ∧
        reply = some (Vector.replicate 512 7) := by
  have healthy : LawfulDevice.Healthy (MemoryDisk.zeroed 3) :=
    MemoryDisk.healthy_zeroed (by decide)
  obtain ⟨start, before, after, reply, made, done, answered, _, _, reads, _⟩ :=
    flat_array healthy Nat.one_pos
      [.write 1 (Vector.replicate 512 7), .read 2, .prefetch 0] (.read 1)
      (by simp [Within])
  refine ⟨healthy, start, before, after, reply, made, done, answered, ?_⟩
  exact reads 1 rfl

end CacheCommand

end InodeVolume
