import InodeVolume.Proofs.System.Durability
import InodeVolume.Proofs.Volume.Outcomes

/-!
# Creation

Whether a file can be made is a matter of its length and of the number of free sectors. A file
that was made has taken the sectors that it needs and no others, and reads as zeros. Where none
was made nothing has happened, neither to the space map nor to a sector in use.
-/

namespace InodeVolume

section Returns

variable {α : Type} [Allocator α] [MappedAllocator α] {v : Flat α} {g : Registry} {a : Archive}
  {home : Sector}

/-- How the creation of a file ends: with a file in sector `home`, or without a trace. -/
def Flat.Settles (v : Flat α) (home : Sector) (length : Nat) :
    Except CreateError Unit → Flat α → Prop
  | .error _, w => v.Exchanged [] w []
  | .ok (), w => ∃ r, w.Stores home r ∧ r.size = length ∧
    v.Exchanged [home] w (r.owned w.content home)

/-- Where one sector is kept in an exchange, the others that were taken are new. -/
theorem Flat.Exchanged.fresh_of_kept {w : Flat α} {others : List Sector} {s : Sector}
    (h : v.Exchanged [home] w (home :: others)) (member : s ∈ others) :
    v.map.isAllocated s = false := by
  refine (h.fresh (List.mem_cons_of_mem _ member)).resolve_left fun same => ?_
  rw [List.mem_singleton.mp same] at member
  exact (List.nodup_cons.mp h.nodup).1 member

theorem Flat.Exchanged.isAllocated_of_kept {w : Flat α} {others : List Sector}
    (h : v.Exchanged [home] w (home :: others)) (used : v.map.isAllocated home = true)
    (s : Sector) :
    w.map.isAllocated s = true ↔ v.map.isAllocated s = true ∨ s ∈ others := by
  rw [h.isAllocated, List.mem_singleton, List.mem_cons]
  constructor
  · rintro (⟨inUse, _⟩ | rfl | member)
    · exact .inl inUse
    · exact .inl used
    · exact .inr member
  · rintro (inUse | member)
    · rcases eq_or_ne s home with rfl | other
      · exact .inr (.inl rfl)
      · exact .inl ⟨inUse, other⟩
    · exact .inr (.inr member)

theorem Represents.returns_create_settles (h : Represents v g a) (granted : home ∈ a.granted)
    (length : Nat) (kind : Kind) :
    ((liftM (Record.create home length kind) : Filing _).run g).Returns v fun (result, _) w =>
      v.Settles home length result w := by
  have member : home ∈ v.holding a home := Flat.mem_holding_self.mpr (.inr granted)
  rw [Program.returns_lift]
  apply Record.returns_create h.keeps.ready (h.keeps.ne_null member) (h.keeps.used member)
  case large =>
    intro _
    exact .refl h.keeps.ready List.nodup_nil (by simp)
  case stuck =>
    intro w unchanged _ _
    exact unchanged
  case done =>
    intro r w stores exchanged _ _ _ bytes
    have size : r.size = length := by
      have counted := congrArg List.length bytes
      rwa [Record.length_bytes, List.length_replicate] at counted
    exact ⟨r, stores, size, exchanged⟩

end Returns

namespace FileSystem

variable {δ : Type} [Device δ] [LawfulDevice δ] {fs fs' : FileSystem δ SpaceMap} {a : Archive}
  {home : Sector} {length : Nat} {kind : Kind}

/-- The space map is as it was, and every sector in use shows what it did. -/
structure Unchanged (fs fs' : FileSystem δ SpaceMap) : Prop where
  allocator : fs'.volume.allocator = fs.volume.allocator
  content {s : Sector} : fs.volume.allocator.isAllocated s = true →
    fs'.volume.cache.content s = fs.volume.cache.content s

/-- There is a file of `length` zero bytes in sector `home` now, and nothing else is new. -/
structure Founded (fs : FileSystem δ SpaceMap) (home : Sector) (length : Nat) (kind : Kind)
    (fs' : FileSystem δ SpaceMap) : Prop where
  /-- Free sectors were taken, as many as the file needs and no others. -/
  taken : ∃ taken : List Sector, taken.Nodup ∧ taken.length = Layout.footprint length ∧
    (∀ s ∈ taken, fs.volume.allocator.isAllocated s = false) ∧
    ∀ s, fs'.volume.allocator.isAllocated s = true ↔
      fs.volume.allocator.isAllocated s = true ∨ s ∈ taken
  free : fs'.volume.allocator.free + Layout.footprint length = fs.volume.allocator.free
  content {s : Sector} : fs.volume.allocator.isAllocated s = true → s ≠ home →
    fs'.volume.cache.content s = fs.volume.cache.content s
  /-- Whoever opens the file gets its record, and reads zeros. -/
  offered : fs'.Offers home (fs'.recordAt home) ⟨kind, List.replicate length 0⟩
  size : (fs'.recordAt home).size = length
  kind : (fs'.recordAt home).kind = .ok kind

theorem Realizes.unchanged (h : fs.Realizes a)
    (exchanged : fs.volume.flat.Exchanged [] fs'.volume.flat []) : fs.Unchanged fs' where
  allocator := exchanged.map_eq h.represents.keeps.ready
  content used := exchanged.content used List.not_mem_nil

theorem Realizes.founded (h : fs.Realizes a) (granted : home ∈ a.granted)
    (after : fs'.Realizes (a.next (.create home length kind) (.created (.ok ()))))
    (settles : fs.volume.flat.Settles home length (.ok ()) fs'.volume.flat) :
    fs.Founded home length kind fs' := by
  obtain ⟨r, stores, size, exchanged⟩ := settles
  have used : fs.volume.flat.map.isAllocated home = true :=
    h.represents.keeps.used (Flat.mem_holding_self.mpr (.inr granted))
  have live : home ∈ (a.next (.create home length kind) (.created (.ok ()))).live :=
    Finset.mem_insert_self home _
  have file : (a.next (.create home length kind) (.created (.ok ()))).file home =
      ⟨kind, List.replicate length 0⟩ := Function.update_self ..
  have readable := after.serves.readable live
  have counted := stores.sound.length_owned
  have free := exchanged.free
  have content {s : Sector} := exchanged.content (s := s)
  rw [counted, List.length_singleton, size] at free
  rw [Record.owned_eq] at exchanged counted
  rw [List.length_cons, size] at counted
  rw [file] at readable
  refine ⟨⟨_, exchanged.nodup.of_cons, Nat.succ.inj counted, fun s => exchanged.fresh_of_kept,
    exchanged.isAllocated_of_kept used⟩, Nat.succ.inj free, fun inUse other => ?_, ?_, ?_,
    readable.kind⟩
  · exact content inUse (mt List.mem_singleton.mp other)
  · exact file ▸ after.serves.offers live
  · exact readable.size.trans (List.length_replicate ..)

/-- In every run, a file can be made where a sector was handed out for it, exactly if it is not
too large and there is room for it. It takes what it needs and reads as zeros, and where it
cannot be made nothing is changed. -/
theorem create_exact {device : δ} {capacity total reserved : Nat}
    (healthy : LawfulDevice.Healthy device) (enough : total ≤ Device.blockCount device)
    (small : total ≤ UInt32.size) {fs₀ fs : FileSystem δ SpaceMap} {a : Archive}
    (made : new device capacity total reserved = .ok fs₀) (run : Run fs₀ { total, reserved } fs a)
    {home : Sector} (granted : home ∈ a.granted) (length : Nat) (kind : Kind) :
    ∃ result fs', perform (.create home length kind) fs = .ok (.created result) fs' ∧
      (result = .error .tooLarge ↔ Layout.maxLength < length) ∧
      (result = .error .noSpace ↔
        length ≤ Layout.maxLength ∧ fs.volume.allocator.free < Layout.footprint length) ∧
      (result = .ok () → fs.Founded home length kind fs') ∧
      ∀ e, result = .error e → fs.Unchanged fs' := by
  have realizes := run.realizes (realizes_new healthy enough small made)
  obtain ⟨⟨result, g⟩, w, done, answered, settles⟩ :=
    (realizes.represents.returns_create granted length kind).and
      (realizes.represents.returns_create_settles granted length kind)
  obtain ⟨fs', ran, simulates⟩ := onFiles_flat realizes.consistent done
  have after := simulates.realizes answered.represents
  rw [← simulates.flat] at settles
  have verdict : result = if Layout.maxLength < length then .error .tooLarge
      else if fs.volume.allocator.free < Layout.footprint length then .error .noSpace
      else .ok () := by
    have free : fs.volume.allocator.free = a.free := realizes.represents.keeps.free
    rw [free]
    exact answered.admitted
  refine ⟨result, fs', by rw [perform, Action.bind_ok ran]; rfl, ?_, ?_, ?_, ?_⟩
  · rw [verdict]
    by_cases large : Layout.maxLength < length
    · simp only [large, if_true]
    · rw [if_neg large]
      split <;> simp [large]
  · rw [verdict]
    by_cases large : Layout.maxLength < length
    · simp [large, Nat.not_le.mpr large]
    · rw [if_neg large, ← Nat.not_lt, and_iff_right large]
      split <;> simp [*]
  · rintro rfl
    exact realizes.founded granted after settles
  · rintro e rfl
    exact realizes.unchanged settles

/-- Where two sectors are left there is room for the data of both, and not for a byte more. -/
theorem create_exact_full :
    LawfulDevice.Healthy (MemoryDisk.zeroed 4) ∧ 4 ≤ Device.blockCount (MemoryDisk.zeroed 4) ∧
      4 ≤ UInt32.size ∧ ∃ (fs₀ fs : FileSystem MemoryDisk SpaceMap) (a : Archive) (home : Sector),
        new (MemoryDisk.zeroed 4) 1 4 1 = .ok fs₀ ∧ Run fs₀ { total := 4, reserved := 1 } fs a ∧
        home ∈ a.granted ∧
        (∃ fs', perform (.create home 1025 .file) fs = .ok (.created (.error .noSpace)) fs' ∧
          fs.Unchanged fs') ∧
        ∃ fs', perform (.create home 1024 .file) fs = .ok (.created (.ok ())) fs' ∧
          fs.Founded home 1024 .file fs' := by
  have healthy : LawfulDevice.Healthy (MemoryDisk.zeroed 4) := MemoryDisk.healthy_zeroed (by decide)
  have enough := (MemoryDisk.blockCount_zeroed 4).ge
  have small : 4 ≤ UInt32.size := by decide
  obtain ⟨fs₀, made⟩ : ∃ fs₀, new (MemoryDisk.zeroed 4) 1 4 1 = .ok fs₀ := ⟨_, rfl⟩
  obtain ⟨_, fs, admitted, realizes, run⟩ :=
    (realizes_new healthy enough small made).exists_step .start .allocate trivial
  obtain ⟨home, rfl⟩ := admitted.allocate (by decide)
  have granted := Finset.mem_insert_self home ∅
  have two : fs.volume.allocator.free = 2 := realizes.represents.keeps.free
  have law := create_exact healthy enough small made run granted
  refine ⟨healthy, enough, small, fs₀, fs, _, home, made, run, granted, ?_, ?_⟩
  · obtain ⟨result, fs', done, _, short, _, unchanged⟩ := law 1025 .file
    obtain rfl := short.mpr ⟨by decide, by rw [two]; decide⟩
    exact ⟨fs', done, unchanged _ rfl⟩
  · obtain ⟨result, fs', done, large, short, founded, _⟩ := law 1024 .file
    rcases result with (_ | _) | _
    · exact absurd (short.mp rfl).2 (by rw [two]; decide)
    · exact absurd (large.mp rfl) (by decide)
    · exact ⟨fs', done, founded rfl⟩

end FileSystem

end InodeVolume
