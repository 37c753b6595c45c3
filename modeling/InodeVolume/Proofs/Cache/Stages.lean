import InodeVolume.Proofs.Cache.FlatArray

/-!
# Runs of a cache, command by command

A stage is a command that has returned, with the cache before and after it. What the command has
brought into the cache and what it has evicted is told by looking at the cache before and after it.
-/

namespace InodeVolume

namespace Cache

variable {δ : Type} {c : Cache δ} {s : Sector}

def sectors (c : Cache δ) : List Sector := c.index.keys

def entryOf? (c : Cache δ) (s : Sector) : Option Entry := (c.slotOf? s).bind c.entryAt

theorem mem_sectors : s ∈ c.sectors ↔ c.contains s = true := Std.TreeMap.mem_keys

theorem slotOf?_of_occupancy (empty : c.occupancy = []) (s : Sector) : c.slotOf? s = none := by
  apply Option.eq_none_iff_forall_ne_some.mpr
  intro slot found
  have member : (s, slot) ∈ c.occupancy := Std.TreeMap.mem_toList_iff_getElem?_eq_some.mpr found
  rw [empty] at member
  cases member

theorem entryOf?_of_new {device : δ} {capacity : Nat} (made : new device capacity = .ok c)
    (s : Sector) : c.entryOf? s = none := by
  rw [new, if_neg (Nat.ne_of_gt (positive_of_new made))] at made
  cases made
  simp [entryOf?, slotOf?]

theorem nodup_sectors (c : Cache δ) : c.sectors.Nodup :=
  Std.TreeMap.distinct_keys.imp fun apart same => apart (Nat.compare_eq_eq.mpr same)

namespace Indexed

variable {e : Entry} {slot : Nat}

theorem entryOf?_eq_some_iff (h : c.Indexed) :
    c.entryOf? s = some e ↔ ∃ slot, c.entryAt slot = some e ∧ e.sector = s := by
  simp only [entryOf?, Option.bind_eq_some_iff]
  constructor
  · rintro ⟨slot, found, used⟩
    obtain ⟨e', used', same⟩ := h.slotOf?_iff.mp found
    cases used.symm.trans used'
    exact ⟨slot, used, same⟩
  · rintro ⟨slot, used, rfl⟩
    exact ⟨slot, h.slotOf?_eq used, used⟩

theorem entryOf?_eq_none_iff (h : c.Indexed) : c.entryOf? s = none ↔ c.slotOf? s = none := by
  rw [← h.cached?_eq_none_iff]
  exact Option.map_eq_none_iff.symm

theorem mem_sectors_iff (h : c.Indexed) : s ∈ c.sectors ↔ ∃ e, c.entryOf? s = some e := by
  rw [← Option.ne_none_iff_exists', Ne, h.entryOf?_eq_none_iff, mem_sectors, contains,
    Std.TreeMap.contains_eq_isSome_getElem?, Option.isSome_iff_ne_none]
  rfl

theorem entryOf?_place (h : c.Indexed) (fits : c.Fits slot e.sector) (s : Sector) :
    (c.place slot e).entryOf? s = if e.sector = s then some e else c.entryOf? s := by
  by_cases own : e.sector = s
  · rw [if_pos own]
    refine (h.place fits).entryOf?_eq_some_iff.mpr ⟨slot, ?_, own⟩
    rw [entryAt_place c fits.inside, if_pos rfl]
  · simp only [entryOf?, slotOf?_place, if_neg own]
    cases found : c.slotOf? s with
    | none => rfl
    | some j =>
      have apart : slot ≠ j := fun same => own (fits.alone (same ▸ found)).symm
      simp [entryAt_place c fits.inside, apart]

end Indexed

end Cache

structure Stage (δ : Type) where
  before : Cache δ
  command : CacheCommand
  after : Cache δ

namespace Stage

variable {δ : Type} {x : Stage δ} {s : Sector}

def evicted (x : Stage δ) : List Sector := x.before.sectors.filter fun s => !x.after.contains s

def loaded (x : Stage δ) : List Sector := x.after.sectors.filter fun s => !x.before.contains s

theorem mem_evicted : s ∈ x.evicted ↔ s ∈ x.before.sectors ∧ s ∉ x.after.sectors := by
  simp [evicted, Cache.mem_sectors]

theorem mem_loaded : s ∈ x.loaded ↔ s ∈ x.after.sectors ∧ s ∉ x.before.sectors := by
  simp [loaded, Cache.mem_sectors]

theorem nodup_evicted (x : Stage δ) : x.evicted.Nodup := x.before.nodup_sectors.filter _

theorem nodup_loaded (x : Stage δ) : x.loaded.Nodup := x.after.nodup_sectors.filter _

variable [Device δ]

/-- Stages that follow each other, from the first cache to the last. -/
inductive Chain : Cache δ → List (Stage δ) → Cache δ → Prop
  | nil (c : Cache δ) : Chain c [] c
  | cons {c c' c'' : Cache δ} {command : CacheCommand} {reply : Option Block}
    {rest : List (Stage δ)} : command.perform c = .ok reply c' → Chain c' rest c'' →
      Chain c (⟨c, command, c'⟩ :: rest) c''

theorem Chain.split {c c'' : Cache δ} {earlier later : List (Stage δ)}
    (h : Chain c (earlier ++ later) c'') : ∃ c', Chain c earlier c' ∧ Chain c' later c'' := by
  induction earlier generalizing c with
  | nil => exact ⟨c, .nil c, h⟩
  | cons x rest ih =>
    cases h with
    | cons done follows =>
      obtain ⟨c', first, second⟩ := ih follows
      exact ⟨c', .cons done first, second⟩

theorem Chain.around {c c' : Cache δ} {earlier later : List (Stage δ)}
    (h : Chain c (earlier ++ x :: later) c') :
    Chain c earlier x.before ∧ Chain x.after later c' := by
  obtain ⟨_, first, second⟩ := h.split
  cases second with
  | cons done follows => exact ⟨first, follows⟩

theorem Chain.performed {c c' : Cache δ} {earlier later : List (Stage δ)}
    (h : Chain c (earlier ++ x :: later) c') :
    ∃ reply, x.command.perform x.before = .ok reply x.after := by
  obtain ⟨_, _, rest⟩ := h.split
  cases rest with
  | cons done _ => exact ⟨_, done⟩

theorem Chain.between {c c' : Cache δ} {y : Stage δ} {earlier inner later : List (Stage δ)}
    (h : Chain c (earlier ++ x :: inner ++ y :: later) c') : Chain x.after inner y.before := by
  rw [List.append_assoc] at h
  exact h.around.2.around.1

/-- A sector that is not cached any more was evicted on the way. -/
theorem Chain.exists_evicted {c c' : Cache δ} {run : List (Stage δ)} (h : Chain c run c')
    (here : s ∈ c.sectors) (gone : s ∉ c'.sectors) : ∃ x ∈ run, s ∈ x.evicted := by
  induction h with
  | nil => exact absurd here gone
  | @cons c middle _ command _ rest _ _ ih =>
    by_cases still : s ∈ middle.sectors
    · obtain ⟨x, member, evicted⟩ := ih still gone
      exact ⟨x, List.mem_cons_of_mem _ member, evicted⟩
    · exact ⟨⟨c, command, middle⟩, List.mem_cons_self, mem_evicted.mpr ⟨here, still⟩⟩

end Stage

namespace CacheCommand

variable {δ : Type} [Device δ]

/-- The stages of commands one after the other, as far as they return. -/
def stages : List CacheCommand → Cache δ → List (Stage δ)
  | [], _ => []
  | command :: rest, c =>
    match command.perform c with
    | .ok _ c' => ⟨c, command, c'⟩ :: stages rest c'
    | .error _ _ => []

theorem chain_stages {commands : List CacheCommand} {c c' : Cache δ}
    (done : performAll commands c = .ok () c') :
    Stage.Chain c (stages commands c) c' ∧ (stages commands c).map Stage.command = commands := by
  induction commands generalizing c with
  | nil =>
    cases done
    exact ⟨.nil _, rfl⟩
  | cons command rest ih =>
    cases first : command.perform c with
    | error f middle =>
      have stopped : performAll (command :: rest) c = .error f middle := by
        change EStateM.bind _ _ c = _
        simp only [EStateM.bind, first]
      rw [stopped] at done
      cases done
    | ok reply middle =>
      rw [performAll, Action.bind_ok first] at done
      obtain ⟨follows, same⟩ := ih done
      simp only [stages, first, List.map_cons, same]
      exact ⟨.cons first follows, trivial⟩

variable [LawfulDevice δ]

theorem exists_chain {device : δ} (healthy : LawfulDevice.Healthy device) {capacity : Nat}
    (positive : 0 < capacity) {commands : List CacheCommand}
    (within : ∀ command ∈ commands, command.Within (Device.blockCount device)) :
    ∃ start final, Cache.new device capacity = .ok start ∧
      performAll commands start = .ok () final ∧
      (stages commands start).map Stage.command = commands ∧
      Stage.Chain start (stages commands start) final ∧
      start.Consistent ∧ start.device = device ∧ start.capacity = capacity := by
  obtain ⟨start, made, consistent, shows, size, rfl⟩ := Cache.new_eq healthy positive
  obtain ⟨final, done, _⟩ :=
    performAll_eq consistent (LawfulDevice.content start.device) [] commands within shows
  obtain ⟨chain, asked⟩ := chain_stages done
  exact ⟨start, final, made, done, asked, chain, consistent, rfl, size⟩

end CacheCommand

end InodeVolume
