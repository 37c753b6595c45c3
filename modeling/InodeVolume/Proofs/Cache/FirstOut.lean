import InodeVolume.Proofs.Cache.Rotation

/-!
# First in, first out

While nothing is flushed, sectors are evicted in the order in which they were loaded, whatever was
used in between, and not before there is a sector in each slot. A sector stays for as many further
loads as there are other slots.
-/

namespace InodeVolume

/-- What asking for a sector does to a queue: which sectors are loaded, and which evicted. -/
inductive Turnover (capacity : Nat) (s : Sector) :
    List Sector → List Sector → List Sector → List Sector → Prop
  | hit {queue : List Sector} (member : s ∈ queue) : Turnover capacity s queue [] [] queue
  | room {queue : List Sector} (missing : s ∉ queue) (room : queue.length < capacity) :
    Turnover capacity s queue [s] [] (queue ++ [s])
  | full {first : Sector} {rest : List Sector} (missing : s ∉ first :: rest)
    (full : (first :: rest).length = capacity) :
    Turnover capacity s (first :: rest) [s] [first] (rest ++ [s])

namespace Turnover

variable {capacity : Nat} {s : Sector} {queue queue' loaded evicted : List Sector}

/-- What comes in at the back goes out at the front. -/
theorem conserved (h : Turnover capacity s queue loaded evicted queue') :
    queue ++ loaded = evicted ++ queue' := by
  cases h with
  | hit => exact List.append_nil _
  | room => rfl
  | full => rfl

theorem evicted_of_room (h : Turnover capacity s queue loaded evicted queue')
    (room : queue'.length < capacity) : evicted = [] := by
  cases h with
  | hit | room => rfl
  | full missing full =>
    rw [List.length_append] at room
    exact absurd full (Nat.ne_of_lt room)

theorem length_le (h : Turnover capacity s queue loaded evicted queue') :
    queue.length ≤ queue'.length := by
  cases h with
  | hit => exact Nat.le_refl _
  | room | full => simp

theorem loaded_eq (h : Turnover capacity s queue loaded evicted queue') :
    loaded = if s ∈ queue then [] else [s] := by
  cases h with
  | hit member => rw [if_pos member]
  | room missing | full missing => rw [if_neg missing]

theorem evicted_of_hit (h : Turnover capacity s queue [] evicted queue') : evicted = [] := by
  cases h with
  | hit => rfl

theorem full_of_evicted (h : Turnover capacity s queue loaded evicted queue')
    (some : evicted ≠ []) : queue.length = capacity := by
  cases h with
  | hit | room => exact absurd rfl some
  | full _ full => exact full

theorem oldest (h : Turnover capacity s queue loaded evicted queue') (miss : loaded ≠ [])
    (full : queue.length = capacity) : ∃ first rest, queue = first :: rest ∧ evicted = [first] := by
  cases h with
  | hit => exact absurd rfl miss
  | room _ room => exact absurd full (Nat.ne_of_lt room)
  | full => exact ⟨_, _, rfl, rfl⟩

theorem last (h : Turnover capacity s queue loaded evicted queue') {t : Sector}
    (member : t ∈ loaded) : ∃ rest, queue' = rest ++ [t] := by
  cases h with
  | hit => cases member
  | room | full =>
    cases List.mem_singleton.mp member
    exact ⟨_, rfl⟩

end Turnover

namespace Stage

variable {δ : Type} {x : Stage δ} {queue : List Sector} {s : Sector} {capacity : Nat}

theorem eq_singleton {l : List Sector} (nodup : l.Nodup) (only : ∀ t, t ∈ l ↔ t = s) : l = [s] := by
  apply List.perm_singleton.mp
  apply (List.perm_ext_iff_of_nodup nodup (List.nodup_singleton s)).mpr
  intro t
  rw [only, List.mem_singleton]

section

variable {queue' : List Sector} (indexed : x.before.Indexed) (indexed' : x.after.Indexed)
  (before : x.before.Queued queue) (after : x.after.Queued queue')

include indexed indexed' before after

theorem mem_loaded_queued {t : Sector} : t ∈ x.loaded ↔ t ∈ queue' ∧ t ∉ queue := by
  rw [mem_loaded, before.mem_iff indexed, after.mem_iff indexed']

theorem mem_evicted_queued {t : Sector} : t ∈ x.evicted ↔ t ∈ queue ∧ t ∉ queue' := by
  rw [mem_evicted, before.mem_iff indexed, after.mem_iff indexed']

theorem loaded_of_subset (sub : queue' ⊆ queue) : x.loaded = [] := by
  apply List.eq_nil_iff_forall_not_mem.mpr
  intro t came
  obtain ⟨here, missing⟩ := (mem_loaded_queued indexed indexed' before after).mp came
  exact missing (sub here)

theorem evicted_of_subset (sub : queue ⊆ queue') : x.evicted = [] := by
  apply List.eq_nil_iff_forall_not_mem.mpr
  intro t gone
  obtain ⟨here, missing⟩ := (mem_evicted_queued indexed indexed' before after).mp gone
  exact missing (sub here)

theorem loaded_of_joined {rest : List Sector} (missing : s ∉ queue) (sub : rest ⊆ queue)
    (joined : queue' = rest ++ [s]) : x.loaded = [s] := by
  apply eq_singleton x.nodup_loaded
  intro t
  rw [mem_loaded_queued indexed indexed' before after, joined, List.mem_append,
    List.mem_singleton]
  constructor
  · rintro ⟨old | new, unknown⟩
    · exact absurd (sub old) unknown
    · exact new
  · rintro rfl
    exact ⟨.inr rfl, missing⟩

end

theorem evicted_of_followed {first : Sector} {rest : List Sector} (indexed : x.before.Indexed)
    (indexed' : x.after.Indexed) (before : x.before.Queued (first :: rest))
    (after : x.after.Queued (rest ++ [s])) (missing : s ∉ first :: rest) : x.evicted = [first] := by
  apply eq_singleton x.nodup_evicted
  intro t
  rw [mem_evicted_queued indexed indexed' before after, List.mem_append, List.mem_cons,
    List.mem_singleton]
  constructor
  · rintro ⟨rfl | later, gone⟩
    · rfl
    · exact absurd (.inl later) gone
  · rintro rfl
    refine ⟨.inl rfl, ?_⟩
    rintro (later | rfl)
    · exact (List.nodup_cons.mp (before.nodup indexed)).1 later
    · exact missing List.mem_cons_self

/-- The sectors that have come and gone are those by which the queue has changed. -/
theorem turnover (indexed : x.before.Indexed) (indexed' : x.after.Indexed)
    (before : x.before.Queued queue) (after : x.after.Queued (enqueue capacity queue s))
    (fits : queue.length ≤ capacity) (positive : 0 < capacity) :
    Turnover capacity s queue x.loaded x.evicted (enqueue capacity queue s) := by
  by_cases member : s ∈ queue
  · rw [enqueue, if_pos member] at after ⊢
    rw [loaded_of_subset indexed indexed' before after (List.Subset.refl _),
      evicted_of_subset indexed indexed' before after (List.Subset.refl _)]
    exact .hit member
  · rw [enqueue, if_neg member] at after ⊢
    rcases Nat.lt_or_eq_of_le fits with room | full
    · rw [if_pos room] at after ⊢
      rw [loaded_of_joined indexed indexed' before after member (List.Subset.refl _) rfl,
        evicted_of_subset indexed indexed' before after (List.subset_append_left _ _)]
      exact .room member room
    · rw [if_neg (Nat.not_lt.mpr (Nat.le_of_eq full.symm))] at after ⊢
      rw [loaded_of_joined indexed indexed' before after member (List.tail_subset _) rfl]
      cases queue with
      | nil =>
        rw [← full] at positive
        cases positive
      | cons first rest =>
        rw [evicted_of_followed indexed indexed' before after member]
        exact .full member full

variable [Device δ] [LawfulDevice δ] {c c' : Cache δ} {run earlier later : List (Stage δ)}
  {queue' : List Sector}

structure Passed (c : Cache δ) (queue : List Sector) (run : List (Stage δ)) (c' : Cache δ)
    (queue' : List Sector) : Prop where
  consistent : c'.Consistent
  blockCount : Device.blockCount c'.device = Device.blockCount c.device
  capacity : c'.capacity = c.capacity
  queued : c'.Queued queue'
  length_le : queue.length ≤ queue'.length
  conserved : queue ++ run.flatMap loaded = run.flatMap evicted ++ queue'
  evicted_of_room : queue'.length < c'.capacity → run.flatMap evicted = []

theorem Passed.cons {c₁ : Cache δ} {middle : List Sector} (first : Passed c queue [x] c₁ middle)
    (rest : Passed c₁ middle run c' queue') : Passed c queue (x :: run) c' queue' where
  consistent := rest.consistent
  blockCount := rest.blockCount.trans first.blockCount
  capacity := rest.capacity.trans first.capacity
  queued := rest.queued
  length_le := Nat.le_trans first.length_le rest.length_le
  conserved := by
    have one := first.conserved
    simp only [List.flatMap_cons, List.flatMap_nil, List.append_nil] at one ⊢
    rw [← List.append_assoc, one, List.append_assoc, rest.conserved, List.append_assoc]
  evicted_of_room room := by
    have one := first.evicted_of_room
      (rest.capacity ▸ Nat.lt_of_le_of_lt rest.length_le room)
    have others := rest.evicted_of_room room
    simp only [List.flatMap_cons, List.flatMap_nil, List.append_nil] at one ⊢
    rw [one, others, List.append_nil]

theorem passed_of_perform {command : CacheCommand} {reply : Option Block} (h : c.Consistent)
    (queued : c.Queued queue) (asked : command.access? = some s)
    (inside : s < Device.blockCount c.device) (done : command.perform c = .ok reply c') :
    ∃ queue', Passed c queue [⟨c, command, c'⟩] c' queue' ∧
      Turnover c.capacity s queue (loaded ⟨c, command, c'⟩) (evicted ⟨c, command, c'⟩) queue' := by
  obtain ⟨_, _, done', outcome⟩ := CacheCommand.perform_eq h (command.within_of_access asked inside)
  cases done.symm.trans done'
  obtain ⟨capacity, queued'⟩ := (CacheCommand.perform_enqueues queued h asked inside).ok done
  have turned := turnover (x := ⟨c, command, c'⟩) h.toIndexed outcome.consistent.toIndexed queued
    queued' queued.length_le h.capacity_pos
  refine ⟨_, ⟨outcome.consistent, outcome.blockCount, capacity, queued', turned.length_le, ?_, ?_⟩,
    turned⟩
  · simpa using turned.conserved
  · rw [capacity]
    simpa using turned.evicted_of_room

theorem Chain.passed (h : Chain c run c') (consistent : c.Consistent) (queued : c.Queued queue)
    (accesses : ∀ x ∈ run, ∃ s < Device.blockCount c.device, x.command.access? = some s) :
    ∃ queue', Passed c queue run c' queue' := by
  induction h generalizing queue with
  | nil =>
    exact ⟨queue, consistent, rfl, rfl, queued, Nat.le_refl _, List.append_nil _, fun _ => rfl⟩
  | cons done _ ih =>
    obtain ⟨⟨s, inside, asked⟩, later⟩ := List.forall_mem_cons.mp accesses
    obtain ⟨middle, first, _⟩ := passed_of_perform consistent queued asked inside done
    rw [← first.blockCount] at later
    obtain ⟨queue', rest⟩ := ih first.consistent first.queued later
    exact ⟨queue', first.cons rest⟩

theorem Chain.passed_around (h : Chain c (earlier ++ x :: later) c') (consistent : c.Consistent)
    (queued : c.Queued queue) (accesses : ∀ y ∈ earlier ++ x :: later,
      ∃ s < Device.blockCount c.device, y.command.access? = some s) :
    ∃ s before after queue', x.command.access? = some s ∧ Passed c queue earlier x.before before ∧
      Turnover c.capacity s before x.loaded x.evicted after ∧
      Passed x.after after later c' queue' := by
  obtain ⟨first, rest⟩ := List.forall_mem_append.mp accesses
  obtain ⟨⟨s, inside, asked⟩, last⟩ := List.forall_mem_cons.mp rest
  obtain ⟨before, passed⟩ := h.around.1.passed consistent queued first
  obtain ⟨reply, done⟩ := h.performed
  rw [← passed.blockCount] at inside last
  obtain ⟨after, one, turned⟩ := passed_of_perform passed.consistent passed.queued asked inside done
  rw [← one.blockCount] at last
  obtain ⟨queue', passed'⟩ := h.around.2.passed one.consistent one.queued last
  rw [passed.capacity] at turned
  exact ⟨s, before, after, queue', asked, passed, turned, passed'⟩

/-- The law of the sectors that come into a cache and go from it. -/
structure FirstOut (capacity : Nat) (run : List (Stage δ)) (final : Cache δ) : Prop where
  /-- Sectors are evicted in the order in which they were loaded. -/
  evicted_prefix : run.flatMap evicted <+: run.flatMap loaded
  /-- A command loads the sector that it needs if that is not cached, and no other. -/
  loaded_eq {x : Stage δ} {s : Sector} : x ∈ run → x.command.access? = some s →
    x.loaded = if s ∈ x.before.sectors then [] else [s]
  /-- A hit evicts nothing. -/
  evicted_of_hit {x : Stage δ} : x ∈ run → x.loaded = [] → x.evicted = []
  /-- Nothing is evicted before as many sectors are cached as there are slots. -/
  full_of_evicted {x : Stage δ} : x ∈ run → x.evicted ≠ [] → x.before.sectors.length = capacity
  /-- From then on a sector that is loaded takes the place of the one that was loaded earliest. -/
  oldest {earlier later : List (Stage δ)} {x : Stage δ} : run = earlier ++ x :: later →
    capacity ≤ (earlier.flatMap loaded).length → x.loaded ≠ [] →
      ∃ first rest, earlier.flatMap loaded = earlier.flatMap evicted ++ first :: rest ∧
        (first :: rest).Perm x.before.sectors ∧ x.evicted = [first]
  /-- A sector that is loaded is still cached after fewer further loads than there are slots. -/
  stays {earlier later : List (Stage δ)} {x : Stage δ} {s : Sector} :
    run = earlier ++ x :: later → s ∈ x.loaded → (later.flatMap loaded).length < capacity →
      s ∈ final.sectors

theorem Chain.firstOut (h : Chain c run c') (consistent : c.Consistent) (empty : c.Queued [])
    (accesses : ∀ x ∈ run, ∃ s < Device.blockCount c.device, x.command.access? = some s) :
    FirstOut c.capacity run c' where
  evicted_prefix := by
    obtain ⟨queue, passed⟩ := h.passed consistent empty accesses
    exact ⟨queue, passed.conserved.symm⟩
  loaded_eq {x s} member asked := by
    obtain ⟨earlier, later, rfl⟩ := List.append_of_mem member
    obtain ⟨_, before, _, _, asked', passed, turned, _⟩ :=
      h.passed_around consistent empty accesses
    cases asked.symm.trans asked'
    rw [turned.loaded_eq]
    exact if_congr (passed.queued.mem_iff passed.consistent.toIndexed) rfl rfl
  evicted_of_hit {x} member hit := by
    obtain ⟨earlier, later, rfl⟩ := List.append_of_mem member
    obtain ⟨_, _, _, _, _, _, turned, _⟩ := h.passed_around consistent empty accesses
    rw [hit] at turned
    exact turned.evicted_of_hit
  full_of_evicted {x} member some := by
    obtain ⟨earlier, later, rfl⟩ := List.append_of_mem member
    obtain ⟨_, _, _, _, _, passed, turned, _⟩ := h.passed_around consistent empty accesses
    rw [← (passed.queued.perm passed.consistent.toIndexed).length_eq]
    exact turned.full_of_evicted some
  oldest {earlier later x} parts many miss := by
    subst parts
    obtain ⟨_, before, _, _, _, passed, turned, _⟩ := h.passed_around consistent empty accesses
    have conserved : earlier.flatMap loaded = earlier.flatMap evicted ++ before := passed.conserved
    have full : before.length = c.capacity := by
      rw [← passed.capacity] at many ⊢
      apply Nat.le_antisymm passed.queued.length_le
      apply Nat.le_of_not_lt
      intro room
      -- with room left nothing was evicted, so all that was loaded is in the queue
      rw [conserved, passed.evicted_of_room room] at many
      exact Nat.not_lt.mpr many room
    obtain ⟨first, rest, rfl, gone⟩ := turned.oldest miss full
    exact ⟨first, rest, conserved, passed.queued.perm passed.consistent.toIndexed, gone⟩
  stays {earlier later x s} parts member few := by
    subst parts
    obtain ⟨_, _, after, queue', _, passed, turned, passed'⟩ :=
      h.passed_around consistent empty accesses
    rw [← passed'.queued.mem_iff passed'.consistent.toIndexed]
    obtain ⟨rest, rfl⟩ := turned.last member
    have conserved := passed'.conserved
    obtain ⟨_, whole⟩ := h.passed consistent empty accesses
    rw [← whole.capacity] at few
    rcases Nat.lt_or_eq_of_le passed'.queued.length_le with room | full
    · rw [passed'.evicted_of_room room, List.nil_append] at conserved
      rw [← conserved]
      exact List.mem_append_left _ (List.mem_append_right _ (List.mem_singleton_self s))
    · -- a full queue has what was loaded last, and that is more than what came after `s`
      have back : s :: later.flatMap loaded <:+ later.flatMap evicted ++ queue' := by
        refine ⟨rest, ?_⟩
        rw [← conserved, List.append_assoc]
        rfl
      have queued := List.suffix_of_suffix_length_le back (List.suffix_append _ queue') (full ▸ few)
      exact queued.subset List.mem_cons_self

end Stage

namespace CacheCommand

variable {δ : Type} [Device δ] [LawfulDevice δ]

/-- A new cache that is only read and written, ahead of use or not, is a queue. -/
theorem first_in_first_out {device : δ} (healthy : LawfulDevice.Healthy device) {capacity : Nat}
    (positive : 0 < capacity) (commands : List CacheCommand)
    (accesses : ∀ command ∈ commands,
      ∃ s < Device.blockCount device, command.access? = some s) :
    ∃ start final, Cache.new device capacity = .ok start ∧
      performAll commands start = .ok () final ∧
      (stages commands start).map Stage.command = commands ∧
      Stage.FirstOut capacity (stages commands start) final := by
  have within : ∀ command ∈ commands, command.Within (Device.blockCount device) := by
    intro command member
    obtain ⟨s, inside, asked⟩ := accesses command member
    exact within_of_access asked inside
  obtain ⟨start, final, made, done, asked, chain, consistent, same, size⟩ :=
    exists_chain healthy positive within
  have accesses : ∀ x ∈ stages commands start,
      ∃ s < Device.blockCount start.device, x.command.access? = some s := by
    intro x member
    rw [same]
    apply accesses
    rw [← asked]
    exact List.mem_map_of_mem member
  refine ⟨start, final, made, done, asked, ?_⟩
  rw [← size]
  exact chain.firstOut consistent (Cache.queued_of_new made) accesses

/-- Two slots: a hit on sector 0 does not save it from being the first to go. -/
theorem first_in_first_out_hit :
    LawfulDevice.Healthy (MemoryDisk.zeroed 4) ∧ 0 < 2 ∧
      (∀ command ∈ [read 0, write 1 .zero, prefetch 0, read 2, read 0],
        ∃ s < Device.blockCount (MemoryDisk.zeroed 4), command.access? = some s) ∧
      ∃ start final : Cache MemoryDisk,
        Cache.new (MemoryDisk.zeroed 4) 2 = .ok start ∧
        performAll [read 0, write 1 .zero, prefetch 0, read 2, read 0] start = .ok () final ∧
        Stage.FirstOut 2
          (stages [read 0, write 1 .zero, prefetch 0, read 2, read 0] start) final ∧
        (stages [read 0, write 1 .zero, prefetch 0, read 2, read 0] start).map Stage.loaded =
          [[0], [1], [], [2], [0]] ∧
        (stages [read 0, write 1 .zero, prefetch 0, read 2, read 0] start).map Stage.evicted =
          [[], [], [], [0], [1]] := by
  have healthy : LawfulDevice.Healthy (MemoryDisk.zeroed 4) :=
    MemoryDisk.healthy_zeroed (by decide)
  have accesses : ∀ command ∈ [read 0, write 1 .zero, prefetch 0, read 2, read 0],
      ∃ s < Device.blockCount (MemoryDisk.zeroed 4), command.access? = some s := by
    simp [access?]
  obtain ⟨start, final, made, done, _, firstOut⟩ :=
    first_in_first_out healthy (by decide : 0 < 2) _ accesses
  refine ⟨healthy, by decide, accesses, start, final, made, done, firstOut, ?_⟩
  cases made
  decide +kernel

end CacheCommand

end InodeVolume
