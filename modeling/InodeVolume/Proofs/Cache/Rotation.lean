import InodeVolume.Proofs.Cache.Stages
import InodeVolume.Proofs.Disk.Atomic

/-!
# Slots in rotation

A cache keeps no ages of its entries. But while nothing is flushed, its slots, read round from the
cursor, have its sectors in the order in which they came: they are a queue that a missing sector
joins at the back, and that gives up its front once it has one sector for each slot.
-/

namespace InodeVolume

/-- What becomes of a queue when a sector is asked for. -/
def enqueue (capacity : Nat) (queue : List Sector) (s : Sector) : List Sector :=
  if s ∈ queue then queue
  else if queue.length < capacity then queue ++ [s]
  else queue.tail ++ [s]

namespace Cache

variable {δ : Type} {c : Cache δ} {queue : List Sector} {s : Sector} {slot : Nat} {e : Entry}

/-- The slot that is `i` steps on from the cursor. -/
def turn (c : Cache δ) (i : Nat) : Nat := (c.cursor + i) % c.capacity

theorem capacity_place (c : Cache δ) (slot : Nat) (e : Entry) :
    (c.place slot e).capacity = c.capacity := by
  simp [place, capacity]

namespace Indexed

theorem turn_zero (h : c.Indexed) : c.turn 0 = c.cursor := Nat.mod_eq_of_lt h.cursor_lt

theorem exists_turn (h : c.Indexed) (inside : slot < c.capacity) :
    ∃ i < c.capacity, c.turn i = slot := by
  have cursor_lt := h.cursor_lt
  unfold turn
  rcases Nat.le_total c.cursor slot with after | before
  · refine ⟨slot - c.cursor, Nat.lt_of_le_of_lt (Nat.sub_le _ _) inside, ?_⟩
    rw [Nat.add_sub_cancel' after, Nat.mod_eq_of_lt inside]
  · refine ⟨(slot + (c.capacity - c.cursor)) % c.capacity, Nat.mod_lt _ h.capacity_pos, ?_⟩
    have round : c.cursor + (slot + (c.capacity - c.cursor)) = slot + c.capacity := by omega
    rw [Nat.add_mod_mod, round, Nat.add_mod_right, Nat.mod_eq_of_lt inside]

theorem turn_inj {i j : Nat} (first : i < c.capacity) (second : j < c.capacity)
    (same : c.turn i = c.turn j) : i = j :=
  (Nat.ModEq.add_left_cancel' c.cursor same).eq_of_lt_of_lt first second

theorem vacancy_eq (h : c.Indexed) (inside : slot < c.capacity) (free : c.entryAt slot = none)
    (used : ∀ j < slot, c.entryAt j ≠ none) : c.vacancy = some slot := by
  rw [vacancy, if_pos (h.size_lt inside free), Array.findIdx?_eq_some_iff_getElem]
  have inside : slot < c.slots.size := inside
  refine ⟨inside, ?_, ?_⟩
  · simpa [entryAt, inside] using free
  · intro j before
    have within : j < c.slots.size := Nat.lt_trans before inside
    simpa [entryAt, within] using used j before

end Indexed

/-- Read round from the cursor, the slots have the sectors of a queue. -/
structure Queued (c : Cache δ) (queue : List Sector) : Prop where
  length_le : queue.length ≤ c.capacity
  /-- The cursor has not moved before all slots are in use. -/
  cursor_eq : queue.length < c.capacity → c.cursor = 0
  sector {i : Nat} : i < c.capacity → (c.entryAt (c.turn i)).map Entry.sector = queue[i]?

namespace Queued

theorem exists_entry (q : Queued c queue) {i : Nat} (inside : i < queue.length) :
    ∃ e, c.entryAt (c.turn i) = some e ∧ e.sector = queue[i] := by
  have found := q.sector (Nat.lt_of_lt_of_le inside q.length_le)
  rw [List.getElem?_eq_getElem inside] at found
  exact Option.map_eq_some_iff.mp found

theorem mem_iff (q : Queued c queue) (h : c.Indexed) : s ∈ queue ↔ s ∈ c.sectors := by
  simp only [h.mem_sectors_iff, h.entryOf?_eq_some_iff]
  constructor
  · intro member
    obtain ⟨i, inside, rfl⟩ := List.getElem_of_mem member
    obtain ⟨e, used⟩ := q.exists_entry inside
    exact ⟨e, _, used⟩
  · rintro ⟨e, slot, used, rfl⟩
    obtain ⟨i, inside, rfl⟩ := h.exists_turn (entryAt_lt used)
    have found := q.sector inside
    rw [used] at found
    exact List.mem_of_getElem? found.symm

theorem mem_of_entry (q : Queued c queue) (h : c.Indexed) (used : c.entryAt slot = some e) :
    e.sector ∈ queue := by
  rw [q.mem_iff h, h.mem_sectors_iff]
  exact ⟨e, h.entryOf?_eq_some_iff.mpr ⟨slot, used, rfl⟩⟩

theorem notMem_of_missing (q : Queued c queue) (h : c.Indexed) (missing : c.slotOf? s = none) :
    s ∉ queue := by
  rw [q.mem_iff h, h.mem_sectors_iff, h.entryOf?_eq_none_iff.mpr missing]
  rintro ⟨_, ⟨⟩⟩

theorem nodup (q : Queued c queue) (h : c.Indexed) : queue.Nodup := by
  apply List.nodup_iff_injective_getElem.mpr
  rintro ⟨i, first⟩ ⟨j, second⟩ same
  obtain ⟨e, used, own⟩ := q.exists_entry first
  obtain ⟨e', used', own'⟩ := q.exists_entry second
  have slots : some (c.turn i) = some (c.turn j) := by
    rw [← h.slotOf?_eq used, ← h.slotOf?_eq used', own, own']
    exact congrArg c.slotOf? same
  apply Fin.ext
  apply Indexed.turn_inj _ _ (Option.some.inj slots)
  · exact Nat.lt_of_lt_of_le first q.length_le
  · exact Nat.lt_of_lt_of_le second q.length_le

theorem perm (q : Queued c queue) (h : c.Indexed) : queue.Perm c.sectors :=
  (List.perm_ext_iff_of_nodup (q.nodup h) c.nodup_sectors).mpr fun _ => q.mem_iff h

/-- As long as the cursor has not moved, slots come up in the order of their positions. -/
theorem turn_eq (q : Queued c queue) (room : queue.length < c.capacity) {i : Nat}
    (inside : i < c.capacity) : c.turn i = i := by
  rw [turn, q.cursor_eq room, Nat.zero_add, Nat.mod_eq_of_lt inside]

theorem vacancy_of_room (q : Queued c queue) (h : c.Indexed) (room : queue.length < c.capacity) :
    c.vacancy = some queue.length := by
  apply h.vacancy_eq room
  · have free := q.sector room
    rw [q.turn_eq room room, List.getElem?_eq_none (Nat.le_refl _)] at free
    exact Option.map_eq_none_iff.mp free
  · intro j before none
    obtain ⟨e, used, _⟩ := q.exists_entry before
    rw [q.turn_eq room (Nat.lt_trans before room), none] at used
    cases used

theorem vacancy_of_full (q : Queued c queue) (h : c.Indexed) (full : queue.length = c.capacity) :
    c.vacancy = none := by
  cases found : c.vacancy with
  | none => rfl
  | some slot =>
    obtain ⟨inside, free⟩ := Indexed.vacancy_free found
    obtain ⟨i, within, rfl⟩ := h.exists_turn inside
    obtain ⟨e, used, _⟩ := q.exists_entry (full ▸ within)
    rw [free] at used
    cases used

theorem place (inside : slot < c.capacity) (length_le : queue.length ≤ c.capacity)
    (cursor_eq : queue.length < c.capacity → c.cursor = 0)
    (sector : ∀ i < c.capacity, queue[i]? =
      if slot = c.turn i then some e.sector else (c.entryAt (c.turn i)).map Entry.sector) :
    Queued (c.place slot e) queue := by
  have capacity := c.capacity_place slot e
  have turn (i : Nat) : (c.place slot e).turn i = c.turn i := by
    rw [Cache.turn, capacity]
    rfl
  refine ⟨capacity ▸ length_le, fun room => cursor_eq (capacity ▸ room), ?_⟩
  intro i within
  rw [capacity] at within
  rw [turn, entryAt_place c inside, sector i within, apply_ite (Option.map Entry.sector)]
  rfl

theorem replace (q : Queued c queue) (used : c.entryAt slot = some e) (data : Block)
    (dirty : Bool) : Queued (c.place slot ⟨e.sector, dirty, data⟩) queue := by
  apply place (entryAt_lt used) q.length_le q.cursor_eq
  intro i inside
  rw [← q.sector inside]
  by_cases here : slot = c.turn i
  · rw [if_pos here, ← here, used]
    rfl
  · rw [if_neg here]

theorem join (q : Queued c queue) (room : queue.length < c.capacity) :
    Queued (c.place queue.length e) (queue ++ [e.sector]) := by
  apply place room
  · rw [List.length_append]
    exact room
  · exact fun _ => q.cursor_eq room
  · intro i inside
    have turned := q.sector inside
    rw [q.turn_eq room inside] at turned ⊢
    rw [turned]
    rcases Nat.lt_trichotomy i queue.length with before | rfl | after
    · rw [List.getElem?_append_left before, if_neg (Nat.ne_of_gt before)]
    · rw [List.getElem?_concat_length, if_pos rfl]
    · rw [if_neg (Nat.ne_of_lt after), List.getElem?_eq_none (Nat.le_of_lt after),
        List.getElem?_eq_none]
      rw [List.length_append]
      exact after

/-- A sector joins at the back in the slot of the front, which has gone. The cursor has moved on. -/
theorem follow (q : Queued c queue) (h : c.Indexed) (full : queue.length = c.capacity)
    {c' : Cache δ} (capacity : c'.capacity = c.capacity)
    (cursor : c'.cursor = (c.cursor + 1) % c.capacity)
    (entryAt : ∀ j, c'.entryAt j = if c.cursor = j then none else c.entryAt j) :
    Queued (c'.place c.cursor e) (queue.tail ++ [e.sector]) := by
  have length : (queue.tail ++ [e.sector]).length = c'.capacity := by
    rw [List.length_append, List.length_tail, full, capacity]
    exact Nat.sub_add_cancel h.capacity_pos
  have turn (i : Nat) : c'.turn i = c.turn (i + 1) := by
    rw [Cache.turn, Cache.turn, cursor, capacity, Nat.mod_add_mod, Nat.add_assoc, Nat.add_comm 1]
  apply place
  · rw [capacity]
    exact h.cursor_lt
  · exact Nat.le_of_eq length
  · exact fun room => absurd length (Nat.ne_of_lt room)
  · intro i inside
    rw [capacity] at inside
    rw [turn, entryAt]
    rcases Nat.lt_or_eq_of_le (Nat.succ_le_of_lt inside) with within | last
    · have apart : c.cursor ≠ c.turn (i + 1) := by
        intro same
        rw [← h.turn_zero] at same
        exact Nat.succ_ne_zero i (Indexed.turn_inj h.capacity_pos within same).symm
      have before : i < queue.tail.length := by
        rw [List.length_tail, full]
        exact Nat.lt_sub_of_add_lt within
      rw [if_neg apart, if_neg apart, q.sector within, List.getElem?_append_left before,
        List.getElem?_tail]
    · have last : i + 1 = c.capacity := last
      have round : c.turn (i + 1) = c.cursor := by
        rw [Cache.turn, last, Nat.add_mod_right, Nat.mod_eq_of_lt h.cursor_lt]
      have behind : queue.tail.length = i := by
        rw [List.length_tail, full, ← last]
        rfl
      rw [round, if_pos rfl, ← behind, List.getElem?_concat_length]

end Queued

theorem queued_of_new {device : δ} {capacity : Nat} (made : new device capacity = .ok c) :
    c.Queued [] := by
  rw [new, if_neg (Nat.ne_of_gt (positive_of_new made))] at made
  cases made
  refine ⟨Nat.zero_le _, fun _ => rfl, ?_⟩
  intro i _
  simp [entryAt, Array.getElem?_replicate, apply_ite]

variable [Device δ]

theorem evict_cursor (slot : Nat) (c : Cache δ) :
    (evict slot).Ends c (fun _ c' => c'.cursor = c.cursor) fun _ _ => True := by
  unfold evict
  apply Action.ends_get_bind.mpr
  cases c.entryAt slot with
  | none => trivial
  | some e =>
    cases dirty : e.dirty with
    | false =>
      simp only [dirty]
      rfl
    | true =>
      simp only [dirty, if_true]
      apply Action.ends_bind.mpr
      apply Action.ends_onPart.mpr
      exact Action.ends_iff.mpr ⟨fun _ _ _ => rfl, fun _ _ _ => trivial⟩

variable [LawfulDevice δ]

/-- The slot that a missing sector gets is the one in which it joins the queue. -/
theorem Queued.freeSlot (q : Queued c queue) (h : c.Consistent) (missing : s ∉ queue) :
    Cache.freeSlot.Ends c (fun slot c' => c'.capacity = c.capacity ∧
      ∀ e, e.sector = s → Queued (c'.place slot e) (enqueue c.capacity queue s))
      fun _ _ => True := by
  rw [enqueue, if_neg missing]
  rcases Nat.lt_or_eq_of_le q.length_le with room | full
  · rw [if_pos room]
    apply Action.Ends.of_ok (freeSlot_of_vacancy (q.vacancy_of_room h.toIndexed room))
    refine ⟨rfl, ?_⟩
    rintro e rfl
    exact q.join room
  · rw [if_neg (Nat.not_lt.mpr (Nat.le_of_eq full.symm))]
    have none := q.vacancy_of_full h.toIndexed full
    obtain ⟨e, used⟩ := h.victim_used none
    have moved : Consistent { c with cursor := (c.cursor + 1) % c.capacity } :=
      (h.coherent.advance.kept h.healthy rfl h.within).consistent
    obtain ⟨c', done, evicted⟩ := evict_eq moved used
    apply Action.Ends.of_eq _ (freeSlot_of_full none)
    apply Action.ends_bind.mpr
    apply Action.Ends.of_ok done
    refine ⟨evicted.capacity, ?_⟩
    rintro e rfl
    exact q.follow h.toIndexed full evicted.capacity ((evict_cursor _ _).ok done) evicted.entryAt

theorem Queued.fetch (q : Queued c queue) (h : c.Consistent) (s : Sector) :
    (Cache.fetch s).Ends c
      (fun _ c' => c'.capacity = c.capacity ∧ Queued c' (enqueue c.capacity queue s))
      fun _ _ => True := by
  unfold Cache.fetch
  apply Action.ends_get_bind.mpr
  cases found : c.slotOf? s with
  | some slot =>
    obtain ⟨e, used, rfl⟩ := h.slotOf?_iff.mp found
    simp only [used, enqueue, if_pos (q.mem_of_entry h.toIndexed used)]
    exact ⟨rfl, q⟩
  | none =>
    apply Action.ends_bind.mpr
    apply (q.freeSlot h (q.notMem_of_missing h.toIndexed found)).mono
    · rintro slot middle ⟨capacity, joins⟩
      apply Action.ends_bind.mpr
      apply Action.ends_onPart.mpr
      apply Action.ends_iff.mpr
      constructor
      · intro data device _
        obtain ⟨length_le, cursor_eq, sector⟩ := joins ⟨s, false, data⟩ rfl
        exact ⟨(capacity_place _ _ _).trans capacity, length_le, cursor_eq, sector⟩
      · exact fun _ _ _ => trivial
    · exact fun _ _ => id

theorem Queued.write (q : Queued c queue) (h : c.Consistent) (s : Sector) (data : Block) :
    (Cache.write s data).Ends c
      (fun _ c' => c'.capacity = c.capacity ∧ Queued c' (enqueue c.capacity queue s))
      fun _ _ => True := by
  unfold Cache.write
  apply Action.ends_get_bind.mpr
  cases found : c.slotOf? s with
  | some slot =>
    obtain ⟨e, used, rfl⟩ := h.slotOf?_iff.mp found
    rw [enqueue, if_pos (q.mem_of_entry h.toIndexed used)]
    exact ⟨capacity_place _ _ _, q.replace used data true⟩
  | none =>
    apply Action.ends_bind.mpr
    apply (q.freeSlot h (q.notMem_of_missing h.toIndexed found)).mono
    · rintro slot middle ⟨capacity, joins⟩
      exact ⟨(capacity_place _ _ _).trans capacity, joins ⟨s, true, data⟩ rfl⟩
    · exact fun _ _ => id

end Cache

namespace CacheCommand

def access? : CacheCommand → Option Sector
  | read s | write s _ | prefetch s => some s
  | flush _ | drain => none

theorem within_of_access {command : CacheCommand} {s : Sector} {limit : Nat}
    (asked : command.access? = some s) (inside : s < limit) : command.Within limit := by
  cases command with
  | read | write =>
    cases asked
    exact inside
  | flush | drain | prefetch => trivial

variable {δ : Type} [Device δ] [LawfulDevice δ] {c : Cache δ} {queue : List Sector} {s : Sector}

theorem perform_enqueues (q : c.Queued queue) (h : c.Consistent) {command : CacheCommand}
    (asked : command.access? = some s) (inside : s < Device.blockCount c.device) :
    command.perform.Ends c
      (fun _ c' => c'.capacity = c.capacity ∧ c'.Queued (enqueue c.capacity queue s))
      fun _ _ => True := by
  cases command with
  | flush | drain => cases asked
  | read t =>
    cases asked
    apply Action.ends_bind.mpr
    apply Action.ends_bind.mpr
    apply (q.fetch h s).mono
    · rintro data c' ⟨capacity, length_le, cursor_eq, sector⟩
      apply Action.ends_bind.mpr
      unfold Action.Ends Action.ofExcept
      cases Sector.add? s 1 with
      | error f => trivial
      | ok next => exact ⟨capacity, length_le, cursor_eq, sector⟩
    · exact fun _ _ => id
  | write t data =>
    cases asked
    apply Action.ends_bind.mpr
    exact q.write h s data
  | prefetch t =>
    cases asked
    apply Action.ends_bind.mpr
    unfold Cache.prefetch
    apply Action.ends_get_bind.mpr
    rw [if_pos inside]
    apply Action.ends_bind.mpr
    exact q.fetch h s

end CacheCommand

end InodeVolume
