import InodeVolume.File.Registry
import InodeVolume.Proofs.File.Writing

/-!
# Creating and discarding files

A new file takes its sectors all at once or none of them. A discarded one gives
back exactly what it has, and the count that is checked on the way always agrees.
-/

namespace InodeVolume

variable {α : Type} [Allocator α] [MappedAllocator α] {v : Flat α} {r : Record} {home : Sector}

namespace Record

theorem rooted_new (kind : Kind) (used : v.map.isAllocated home = true) :
    (new kind).Rooted v home where
  nodup := (sound_new kind home).nodup
  used s member := by
    rw [owned_new, List.mem_singleton] at member
    exact member ▸ used
  tagged := (sound_new kind home).tagged

theorem returns_create (ready : v.Ready) (live : home ≠ Sector.null)
    (used : v.map.isAllocated home = true) {length : Nat} {kind : Kind}
    {post : Except CreateError Unit → Flat α → Prop}
    (large : Layout.maxLength < length → post (.error .tooLarge) v)
    (stuck : ∀ w, v.Exchanged [] w [] → length ≤ Layout.maxLength →
      v.map.free < Layout.footprint length → post (.error .noSpace) w)
    (done : ∀ r w, w.Stores home r → v.Exchanged [home] w (r.owned w.content home) →
      length ≤ Layout.maxLength → Layout.footprint length ≤ v.map.free → r.tag = kind.tag →
      r.bytes w.content = List.replicate length 0 → post (.ok ()) w) :
    (create home length kind).Returns v post := by
  rw [create]
  by_cases beyond : Layout.maxLength < length
  · simp only [if_pos beyond]
    exact Program.returns_pure.mpr (large beyond)
  have bound : length ≤ Layout.maxLength := Nat.le_of_not_lt beyond
  have small := Layout.dataSectors_le bound
  have sound : (new kind).Sound v.content home := sound_new kind home
  have rooted := rooted_new kind used
  have none_linked : ((new kind).links v.content).sectors = [] := by
    have alone := owned_new v.content kind home
    rw [owned_eq] at alone
    exact (List.cons.inj alone).2
  have empty : ((new kind).links v.content).Filled 0 := by
    have filled := sound.filled
    rwa [size_new] at filled
  have attempt := Draft.returns_fill ready (fun _ member => rooted.isAllocated member)
    (.of_record ready sound.tagged) (by omega : 0 + Layout.dataSectors length ≤ 504)
    (by rw [Draft.links_ofRecord]; exact empty)
  rw [Nat.zero_add] at attempt
  simp only [if_neg beyond, Program.returns_bind]
  refine Draft.returns_settle ready rooted small attempt (Nat.lt_of_le_of_lt bound (by decide)) ?_ ?_
  · intro w nothing few
    rw [none_linked] at few
    exact Program.returns_pure.mpr (stuck w nothing bound few)
  · intro r w size grown
    rw [← size] at grown
    simp only [Program.returns_bind, Program.returns_pure]
    refine grown.returns_store ready live sound (Nat.zero_le _) (size ▸ bound)
      fun u rewritten bytes => ?_
    have exchanged := rewritten.exchanged
    rw [owned_new] at exchanged
    have counted := exchanged.free
    rw [rewritten.stores.sound.length_owned, size, List.length_singleton] at counted
    refine done r u rewritten.stores exchanged bound (by omega) rewritten.tag ?_
    rw [bytes, size]
    rfl

end Record

/-- All sectors of the file are free afterwards, and no others. -/
theorem Flat.Stores.returns_discard (ready : v.Ready) (h : v.Stores home r)
    {post : Unit → Flat α → Prop}
    (done : ∀ w, v.Exchanged (r.owned v.content home) w [] → w.content = v.content → post () w) :
    (r.discard home).Returns v post := by
  simp only [Record.discard, Program.returns_bind, Program.returns_require]
  rw [h.sound.returns_sectors (h.holds ready)]
  refine ⟨h.sound.length_owned, ?_⟩
  exact (Exchanged.refl ready h.sound.nodup h.used).returns_releaseAll ready done

end InodeVolume
