import InodeVolume.Proofs.Space.FirstFit
import InodeVolume.Space.Allocator

/-!
# Allocators that keep a map

Such an allocator answers as its map does. A space map keeps itself, a ledger the
map of the allocator it writes up.
-/

namespace InodeVolume

class MappedAllocator (α : Type) [Allocator α] where
  map : α → SpaceMap
  allocate_map (a : α) (count : Nat) :
    (Allocator.allocate a count).map (fun p => (p.1, map p.2)) = (map a).allocate count
  release_map (a : α) (s : Sector) (count : Nat) :
    (Allocator.release a s count).map map = (map a).release s count

namespace MappedAllocator

instance : MappedAllocator SpaceMap where
  map := id
  allocate_map m count := by
    change (m.allocate count).map (fun p => (p.1, p.2)) = m.allocate count
    cases m.allocate count <;> rfl
  release_map m s count := by
    change (m.release s count).map id = m.release s count
    cases m.release s count <;> rfl

variable {α : Type} [Allocator α] [MappedAllocator α]

theorem allocate_of_map {a : α} {count : Nat} {s : Option Sector} {m : SpaceMap}
    (done : (map a).allocate count = .ok (s, m)) :
    ∃ a', Allocator.allocate a count = .ok (s, a') ∧ map a' = m := by
  rw [← allocate_map] at done
  cases answered : Allocator.allocate a count with
  | error f =>
    rw [answered] at done
    cases done
  | ok p =>
    rw [answered] at done
    cases done
    exact ⟨p.2, rfl, rfl⟩

theorem release_of_map {a : α} {s : Sector} {count : Nat} {m : SpaceMap}
    (done : (map a).release s count = .ok m) :
    ∃ a', Allocator.release a s count = .ok a' ∧ map a' = m := by
  rw [← release_map] at done
  cases answered : Allocator.release a s count with
  | error f =>
    rw [answered] at done
    cases done
  | ok a' =>
    rw [answered] at done
    cases done
    exact ⟨a', rfl, rfl⟩

instance : MappedAllocator (Ledger α) where
  map l := map l.allocator
  allocate_map l count := by
    rw [← allocate_map]
    change Except.map _ (Except.bind (Allocator.allocate l.allocator count) _) = _
    cases Allocator.allocate l.allocator count <;> rfl
  release_map l s count := by
    rw [← release_map]
    change Except.map _ (Except.bind (Allocator.release l.allocator s count) _) = _
    cases Allocator.release l.allocator s count <;> rfl

end MappedAllocator

end InodeVolume
