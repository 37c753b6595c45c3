import InodeVolume.Space.SpaceMap

/-!
# Allocators

What the file layer needs of an allocator, and three of them: a space map, a
sequence that counts upwards, and a ledger of what another allocator has
answered.
-/

namespace InodeVolume

class Allocator (α : Type) where
  /-- The first of `count` sectors in a row, or `none` when there are none. -/
  allocate : α → (count : Nat) → Except Fault (Option Sector × α)
  release : α → Sector → (count : Nat) → Except Fault α
  /-- The map that the allocator keeps, for one that keeps a map. -/
  spaceMap? : α → Option SpaceMap := fun _ => none

instance : Allocator SpaceMap where
  allocate := SpaceMap.allocate
  release := SpaceMap.release
  spaceMap? m := some m

/-- Hands out consecutive sectors for `left` calls and never takes one back. -/
structure Sequence where
  next : Sector
  left : Nat

instance : Allocator Sequence where
  allocate q count :=
    match q.left with
    | 0 => .ok (none, q)
    | left + 1 => do
      let next ← q.next.add? count
      return (some q.next, ⟨next, left⟩)
  release q _ _ := .ok q

/-- A call to an allocator, with the number of sectors it was about. -/
inductive AllocatorCall where
  | allocated (sector : Option Sector) (count : Nat)
  | released (sector : Sector) (count : Nat)
deriving DecidableEq, Repr

/-- An allocator and the calls that it has answered, newest first. A call that ends at a
fault is not entered. -/
structure Ledger (α : Type) where
  allocator : α
  calls : List AllocatorCall := []

instance {α : Type} [Allocator α] : Allocator (Ledger α) where
  allocate l count := do
    let (s, allocator) ← Allocator.allocate l.allocator count
    return (s, ⟨allocator, .allocated s count :: l.calls⟩)
  release l s count := do
    let allocator ← Allocator.release l.allocator s count
    return ⟨allocator, .released s count :: l.calls⟩
  spaceMap? l := Allocator.spaceMap? l.allocator

end InodeVolume
