import InodeVolume.Sector

/-!
# Space maps

A bitmap of the sectors of a disk, in groups of 64 bits; a set bit is a sector
in use. Sectors are handed out first-fit, and the bits past the last sector
stay set so that no search ever finds them.
-/

namespace InodeVolume

structure SpaceMap where
  groups : Array UInt64
  capacity : Nat
  free : Nat

namespace SpaceMap

def groupBits : Nat := 64

def mask (s : Sector) : UInt64 := 1 <<< (s % groupBits).toUInt64

def test (m : SpaceMap) (s : Sector) : Bool :=
  m.groups.getD (s / groupBits) 0 &&& mask s != 0

def set (m : SpaceMap) (s : Sector) : SpaceMap :=
  { m with groups := m.groups.modify (s / groupBits) (· ||| mask s) }

def clear (m : SpaceMap) (s : Sector) : SpaceMap :=
  { m with groups := m.groups.modify (s / groupBits) (· &&& ~~~mask s) }

def setRun (m : SpaceMap) (s : Sector) : Nat → SpaceMap
  | 0 => m
  | count + 1 => (m.set s).setRun (s + 1) count

/-- A map of `total` sectors whose first `reserved` are never handed out. Sector 0
is the null pointer, so at least one is reserved. -/
def new (total reserved : Nat) : Except Fault SpaceMap :=
  if reserved = 0 then
    .error .zeroReserved
  else if total < reserved then
    .error .assertion
  else
    let count := (total + (groupBits - 1)) / groupBits
    let m : SpaceMap := ⟨Array.replicate count 0, total, total - reserved⟩
    .ok ((m.setRun total (count * groupBits - total)).setRun 0 reserved)

def isAllocated (m : SpaceMap) (s : Sector) : Bool := s < m.capacity && m.test s

def allocated (m : SpaceMap) : List Sector :=
  (List.range m.capacity).filter m.isAllocated

def trailingOnes (w : UInt64) : Nat :=
  ((List.range groupBits).find? fun i => w &&& mask i == 0).getD groupBits

/-- The first free sector, found a group at a time. -/
def lowestFree (m : SpaceMap) : Option Sector :=
  match m.groups.findIdx? (· != ~~~0) with
  | some g => some (g * groupBits + trailingOnes (m.groups.getD g 0))
  | none => none

/-- Looks at `left` sectors from `s`, `run` free ones directly before it, for `count`
free ones in a row. -/
def lowestRunFrom (m : SpaceMap) (count : Nat) : (left s run : Nat) → Option Sector
  | 0, _, _ => none
  | left + 1, s, run =>
    if m.test s then lowestRunFrom m count left (s + 1) 0
    else if run + 1 = count then some (s + 1 - count)
    else lowestRunFrom m count left (s + 1) (run + 1)

/-- The start of the first `count` free sectors in a row, found a bit at a time. -/
def lowestRun (m : SpaceMap) (count : Nat) : Option Sector :=
  m.lowestRunFrom count m.capacity 0 0

def allocate (m : SpaceMap) (count : Nat) : Except Fault (Option Sector × SpaceMap) :=
  if count = 0 then
    .error .assertion
  else
    let free := m.free - count
    match if count = 1 then m.lowestFree else m.lowestRun count with
    | none => .ok (none, m)
    | some s => .ok (some s, { m.setRun s count with free })

/-- The answers to `times` requests for `count` sectors each, after those in `earlier`,
newest first. -/
def allocateMore (m : SpaceMap) (count : Nat) (earlier : List (Option Sector)) :
    (times : Nat) → Except Fault (List (Option Sector) × SpaceMap)
  | 0 => .ok (earlier.reverse, m)
  | times + 1 =>
    match m.allocate count with
    | .ok (s, m) => m.allocateMore count (s :: earlier) times
    | .error f => .error f

def allocateTimes (m : SpaceMap) (count times : Nat) :
    Except Fault (List (Option Sector) × SpaceMap) :=
  m.allocateMore count [] times

/-- Clears `count` bits from `s`, each of which has to be set. -/
def clearRun (m : SpaceMap) (s : Sector) : Nat → Except Fault SpaceMap
  | 0 => .ok m
  | count + 1 =>
    if m.test s then (m.clear s).clearRun (s + 1) count else .error (.doubleRelease s)

def release (m : SpaceMap) (s : Sector) (count : Nat) : Except Fault SpaceMap :=
  if Sector.limit ≤ s + count then
    .error .overflow
  else if m.capacity < s + count then
    .error .releaseOutOfRange
  else do
    let m ← m.clearRun s count
    return { m with free := m.free + count }

end SpaceMap

end InodeVolume
