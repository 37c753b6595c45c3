import InodeVolume.Cache.Lookahead
import InodeVolume.Disk.Device
import Std.Data.TreeMap

/-!
# Sector cache

A fixed number of slots in front of a device. Reads fill a slot, writes only
mark it dirty, and a slot is written back when it is given up. Free slots are
used first; after that slots are given up in turn by their position, whatever
was used last.
-/

namespace InodeVolume

structure Entry where
  sector : Sector
  dirty : Bool
  data : Block

structure Cache (δ : Type) where
  device : δ
  slots : Array (Option Entry)
  /-- The slot of each cached sector. -/
  index : Std.TreeMap Sector Nat
  /-- The next slot to give up. -/
  cursor : Nat := 0
  lookahead : Lookahead := {}

namespace Cache

variable {δ β : Type}

def defaultCapacity : Nat := 64

def new (device : δ) (capacity : Nat) : Except Fault (Cache δ) :=
  if capacity = 0 then
    .error .noSlots
  else
    .ok { device, slots := Array.replicate capacity none, index := ∅ }

def capacity (c : Cache δ) : Nat := c.slots.size

def contains (c : Cache δ) (s : Sector) : Bool := c.index.contains s

def slotOf? (c : Cache δ) (s : Sector) : Option Nat := c.index[s]?

def entryAt (c : Cache δ) (slot : Nat) : Option Entry := c.slots[slot]?.join

def occupancy (c : Cache δ) : List (Sector × Nat) := c.index.toList

def onDevice (act : Action δ β) : Action (Cache δ) β :=
  .onPart Cache.device (fun device c => { c with device }) act

def place (c : Cache δ) (slot : Nat) (e : Entry) : Cache δ :=
  { c with slots := c.slots.setIfInBounds slot (some e), index := c.index.insert e.sector slot }

def vacate (c : Cache δ) (slot : Nat) (s : Sector) : Cache δ :=
  { c with slots := c.slots.setIfInBounds slot none, index := c.index.erase s }

variable [Device δ]

def deviceOccupancy (c : Cache δ) : List (Sector × Nat) :=
  c.occupancy.filter (·.1 < Device.blockCount c.device)

/-- Gives up a slot in use; a dirty one is written back first and stays if that fails. -/
def evict (slot : Nat) : Action (Cache δ) Unit := do
  match (← get).entryAt slot with
  | none => throw .assertion
  | some e =>
    if e.dirty then onDevice (Device.writeBlock e.sector e.data)
    modify fun c => c.vacate slot e.sector

/-- A slot without an entry: the lowest free one, or else the next one to give up.
The cursor moves on before the slot is written back. -/
def freeSlot : Action (Cache δ) Nat := do
  let c ← get
  match if c.index.size < c.capacity then c.slots.findIdx? Option.isNone else none with
  | some slot => return slot
  | none =>
    set { c with cursor := (c.cursor + 1) % c.capacity }
    evict c.cursor
    return c.cursor

/-- The data of a sector, loaded from the device when it is not cached. -/
def fetch (s : Sector) : Action (Cache δ) Block := do
  let c ← get
  match c.slotOf? s with
  | some slot =>
    match c.entryAt slot with
    | some e => return e.data
    | none => throw .assertion
  | none =>
    let slot ← freeSlot
    let data ← onDevice (Device.readBlock s)
    modify fun c => c.place slot ⟨s, false, data⟩
    return data

/-- Reads a sector and expects the next one to be read after it. -/
def read (s : Sector) : Action (Cache δ) Block := do
  let data ← fetch s
  let next ← Action.ofExcept (s.add? 1)
  modify fun c => { c with lookahead := c.lookahead.expect next }
  return data

/-- Replaces a whole sector; nothing has to be loaded for that. -/
def write (s : Sector) (data : Block) : Action (Cache δ) Unit := do
  let slot ← match (← get).slotOf? s with
    | some slot => pure slot
    | none => freeSlot
  modify fun c => c.place slot ⟨s, true, data⟩

def flush (s : Sector) : Action (Cache δ) Unit := do
  match (← get).slotOf? s with
  | some slot => evict slot
  | none => pure ()

/-- Gives up all slots in use, by position. -/
def drain : Action (Cache δ) Unit := do
  (List.range (← get).capacity).forM fun slot => do
    if ((← get).entryAt slot).isSome then evict slot

/-- Loads a sector ahead of its use, which expects no further one. Past the end of
the device nothing happens. -/
def prefetch (s : Sector) : Action (Cache δ) Unit := do
  if s < Device.blockCount (← get).device then
    let _ ← fetch s

end Cache

end InodeVolume
