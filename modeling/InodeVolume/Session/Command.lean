import InodeVolume.File.Probe
import InodeVolume.File.Registry

/-!
# Commands and replies

What a script may ask of a volume under observation, and what it is told.
Sectors are given by number, open inodes by handle.
-/

namespace InodeVolume

namespace Session

inductive Command where
  | allocate (count : Nat)
  | release (s : Sector) (count : Nat)
  | isAllocated (s : Sector)
  | create (home : Sector) (length : Nat) (kind : Kind)
  | openAt (home : Sector)
  | reopen (handle : Nat)
  | close (handle : Nat)
  | sync
  | probe (s : Sector)
  | remove (handle : Nat)
  | forbid (handle : Nat)
  | permit (handle : Nat)
  | inspect (handle : Nat)
  | locate (handle offset count : Nat) (forWrite : Bool)
  | read (handle offset count : Nat)
  | write (handle offset : Nat) (data : List UInt8)
  | cacheRead (s : Sector) (size : Nat)
  | cacheWrite (s : Sector) (data : List UInt8)
  | flush (s : Sector)
  | drain
  | prefetch (s : Sector)
  | slotOf (s : Sector)
  | occupancy
  | expect (s : Sector)
  | takeTarget
  | follow
  | listen (on : Bool)
  | wakes
  /-- Follows an expectation of its own twice, beside that of the cache. -/
  | followApart (s : Sector)
  | readWithAgent (sectors : List Sector)
  /-- Waits for an agent that flushes at such intervals, unless the first is a second off. -/
  | flushWithAgent (milliseconds : Nat)
  | blockCount
  /-- The content of a block on the disk itself. -/
  | peek (s : Sector)
  | poke (s : Sector) (data : Block)
  /-- A new cache over the same disk, the old one written back. -/
  | remount (capacity : Nat)
  /-- A new cache over the same disk, the old one lost. -/
  | crash (capacity : Nat)

inductive Reply where
  | nothing
  | sector (s : Option Sector)
  | slot (slot : Option Nat)
  | flag (b : Bool)
  | flags (bs : List Bool)
  | number (n : Nat)
  | created (result : Except CreateError Unit)
  | opened (handle same openers : Nat)
  | closed (openers : Nat)
  | probed (result : Except ProbeError Kind)
  | inode (i : Inode) (kind : Kind)
  | located (s : Option Sector) (size : Nat)
  | bytes (data : List UInt8)
  | written (count size : Nat)
  | block (b : Block)
  | blocks (bs : List Block)
  | occupied (capacity : Nat) (slots : List (Sector × Nat))

end Session

end InodeVolume
