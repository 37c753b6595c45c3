import InodeVolume.File.Write
import Std.Data.TreeMap

/-!
# Open inodes

All who open the same sector share one inode. The registry finds it by its
sector until the last of them closes it; a removed inode gives its sectors back
at that moment. An inode that was closed can still be named and used.
-/

namespace InodeVolume

structure Inode where
  /-- The sector of the record. -/
  home : Sector
  record : Record
  openers : Nat := 1
  /-- Openers that forbid writing for now. -/
  denials : Nat := 0
  removed : Bool := false

namespace Inode

def addOpener (i : Inode) : Inode := { i with openers := i.openers + 1 }

def dropOpener (i : Inode) : Except Fault Inode :=
  if i.openers = 0 then .error (.closedTooOften i.home)
  else if i.openers - 1 < i.denials then .error .assertion
  else .ok { i with openers := i.openers - 1 }

/-- Forbids writing; each opener may do so once. -/
def forbid (i : Inode) : Except Fault Inode :=
  if i.openers < i.denials + 1 then .error .assertion
  else .ok { i with denials := i.denials + 1 }

def permit (i : Inode) : Except Fault Inode :=
  if i.denials = 0 then .error .allowWithoutDeny
  else if i.openers < i.denials then .error .assertion
  else .ok { i with denials := i.denials - 1 }

end Inode

/-- Inodes are named by their place in the order in which they came into use. -/
abbrev InodeId := Nat

structure Registry where
  inodes : Array Inode := #[]
  opened : Std.TreeMap Sector InodeId := ∅

inductive CreateError where
  | noSpace
  | tooLarge
deriving DecidableEq, Repr

def CreateError.message : CreateError → String
  | noSpace => "no free sector left"
  | tooLarge => "file size exceeds the extent capacity"

/-- Makes a file of `length` zero bytes with its record in sector `home`. -/
def Record.create (home : Sector) (length : Nat) (kind : Kind) :
    Program (Except CreateError Unit) := do
  if Layout.maxLength < length then return .error .tooLarge
  match ← Draft.settle (Draft.fill (Layout.dataSectors length) 0) (.new kind) length with
  | none => return .error .noSpace
  | some r =>
    r.store home
    return .ok ()

/-- Gives back all sectors of a file, which have to be as many as its length says. -/
def Record.discard (r : Record) (home : Sector) : Program Unit := do
  let sectors ← r.sectors home
  Program.require (sectors.length = Layout.footprint r.size + 1) .assertion
  sectors.forM Program.release

abbrev Filing := StateT Registry Program

namespace Registry

def openCount (g : Registry) : Nat := g.opened.size

def inode (id : InodeId) : Filing Inode := do
  match (← get).inodes[id]? with
  | some i => return i
  | none => Program.fault .unknownHandle

def put (id : InodeId) (i : Inode) : Filing Unit :=
  modify fun g => { g with inodes := g.inodes.setIfInBounds id i }

def enter (home : Sector) (record : Record) : Filing InodeId := do
  let g ← get
  let id := g.inodes.size
  set { g with inodes := g.inodes.push { home, record }, opened := g.opened.insert home id }
  return id

def reopen (id : InodeId) : Filing InodeId := do
  put id (← inode id).addOpener
  return id

def openAt (home : Sector) : Filing InodeId := do
  match (← get).opened[home]? with
  | some id => reopen id
  | none =>
    let record := Record.decode (← Program.read home)
    Program.require (Kind.ofTag? record.tag).isSome (.noInode home record.tag)
    enter home record

/-- One opener less. The last one takes the inode's sector out of the registry, and
a removed inode is discarded with it. -/
def close (id : InodeId) : Filing Unit := do
  let i ← Program.ofExcept (← inode id).dropOpener
  put id i
  if i.openers = 0 then
    modify fun g => { g with opened := g.opened.erase i.home }
    if i.removed then i.record.discard i.home

def remove (id : InodeId) : Filing Unit := do
  put id { ← inode id with removed := true }

def forbid (id : InodeId) : Filing Unit := do
  put id (← Program.ofExcept (← inode id).forbid)

def permit (id : InodeId) : Filing Unit := do
  put id (← Program.ofExcept (← inode id).permit)

/-- The sector of the byte at an offset, where a writer may let the file grow. -/
def locate (id : InodeId) (offset count : Nat) (forWrite : Bool) : Filing (Option Sector) := do
  let i ← inode id
  if forWrite then
    let (s, record) ← i.record.sectorForWrite i.home offset count
    put id { i with record }
    return s
  else
    i.record.sectorAt offset

def read (id : InodeId) (offset count : Nat) : Filing (List UInt8) := do
  (← inode id).record.read offset count

/-- Writes bytes at an offset and says how many; none while writing is forbidden. -/
def write (id : InodeId) (offset : Nat) (data : List UInt8) : Filing Nat := do
  let i ← inode id
  if 0 < i.denials then return 0
  let (count, record) ← i.record.write i.home offset data
  put id { i with record }
  return count

end Registry

end InodeVolume
