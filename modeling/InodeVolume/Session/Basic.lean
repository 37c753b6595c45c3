import InodeVolume.Cache.Agent
import InodeVolume.Disk.Drive
import InodeVolume.Session.Command
import InodeVolume.Volume

/-!
# Sessions

A volume with everything observed: transfers of its drive, calls to its
allocator, and the handles given out. `Session.step` obeys one command and
reports what was to be seen meanwhile.
-/

namespace InodeVolume

structure Session (δ α : Type) where
  volume : Volume (Drive δ) (Ledger α)
  registry : Registry := {}
  /-- The inodes of the handles given out since the last remount, in order. -/
  handles : Array InodeId := #[]
  /-- Handles forgotten by a remount; later handles are numbered on from here. -/
  retired : Nat := 0
  /-- Wakes counted in caches of the past. -/
  earlierWakes : Nat := 0

namespace Session

variable {δ α β : Type}

structure Report where
  reply : Reply
  openInodes : Nat
  /-- Free sectors, where the allocator keeps a map. -/
  free : Option Nat
  /-- In order. -/
  transfers : List Transfer
  /-- In order. -/
  calls : List AllocatorCall

def new [Allocator α] (disk : δ) (damaged : List Nat) (allocator : α) (capacity : Nat) :
    Except Fault (Session δ α) := do
  let cache ← Cache.new { disk, damaged : Drive δ } capacity
  return { volume := ⟨cache, { allocator }⟩ }

def onVolume (act : Action (Volume (Drive δ) (Ledger α)) β) : Action (Session δ α) β :=
  .onPart Session.volume (fun volume s => { s with volume }) act

def onCache (act : Action (Cache (Drive δ)) β) : Action (Session δ α) β :=
  onVolume (Volume.onCache act)

def onDisk (act : Action δ β) : Action (Session δ α) β :=
  onCache (Cache.onDevice (Drive.onDisk act))

def lookahead (s : Session δ α) : Lookahead := s.volume.cache.lookahead

def setLookahead (l : Lookahead) : Action (Session δ α) Unit :=
  onCache (modify fun c => { c with lookahead := l })

def inodeOf (handle : Nat) : Action (Session δ α) InodeId := do
  let s ← get
  match if s.retired ≤ handle then s.handles[handle - s.retired]? else none with
  | some id => return id
  | none => throw .unknownHandle

/-- A buffer has to be addressable. -/
def checkBuffer (size : Nat) : Action (Session δ α) Unit := do
  if sizeLimit ≤ size then throw .capacityOverflow

variable [Device δ] [Allocator α]

def onFiles (act : Filing β) : Action (Session δ α) β := do
  let (b, registry) ← onVolume (Volume.perform (act.run (← get).registry))
  modify fun s => { s with registry }
  return b

def inode (handle : Nat) : Action (Session δ α) (InodeId × Inode) := do
  let id ← inodeOf handle
  return (id, ← onFiles (Registry.inode id))

/-- Gives out a handle. `same` is the first handle of the same inode. -/
def giveHandle (id : InodeId) : Action (Session δ α) Reply := do
  modify fun s => { s with handles := s.handles.push id }
  let i ← onFiles (Registry.inode id)
  let s ← get
  let first := (s.handles.findIdx? (· == id)).getD 0
  return .opened (s.retired + s.handles.size - 1) (s.retired + first) i.openers

/-- A new cache over the same disk; handles are forgotten. -/
def replaceCache (capacity : Nat) : Action (Session δ α) Unit := do
  let s ← get
  let cache ← Action.ofExcept (Cache.new s.volume.cache.device capacity)
  set { s with
    volume := { s.volume with cache }
    registry := {}
    handles := #[]
    retired := s.retired + s.handles.size
    earlierWakes := s.earlierWakes + s.lookahead.wakes }

def perform : Command → Action (Session δ α) Reply
  | .allocate count => return .sector (← onVolume (Volume.allocate count))
  | .release s count => do
    onVolume (Volume.release s count)
    return .nothing
  | .isAllocated s => do
    match Allocator.spaceMap? (← get).volume.allocator with
    | some m => return .flag (m.isAllocated s)
    | none => throw .noSpaceMap
  | .create home length kind =>
    return .created (← onFiles (Record.create home length kind))
  | .openAt home => do
    giveHandle (← onFiles (Registry.openAt home))
  | .reopen handle => do
    giveHandle (← onFiles (Registry.reopen (← inodeOf handle)))
  | .close handle => do
    onFiles (Registry.close (← inodeOf handle))
    return .closed (← inode handle).2.openers
  | .sync | .drain => do
    onCache Cache.drain
    return .nothing
  | .probe s => return .probed (← onCache (Cache.onDevice (Kind.probe s)))
  | .remove handle => do
    onFiles (Registry.remove (← inodeOf handle))
    return .nothing
  | .forbid handle => do
    onFiles (Registry.forbid (← inodeOf handle))
    return .nothing
  | .permit handle => do
    onFiles (Registry.permit (← inodeOf handle))
    return .nothing
  | .inspect handle => do
    let (_, i) ← inode handle
    return .inode i (← Action.ofExcept i.record.kind)
  | .locate handle offset count forWrite => do
    let s ← onFiles (Registry.locate (← inodeOf handle) offset count forWrite)
    return .located s (← inode handle).2.record.size
  | .read handle offset count => do
    let id ← inodeOf handle
    checkBuffer count
    return .bytes (← onFiles (Registry.read id offset count))
  | .write handle offset data => do
    let count ← onFiles (Registry.write (← inodeOf handle) offset data)
    return .written count (← inode handle).2.record.size
  | .cacheRead s size => do
    checkBuffer size
    if size ≠ blockSize then throw .partialSector
    return .block (← onCache (Cache.read s))
  | .cacheWrite s data => do
    match Block.ofList? data with
    | some b => onCache (Cache.write s b)
    | none => throw .partialSector
    return .nothing
  | .flush s => do
    onCache (Cache.flush s)
    return .nothing
  | .prefetch s => do
    onCache (Cache.prefetch s)
    return .nothing
  | .slotOf s => return .slot ((← get).volume.cache.slotOf? s)
  | .occupancy => do
    let cache := (← get).volume.cache
    return .occupied cache.capacity cache.deviceOccupancy
  | .expect s => do
    setLookahead ((← get).lookahead.expect s)
    return .nothing
  | .takeTarget => do
    let (target, l) := (← get).lookahead.take
    setLookahead l
    return .sector target
  | .follow => return .flag (← onCache Cache.followOwn)
  | .listen on => do
    setLookahead { (← get).lookahead with listening := on }
    return .nothing
  | .wakes => do
    let s ← get
    return .number (s.earlierWakes + s.lookahead.wakes)
  | .followApart s => do
    let (target, l) := (({} : Lookahead).expect s).take
    let first ← onCache (Cache.follow target)
    let second ← onCache (Cache.follow l.take.1)
    return .flags [first, second]
  | .readWithAgent sectors => return .blocks (← onCache (Cache.readWithAgent sectors))
  | .flushWithAgent milliseconds => do
    if milliseconds < 1000 then onCache Cache.drainWithAgent
    return .nothing
  | .blockCount => return .number (Device.blockCount (← get).volume.cache.device)
  | .peek s => return .block (← onDisk (Device.readBlock s))
  | .poke s data => do
    onDisk (Device.writeBlock s data)
    return .nothing
  | .remount capacity => do
    onCache Cache.drain
    replaceCache capacity
    return .nothing
  | .crash capacity => do
    replaceCache capacity
    return .nothing

def clearJournals : Action (Session δ α) Unit :=
  onVolume (modify fun v => { v with
    cache := { v.cache with device := { v.cache.device with journal := [] } }
    allocator := { v.allocator with calls := [] } })

def step (command : Command) : Action (Session δ α) Report := do
  clearJournals
  let reply ← perform command
  let s ← get
  return {
    reply
    openInodes := s.registry.openCount
    free := (Allocator.spaceMap? s.volume.allocator).map SpaceMap.free
    transfers := s.volume.cache.device.journal.reverse
    calls := s.volume.allocator.calls.reverse }

end Session

end InodeVolume
