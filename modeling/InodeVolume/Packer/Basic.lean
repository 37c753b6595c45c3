import InodeVolume.Cache.Agent
import InodeVolume.Disk.ImageDisk
import InodeVolume.File.Probe
import InodeVolume.File.Registry
import InodeVolume.Packer.Quoted
import InodeVolume.Volume

/-!
# Packing files into an image

`pack` makes a fresh image and puts files into it, each with a record of its
own; `cat` reads one of them back. Whatever was cached reaches the image, also
when packing ends early. An agent may empty the cache at any point on the way.
-/

namespace InodeVolume

namespace Packer

/-- What the host may say instead of giving a file. -/
inductive HostError where
  | notFound
  | isDirectory
  | notDirectory
  /-- A name or a path is longer than the host allows. -/
  | nameTooLong
  /-- A file would be longer than the host allows. -/
  | fileTooLarge
deriving DecidableEq, Repr

inductive Failure where
  /-- The command line makes no sense. -/
  | usage
  | host (e : HostError)
  | badReserve
  /-- The length of the image is out of range. -/
  | tooLong
  | noSectorForInode
  | create (e : CreateError)
  | probe (e : ProbeError)
  | fault (f : Fault)

def Failure.message : Failure → Option String
  | usage | host _ => none
  | badReserve => some "reserved sectors must be within 1..=size"
  | tooLong => some "out of range integral type conversion attempted"
  | noSectorForInode => some "no free sector for inode"
  | create e => some e.message
  | probe e => some e.message
  | fault f => f.message

def Failure.exitCode : Failure → Nat
  | usage => 2
  | fault _ => 101
  | _ => 1

inductive Source where
  | file (content : SparseFile)
  /-- The image that is being made. -/
  | image

/-- Stores a file under a record of its own; the sector of the record, and how many
bytes there was room for. -/
def store (data : List UInt8) : Filing (Except Failure (Sector × Nat)) := do
  match ← Program.allocate with
  | none => return .error .noSectorForInode
  | some home =>
    match ← Record.create home 0 .file with
    | .error e => return .error (.create e)
    | .ok () =>
      let id ← Registry.openAt home
      let count ← Registry.write id 0 data
      Registry.close id
      return .ok (home, count)

/-- Stores a file of the host, read as far as a record can describe it. Nothing after that would
be looked at. -/
def storeFile (f : SparseFile) : Filing (Except Failure (Sector × Nat)) :=
  store (f.take Layout.maxLength)

structure Packing where
  volume : Volume ImageDisk SpaceMap
  /-- The lines printed, newest first. -/
  lines : List String
  /-- Whether the agent empties the cache before each coming file and request, and before the end. -/
  flushes : List Bool

namespace Packing

variable {β : Type}

def onVolume (act : Action (Volume ImageDisk SpaceMap) β) : Action Packing β :=
  .onPart Packing.volume (fun volume p => { p with volume }) act

/-- Lets the agent empty the cache if its time has come. An agent that ends at a fault is
not heard of again. -/
def tend : Action Packing Unit := do
  match (← get).flushes with
  | [] => return
  | due :: rest =>
    modify fun p => { p with flushes := rest }
    if due then
      let alive ← onVolume (Volume.onCache (Cache.byAgent Cache.drain))
      if !alive then modify fun p => { p with flushes := [] }

def answer (r : Request) : Action Packing r.Answer := do
  tend
  onVolume (Volume.answer r)

def say (line : String) : Action Packing Unit :=
  modify fun p => { p with lines := line :: p.lines }

def content (source : Source) : Action Packing SparseFile := do
  match source with
  | .file f => return f
  | .image => return (← get).volume.cache.device.file

def addAll : List (String × Except HostError Source) → Action Packing (Option Failure)
  | [] => return none
  | (_, .error e) :: _ => return some (.host e)
  | (name, .ok source) :: rest => do
    tend
    let f ← content source
    match (← ((storeFile f).run {}).run answer).1 with
    | .error e => return some e
    | .ok (home, count) =>
      say s!"file: {Quoted.encode name} inode={home} bytes={count}"
      addAll rest

def flush : Action Packing Unit := onVolume (Volume.onCache Cache.drain)

def finish (sources : List (String × Except HostError Source)) :
    Action Packing (Option Failure) := do
  let failure ← addAll sources
  tend
  match failure with
  | some e => return some e
  | none =>
    flush
    say s!"free sectors: {(← get).volume.allocator.free}"
    return none

end Packing

structure Packed where
  lines : List String
  /-- The image, unless it was not touched. -/
  image : Option SparseFile
  failure : Option Failure

def mount (disk : ImageDisk) (total reserved : Nat) : Except Fault (Volume ImageDisk SpaceMap) := do
  let cache ← Cache.new disk Cache.defaultCapacity
  let allocator ← SpaceMap.new total reserved
  return ⟨cache, allocator⟩

def blank (size : Nat) : Except Failure ImageDisk :=
  if UInt64.size ≤ size * blockSize then .error (.fault .overflow)
  else if sizeLimit ≤ size * blockSize then .error .tooLong
  else if SparseFile.maxLength < size * blockSize then .error (.host .fileTooLarge)
  else .ok (ImageDisk.ofFile (.zeros (size * blockSize)))

def refuses (size reserved : Nat) : Bool := reserved = 0 || size < reserved

/-- Packs files into a fresh image; `target` says whether the host lets it be made, and
`flushes` when the agent empties the cache. -/
def pack (name : String) (target : Except HostError Unit) (size reserved : Nat)
    (sources : List (String × Except HostError Source)) (flushes : List Bool) : Packed :=
  if refuses size reserved then
    ⟨[], none, some .badReserve⟩
  else
    let first := s!"image={Quoted.encode name} sectors={size}"
    match target with
    | .error e => ⟨[first], none, some (.host e)⟩
    | .ok () =>
      match (do mount (← blank size) size reserved |>.mapError .fault) with
      | .error e => ⟨[first], some (.zeros 0), some e⟩
      | .ok volume =>
        match Packing.finish sources ⟨volume, [first], flushes⟩ with
        | .ok failure p => ⟨p.lines.reverse, some p.volume.unmount.file, failure⟩
        | .error f p => ⟨p.lines.reverse, some p.volume.unmount.file, some (.fault f)⟩

/-- The content of the inode in sector `home`, up to its first hole. -/
def contentOf (home : Sector) : Filing (List UInt8) := do
  let id ← Registry.openAt home
  let size := (← Registry.inode id).record.size
  Program.require (size < sizeLimit) .capacityOverflow
  let data ← Registry.read id 0 size
  Registry.close id
  return data

/-- Reads a file of an image, and says what becomes of the image. The kind is checked
first, so that a sector which holds no inode is an error and not a fault. -/
def cat (image : ImageDisk) (home : Sector) : Except Failure (List UInt8) × SparseFile :=
  match Kind.probe home image with
  | .error f disk => (.error (.fault f), disk.file)
  | .ok (.error e) disk => (.error (.probe e), disk.file)
  | .ok (.ok _) disk =>
    match mount disk disk.blockCount disk.blockCount with
    | .error f => (.error (.fault f), disk.file)
    | .ok volume =>
      match Volume.perform ((contentOf home).run {}) volume with
      | .ok (data, _) volume => (.ok data, volume.unmount.file)
      | .error f volume => (.error (.fault f), volume.unmount.file)

end Packer

end InodeVolume
