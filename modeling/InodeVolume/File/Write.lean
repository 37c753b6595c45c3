import InodeVolume.File.Draft

/-!
# Writing files

A write past the end lets the file grow, sector by sector. It stops short where
no sector is left or the file has its greatest length.
-/

namespace InodeVolume

namespace Record

def store (r : Record) (home : Sector) : Program Unit := Program.write home r.encode

/-- Grows the file until it reaches into the sector of `offset`, by as many of the
`count` bytes as lie in that sector. `none` when that is not possible, or when no
byte would come to lie there. -/
def grow (r : Record) (home : Sector) (offset count : Nat) : Program (Option Record) := do
  let i := offset / blockSize
  let length := offset + min count (blockSize - offset % blockSize)
  if Layout.maxSectors ≤ i || Layout.dataSectors length ≤ i then return none
  match ← Draft.settle (Draft.backfill (i + 1)) r length with
  | none => return none
  | some r =>
    r.store home
    return some r

def sectorForWrite (r : Record) (home : Sector) (offset count : Nat) :
    Program (Option Sector × Record) := do
  if offset < r.size then
    return (← r.dataSector (offset / blockSize), r)
  else
    match ← r.grow home offset count with
    | none => return (none, r)
    | some r => return (← r.dataSector (offset / blockSize), r)

def storeBytes (s : Sector) (start : Nat) (bytes : List UInt8) : Program Unit := do
  match Block.ofList? bytes with
  | some data => Program.write s data
  | none =>
    let data ← Program.read s
    Program.write s (data.overwrite start bytes)

/-- Writes bytes at an offset; the number of bytes written, and the record after it. -/
def write (r : Record) (home : Sector) (offset : Nat) (data : List UInt8) :
    Program (Nat × Record) := do
  if data = [] then return (0, r)
  let start := offset % blockSize
  let room := blockSize - start
  let (target, r) ← r.sectorForWrite home offset (data.take room).length
  match target with
  | none => return (0, r)
  | some s =>
    let piece := data.take (min (r.size - offset) room)
    if _h : piece.length = 0 then
      return (0, r)
    else
      storeBytes s start piece
      let (count, r) ← r.write home (offset + piece.length) (data.drop piece.length)
      return (piece.length + count, r)
termination_by data.length
decreasing_by
  simp only [piece, List.length_take, List.length_drop] at *
  omega

end Record

end InodeVolume
