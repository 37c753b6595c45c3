import InodeVolume.Layout.PointerTable
import InodeVolume.Program

/-!
# Reading files

How the record of a file leads to its data sectors, and reading bytes through
it. Nothing here changes the record. A table is read anew for each look into it.
-/

namespace InodeVolume

def PointerTable.load (s : Sector) : Program PointerTable := do
  let t := PointerTable.decode (← Program.read s)
  Program.require t.isTagged (.badTable s t.tag)
  return t

namespace Record

/-- The sector that holds data sector `i` of the file, if there is one. -/
def dataSector (r : Record) (i : Nat) : Program (Option Sector) :=
  match Position.ofIndex? i with
  | none => return none
  | some (.direct slot) => return Sector.ofPointer (r.direct.get slot)
  | some (.tabled table entry) =>
    match Sector.ofPointer (r.tables.get table) with
    | none => return none
    | some s => return Sector.ofPointer ((← PointerTable.load s).entries.get entry)

def sectorAt (r : Record) (offset : Nat) : Program (Option Sector) :=
  if r.size ≤ offset then return none else r.dataSector (offset / blockSize)

/-- Up to `count` bytes from an offset, fewer where the file ends or has a hole. -/
def read (r : Record) (offset count : Nat) : Program (List UInt8) := do
  if count = 0 then return []
  match ← r.sectorAt offset with
  | none => return []
  | some s =>
    let start := offset % blockSize
    let chunk := min count (min (r.size - offset) (blockSize - start))
    if _h : chunk = 0 then
      return []
    else
      let bytes := (← Program.read s).slice start chunk
      return bytes ++ (← r.read (offset + chunk) (count - chunk))
termination_by count
decreasing_by omega

def tableSectors (p : UInt32) : Program (List Sector) :=
  match Sector.ofPointer p with
  | none => return []
  | some s => return (← PointerTable.load s).sectors ++ [s]

/-- All sectors of the file whose record is in sector `home`: that one, the data
sectors pointed at directly, then table by table. -/
def sectors (r : Record) (home : Sector) : Program (List Sector) := do
  let tabled ← r.tables.toList.mapM tableSectors
  return home :: r.direct.toList.filterMap Sector.ofPointer ++ tabled.flatten

end Record

end InodeVolume
