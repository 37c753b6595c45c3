import InodeVolume.File.Lookup

/-!
# Drafts

Growth is worked out on a draft of the record. Only when every sector it needs
is held do the data sectors get zeroed and the tables written; otherwise all
sectors held go back.
-/

namespace InodeVolume

structure Draft where
  record : Record
  /-- The tables looked at or made so far; the mark says that one has to be written. -/
  tables : Vector (Option (PointerTable × Bool)) 3
  /-- Data sectors held, in order. -/
  newData : List Sector
  /-- All sectors held, in order. -/
  held : List Sector

abbrev Drafting := StateT Draft Program

namespace Draft

def ofRecord (record : Record) : Draft := ⟨record, Vector.replicate 3 none, [], []⟩

def withTable (d : Draft) (b : Fin 3) (t : PointerTable) (changed : Bool) : Draft :=
  { d with tables := d.tables.set b (some (t, changed)) b.isLt }

def withDirect (d : Draft) (slot : Fin 123) (p : UInt32) : Draft :=
  { d with record := { d.record with direct := d.record.direct.set slot p slot.isLt } }

def withNewTable (d : Draft) (b : Fin 3) (p : UInt32) : Draft :=
  { d with record := { d.record with tables := d.record.tables.set b p b.isLt } }.withTable b
    .empty false

def takeSector : Drafting (Option Sector) := do
  match ← Program.allocate with
  | none => return none
  | some s =>
    modify fun d => { d with held := d.held ++ [s] }
    return some s

def setTable (b : Fin 3) (t : PointerTable) (changed : Bool) : Drafting Unit :=
  modify fun d => d.withTable b t changed

/-- The table in slot `b`, read when it is looked at for the first time. -/
def tableAt (b : Fin 3) : Drafting PointerTable := do
  let d ← get
  match d.tables.get b with
  | some (t, _) => return t
  | none =>
    let t ← PointerTable.load (d.record.tables.get b).toNat
    setTable b t false
    return t

def has (i : Nat) : Drafting Bool := do
  let d ← get
  match Position.ofIndex? i with
  | none => return false
  | some (.direct slot) => return d.record.direct.get slot != 0
  | some (.tabled b entry) =>
    if d.record.tables.get b = 0 then return false
    return (← tableAt b).entries.get entry != 0

/-- Makes sure that slot `b` has a table. A new one is written at once, with its tag
and no pointers. -/
def provideTable (b : Fin 3) : Drafting Bool := do
  if (← get).record.tables.get b != 0 then return true
  match ← takeSector with
  | none => return false
  | some s =>
    Program.write s PointerTable.empty.encode
    let p ← Program.ofExcept s.toPointer
    modify fun d => d.withNewTable b p
    return true

def extendDirect (slot : Fin 123) : Drafting Bool := do
  match ← takeSector with
  | none => return false
  | some s =>
    let p ← Program.ofExcept s.toPointer
    modify fun d => { d.withDirect slot p with newData := d.newData ++ [s] }
    return true

def extendTable (b : Fin 3) (entry : Fin 127) : Drafting Bool := do
  match ← takeSector with
  | none => return false
  | some s =>
    let p ← Program.ofExcept s.toPointer
    let t ← tableAt b
    setTable b (t.withEntry entry p) true
    modify fun d => { d with newData := d.newData ++ [s] }
    return true

/-- Gives data sector `i` a sector, and before that a table if it needs one. -/
def extend (i : Nat) : Drafting Bool := do
  match Position.ofIndex? i with
  | none => return false
  | some (.direct slot) => extendDirect slot
  | some (.tabled b entry) =>
    if ← provideTable b then extendTable b entry else return false

/-- Extends downwards below data sector `i` until a sector is met that is there. -/
def backfill : Nat → Drafting Bool
  | 0 => return true
  | i + 1 => do
    if ← has i then return true
    if ← extend i then backfill i else return false

def fill : (count i : Nat) → Drafting Bool
  | 0, _ => return true
  | count + 1, i => do
    if ← extend i then fill count (i + 1) else return false

def writeTable (d : Draft) (b : Fin 3) : Program Unit :=
  match d.tables.get b with
  | some (t, true) => Program.write (d.record.tables.get b).toNat t.encode
  | _ => return ()

def writeTables (d : Draft) : Program Unit := (List.finRange 3).forM d.writeTable

/-- Carries the draft out and gives the record its new length. -/
def carryOut (d : Draft) (length : Nat) : Program Record := do
  d.newData.forM fun s => Program.write s .zero
  d.writeTables
  Program.ofExcept (d.record.withSize length)

def abandon (d : Draft) : Program Unit := d.held.forM Program.release

/-- Carries out the draft that `steps` work out on a record, if they succeed. -/
def settle (steps : Drafting Bool) (record : Record) (length : Nat) : Program (Option Record) := do
  let (done, d) ← steps.run (.ofRecord record)
  if done then
    return some (← d.carryOut length)
  else
    d.abandon
    return none

end Draft

end InodeVolume
