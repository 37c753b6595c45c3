import InodeVolume.Proofs.File.Writing
import InodeVolume.Proofs.Volume.Yields

/-!
# Files in machine arithmetic

The file layer counts in natural numbers, where nothing overflows and a difference stops at zero.
Here it is once more with 64-bit lengths, where each sum, difference and index is checked before it
is used, and with loops that go through a buffer from front to back. All checks hold, for every
record: the checked programs are those that run (`readAt_eq`, `writeAt_eq`, `resolve_read`,
`resolve_write`).
-/

namespace InodeVolume

open Program

theorem Draft.yields_settle (steps : Drafting Bool) (r : Record) (length : Nat) :
    (settle steps r length).Yields fun result => ∀ r', result = some r' → r'.size = length := by
  rw [settle, yields_bind]
  refine yields_of_forall ?_
  rintro ⟨done, d⟩
  cases done with
  | true =>
    simp only [if_true, carryOut, yields_bind]
    refine yields_of_forall fun _ => yields_of_forall fun _ => yields_ofExcept.mpr fun r' sized => ?_
    rintro _ ⟨⟩
    exact Record.size_of_withSize sized
  | false =>
    simp only [Bool.false_eq_true, if_false, yields_bind]
    refine yields_of_forall fun _ => yields_pure.mpr ?_
    rintro _ ⟨⟩

namespace Record

variable (r : Record) (home : Sector) (offset count : Nat)

theorem yields_grow : (r.grow home offset count).Yields fun result =>
    ∀ r', result = some r' → r'.size = Layout.reach offset count := by
  simp only [grow]
  have refused : (pure none : Program (Option Record)).Yields fun result =>
      ∀ r', result = some r' → r'.size = Layout.reach offset count := by
    refine yields_pure.mpr ?_
    rintro _ ⟨⟩
  split
  · exact refused
  rw [yields_bind]
  refine (Draft.yields_settle _ r _).mono fun result sized => ?_
  cases result with
  | none => exact refused
  | some r' =>
    rw [yields_bind]
    exact yields_of_forall fun _ => yields_pure.mpr sized

/-- Where a sector is found for writing, the file reaches to the offset. -/
theorem yields_sectorForWrite :
    (r.sectorForWrite home offset count).Yields fun p => p.1.isSome → offset ≤ p.2.size := by
  rw [sectorForWrite]
  split
  next inside =>
    rw [yields_bind]
    exact yields_of_forall fun _ => yields_pure.mpr fun _ => Nat.le_of_lt inside
  next =>
    rw [yields_bind]
    refine (r.yields_grow home offset count).mono fun result sized => ?_
    cases result with
    | none => exact yields_pure.mpr fun found => by cases found
    | some r' =>
      rw [yields_bind]
      refine yields_of_forall fun _ => yields_pure.mpr fun _ => ?_
      rw [sized r' rfl]
      exact Nat.le_add_right _ _

/-- What is written in one sector only counts as far as that goes. -/
theorem sectorForWrite_min :
    r.sectorForWrite home offset (min (blockSize - offset % blockSize) count) =
      r.sectorForWrite home offset count := by
  have same : min (min (blockSize - offset % blockSize) count) (blockSize - offset % blockSize) =
      min count (blockSize - offset % blockSize) := by omega
  simp only [sectorForWrite, grow, same]

end Record

namespace Checked

section Arithmetic

/-- A sum, which has to be a 64-bit number. -/
def add (a b : Nat) : Program { c : Nat // c = a + b } :=
  if a + b < UInt64.size then return ⟨a + b, rfl⟩ else fault .overflow

/-- A difference, which must not be negative. -/
def sub (a b : Nat) : Program Nat :=
  if b ≤ a then return a - b else fault .overflow

def index (n i : Nat) : Program (Fin n) :=
  if h : i < n then return ⟨i, h⟩ else fault .assertion

def cut (bytes : List UInt8) (start count : Nat) : Program (List UInt8) := do
  let stop ← add start count
  require (stop.val ≤ bytes.length) .assertion
  return (bytes.drop start).take count

def overwrite {n : Nat} (buffer : Vector UInt8 n) (start : Nat) : List UInt8 → Vector UInt8 n
  | [] => buffer
  | x :: rest => overwrite (buffer.setIfInBounds start x) (start + 1) rest

def paste {n : Nat} (buffer : Vector UInt8 n) (start : Nat) (bytes : List UInt8) :
    Program (Vector UInt8 n) := do
  let stop ← add start bytes.length
  require (stop.val ≤ n) .assertion
  return overwrite buffer start bytes

variable {a b : Nat}

theorem add_eq (small : a + b < UInt64.size) : add a b = pure ⟨a + b, rfl⟩ := if_pos small

theorem sub_eq (le : b ≤ a) : sub a b = pure (a - b) := if_pos le

theorem index_eq {n i : Nat} (inside : i < n) : index n i = pure ⟨i, inside⟩ := dif_pos inside

theorem require_eq {p : Prop} [Decidable p] (f : Fault) (holds : p) : require p f = pure () :=
  if_pos holds

theorem cut_eq {bytes : List UInt8} {start count : Nat} (inside : start + count ≤ bytes.length)
    (small : bytes.length < UInt64.size) :
    cut bytes start count = pure ((bytes.drop start).take count) := by
  rw [cut, add_eq (Nat.lt_of_le_of_lt inside small), pure_bind, require_eq _ inside]
  rfl

theorem paste_eq {n : Nat} {buffer : Vector UInt8 n} {start : Nat} {bytes : List UInt8}
    (inside : start + bytes.length ≤ n) (small : n < UInt64.size) :
    paste buffer start bytes = pure (overwrite buffer start bytes) := by
  rw [paste, add_eq (Nat.lt_of_le_of_lt inside small), pure_bind, require_eq _ inside]
  rfl

theorem overwrite_append {n : Nat} (buffer : Vector UInt8 n) (start : Nat)
    (bytes more : List UInt8) :
    overwrite (overwrite buffer start bytes) (start + bytes.length) more =
      overwrite buffer start (bytes ++ more) := by
  induction bytes generalizing buffer start with
  | nil => rfl
  | cons x rest ih =>
    rw [List.cons_append, overwrite, overwrite, ← ih, List.length_cons, Nat.add_right_comm,
      Nat.add_assoc]

theorem overwrite_block (block : Block) (start : Nat) (bytes : List UInt8) :
    overwrite block start bytes = block.overwrite start bytes := by
  induction bytes generalizing block start with
  | nil => rfl
  | cons x rest ih => exact ih _ _

end Arithmetic

section Layout

theorem start_le (offset : Nat) : offset % blockSize ≤ blockSize :=
  Nat.le_of_lt (Nat.mod_lt _ (by decide))

theorem start_add_le {offset count : Nat} (bound : count ≤ blockSize - offset % blockSize) :
    offset % blockSize + count ≤ blockSize := by
  have := start_le offset
  omega

/-- The length in a record as a machine takes it: extended with its sign to 64 bits. -/
def size (r : Record) : Nat := r.length.toInt64.toUInt64.toNat

def dataSectors (length : Nat) : Program Nat := do
  if 0 < length % blockSize then
    return (← add (length / blockSize) 1).val
  else
    return length / blockSize

def position (i : Nat) : Program (Option Position) := do
  if i < Layout.directCount then
    return some (.direct (← index 123 i))
  else if i < Layout.maxSectors then
    let rest ← sub i Layout.directCount
    let table ← index 3 (rest / Layout.tableEntries)
    let entry ← index 127 (rest % Layout.tableEntries)
    return some (.tabled table entry)
  else
    return none

theorem size_eq (r : Record) : size r = r.size := by
  have below : size r < 2 ^ 64 := UInt64.toNat_lt _
  have signed : r.length.toInt64.toInt = r.length.toInt := Int32.toInt_toInt64 _
  have extended : r.length.toInt64.toInt =
      if 2 * size r < 2 ^ 64 then (size r : Int) else size r - 2 ^ 64 :=
    BitVec.toInt_eq_toNat_cond _
  have limit : UInt64.size = 2 ^ 64 := rfl
  rw [signed] at extended
  unfold Record.size
  split
  next n same =>
    rw [same, Int.ofNat_eq_natCast] at extended
    split at extended <;> omega
  next n same =>
    rw [same, Int.negSucc_eq] at extended
    split at extended <;> omega

theorem size_lt (r : Record) : r.size < UInt64.size := by
  rw [← size_eq]
  exact UInt64.toNat_lt _

theorem dataSectors_eq {length : Nat} (small : length < UInt64.size) :
    dataSectors length = pure (Layout.dataSectors length) := by
  have below : length / blockSize + 1 < UInt64.size := by
    simp only [blockSize]
    have : UInt64.size = 2 ^ 64 := rfl
    omega
  unfold dataSectors
  split
  next rest =>
    rw [add_eq below, pure_bind]
    congr 1
    simp only [Layout.dataSectors, blockSize] at rest ⊢
    omega
  next whole =>
    congr 1
    simp only [Layout.dataSectors, blockSize] at whole ⊢
    omega

theorem position_eq (i : Nat) : position i = pure (Position.ofIndex? i) := by
  unfold position Position.ofIndex?
  by_cases near : i < Layout.directCount
  · have near' : i < 123 := near
    rw [if_pos near, dif_pos near', index_eq near']
    rfl
  have far : Layout.directCount ≤ i := Nat.le_of_not_lt near
  have far' : ¬ i < 123 := near
  rw [if_neg near, dif_neg far', sub_eq far]
  by_cases tabled : i < Layout.maxSectors
  · have tabled' : i < 504 := tabled
    have table : (i - Layout.directCount) / Layout.tableEntries < 3 := by
      simp only [Layout.directCount, Layout.tableEntries]
      omega
    have entry : (i - Layout.directCount) % Layout.tableEntries < 127 := Nat.mod_lt _ (by decide)
    rw [if_pos tabled, dif_pos tabled', pure_bind, index_eq table, pure_bind, index_eq entry]
    rfl
  · have beyond : ¬ i < 504 := tabled
    rw [if_neg tabled, dif_neg beyond]

end Layout

section Growth

def has (i : Nat) : Drafting Bool := do
  let d ← get
  match ← position i with
  | none => return false
  | some (.direct slot) => return d.record.direct.get slot != 0
  | some (.tabled b entry) =>
    if d.record.tables.get b = 0 then return false
    return (← Draft.tableAt b).entries.get entry != 0

def extend (i : Nat) : Drafting Bool := do
  match ← position i with
  | none => return false
  | some (.direct slot) => Draft.extendDirect slot
  | some (.tabled b entry) =>
    if ← Draft.provideTable b then Draft.extendTable b entry else return false

def backfill : Nat → Drafting Bool
  | 0 => return true
  | i + 1 => do
    if ← has i then return true
    if ← extend i then backfill i else return false

def grow (r : Record) (home : Sector) (offset count : Nat) : Program (Option Record) := do
  let i := offset / blockSize
  if Layout.maxSectors ≤ i then return none
  let sectorLeft ← sub blockSize (offset % blockSize)
  let length ← add offset (min count sectorLeft)
  if (← dataSectors length) ≤ i then return none
  match ← Draft.settle (backfill (i + 1)) r length with
  | none => return none
  | some r =>
    r.store home
    return some r

theorem has_eq (i : Nat) : has i = Draft.has i := by
  unfold has Draft.has
  simp only [position_eq]
  rfl

theorem extend_eq (i : Nat) : extend i = Draft.extend i := by
  unfold extend Draft.extend
  simp only [position_eq]
  rfl

theorem backfill_eq (i : Nat) : backfill i = Draft.backfill i := by
  induction i with
  | zero => rfl
  | succ i ih => rw [backfill, Draft.backfill, has_eq, extend_eq, ih]

theorem grow_eq (r : Record) (home : Sector) (offset count : Nat) :
    grow r home offset count = r.grow home offset count := by
  have room := start_le offset
  simp only [grow, Record.grow, Bool.or_eq_true, decide_eq_true_eq, backfill_eq]
  by_cases far : Layout.maxSectors ≤ offset / blockSize
  · rw [if_pos far, if_pos (.inl far)]
  have length : offset + min count (blockSize - offset % blockSize) < UInt64.size := by
    simp only [Layout.maxSectors, Layout.directCount, Layout.tabledSectors, Layout.tableCount,
      Layout.tableEntries, blockSize, UInt64.size] at far ⊢
    omega
  rw [if_neg far, sub_eq room, pure_bind, add_eq length, pure_bind, dataSectors_eq length, pure_bind]
  by_cases whole : Layout.dataSectors (offset + min count (blockSize - offset % blockSize)) ≤
      offset / blockSize
  · rw [if_pos whole, if_pos (.inr whole)]
  · rw [if_neg whole]
    exact (if_neg (not_or.mpr ⟨far, whole⟩)).symm

end Growth

section Lookup

variable (r : Record) (home : Sector) (offset : Nat)

def dataSector (i : Nat) : Program (Option Sector) := do
  match ← position i with
  | none => return none
  | some (.direct slot) => return Sector.ofPointer (r.direct.get slot)
  | some (.tabled table entry) =>
    match Sector.ofPointer (r.tables.get table) with
    | none => return none
    | some s => return Sector.ofPointer ((← PointerTable.load s).entries.get entry)

def resolve (count : Nat) (forWrite : Bool) : Program (Option Sector × Record) := do
  if offset < size r then return (← dataSector r (offset / blockSize), r)
  if !forWrite then return (none, r)
  match ← grow r home offset count with
  | none => return (none, r)
  | some r => return (← dataSector r (offset / blockSize), r)

theorem dataSector_eq (i : Nat) : dataSector r i = r.dataSector i := by
  unfold dataSector Record.dataSector
  rw [position_eq]
  rfl

theorem resolve_read (count : Nat) : resolve r home offset count false = (do
    let target ← r.sectorAt offset
    return (target, r)) := by
  rw [resolve, size_eq, Record.sectorAt]
  by_cases inside : offset < r.size
  · rw [if_pos inside, if_neg (Nat.not_le.mpr inside), dataSector_eq]
  · rw [if_neg inside, if_pos (Nat.le_of_not_lt inside)]
    rfl

theorem resolve_write (count : Nat) :
    resolve r home offset count true = r.sectorForWrite home offset count := by
  rw [resolve, size_eq, Record.sectorForWrite]
  by_cases inside : offset < r.size
  · rw [if_pos inside, if_pos inside, dataSector_eq]
  · rw [if_neg inside, if_neg inside, grow_eq]
    simp only [dataSector_eq]
    rfl

end Lookup

section Transfer

variable (r : Record) (home : Sector)

/-- How many bytes are transferred next, of those that remain: no more than the file has, and
none behind the end of the sector. -/
def chunk (offset remaining : Nat) : Program Nat := do
  let fileLeft ← sub (size r) offset
  let sectorLeft ← sub blockSize (offset % blockSize)
  return min (min remaining fileLeft) sectorLeft

def loadPiece (s : Sector) (start count : Nat) : Program (List UInt8) := do
  let data ← Program.read s
  if count = blockSize then return data.toList else cut data.toList start count

/-- Goes on with reading where `done` bytes are in the buffer. -/
def readLoop {n : Nat} (buffer : Vector UInt8 n) (offset done : Nat) :
    Program (Vector UInt8 n × Nat) := do
  if _h : done < n then
    let remaining ← sub n done
    match (← resolve r home offset remaining false).1 with
    | none => return (buffer, done)
    | some s =>
      let count ← chunk r offset remaining
      if _h' : count = 0 then return (buffer, done)
      let bytes ← loadPiece s (offset % blockSize) count
      let buffer ← paste buffer done bytes
      let offset' ← add offset count
      let done' ← add done count
      readLoop buffer offset' done'
  else
    return (buffer, done)
termination_by n - done

def storePiece (s : Sector) (start sectorLeft : Nat) (piece : List UInt8) : Program Unit := do
  if piece.length = blockSize then
    match Block.ofList? piece with
    | some data => Program.write s data
    | none => fault .partialSector
  else
    let bounce ← if 0 < start ∨ piece.length < sectorLeft then Program.read s else pure .zero
    Program.write s (← paste bounce start piece)

def writeLoop (data : List UInt8) (r : Record) (offset done : Nat) :
    Program (Nat × Record) := do
  if _h : done < data.length then
    let remaining ← sub data.length done
    let (target, r) ← resolve r home offset remaining true
    match target with
    | none => return (done, r)
    | some s =>
      let count ← chunk r offset remaining
      if _h' : count = 0 then return (done, r)
      let piece ← cut data done count
      storePiece s (offset % blockSize) (← sub blockSize (offset % blockSize)) piece
      let offset' ← add offset count
      let done' ← add done count
      writeLoop data r offset' done'
  else
    return (done, r)
termination_by data.length - done

theorem chunk_eq {offset : Nat} (inside : offset ≤ r.size) (remaining : Nat) :
    chunk r offset remaining =
      pure (min remaining (min (r.size - offset) (blockSize - offset % blockSize))) := by
  have room := start_le offset
  rw [chunk, size_eq, sub_eq inside, pure_bind, sub_eq room, pure_bind, Nat.min_assoc]

theorem loadPiece_eq (s : Sector) {start count : Nat} (inside : start + count ≤ blockSize) :
    loadPiece s start count = (do return (← Program.read s).slice start count) := by
  refine bind_congr fun data => ?_
  have whole : data.toList.length = blockSize := data.length_toList
  split
  next all =>
    have first : start = 0 := by omega
    rw [first, all, ← whole, Block.slice, List.drop_zero, List.take_length]
  next =>
    rw [cut_eq (whole ▸ inside) (whole ▸ by decide)]
    rfl

theorem readLoop_eq {n : Nat} (small : n < UInt64.size) (buffer : Vector UInt8 n)
    (offset done : Nat) : readLoop r home buffer offset done = (do
      let bytes ← r.read offset (n - done)
      return (overwrite buffer done bytes, done + bytes.length)) := by
  induction same : n - done using Nat.strongRecOn generalizing buffer offset done with
  | ind left ih =>
    rw [readLoop, Record.read]
    by_cases finished : left = 0
    · rw [dif_neg (by omega), if_pos finished]
      rfl
    rw [dif_pos (by omega), if_neg finished, sub_eq (by omega), same, pure_bind, resolve_read]
    simp only [bind_assoc, pure_bind]
    by_cases past : r.size ≤ offset
    · rw [Record.sectorAt, if_pos past]
      rfl
    have inside : offset ≤ r.size := Nat.le_of_not_le past
    refine bind_congr fun target => ?_
    cases target with
    | none => rfl
    | some s =>
      dsimp only
      obtain ⟨count, count_eq⟩ : ∃ count, count =
          min left (min (r.size - offset) (blockSize - offset % blockSize)) := ⟨_, rfl⟩
      have counted : chunk r offset left = pure count := by rw [chunk_eq r inside, count_eq]
      rw [counted, pure_bind]
      simp only [← count_eq]
      by_cases nothing : count = 0
      · rw [dif_pos nothing, dif_pos nothing]
        rfl
      have bound : count ≤ blockSize - offset % blockSize := by omega
      have room := start_add_le bound
      rw [dif_neg nothing, dif_neg nothing, loadPiece_eq s room]
      simp only [bind_assoc, pure_bind]
      refine bind_congr fun data => ?_
      have length := data.length_slice room
      have size := size_lt r
      have further : n - (done + count) = left - count := by omega
      rw [paste_eq (by omega) small, pure_bind, add_eq (by omega), pure_bind, add_eq (by omega),
        pure_bind, ih (left - count) (by omega) _ _ _ further]
      refine bind_congr fun rest => ?_
      rw [← overwrite_append, List.length_append, length, Nat.add_assoc]

theorem storePiece_eq (s : Sector) {start : Nat} {piece : List UInt8}
    (inside : start + piece.length ≤ blockSize) :
    storePiece s start (blockSize - start) piece = Record.storeBytes s start piece := by
  unfold storePiece Record.storeBytes
  split
  next all =>
    have whole : piece.length = 512 := all
    rw [Block.ofList?, dif_pos whole]
  next part =>
    have partly : ¬ piece.length = 512 := part
    have some_kept : 0 < start ∨ piece.length < blockSize - start := by omega
    rw [Block.ofList?, dif_neg partly, if_pos some_kept]
    refine bind_congr fun data => ?_
    have inside' : start + piece.length ≤ 512 := inside
    dsimp only
    rw [paste_eq inside' (by decide), pure_bind, overwrite_block]

theorem writeLoop_eq {data : List UInt8} (small : data.length < UInt64.size) (offset done : Nat) :
    writeLoop home data r offset done = (do
      let p ← r.write home offset (data.drop done)
      return (done + p.1, p.2)) := by
  induction same : data.length - done using Nat.strongRecOn generalizing r offset done with
  | ind left ih =>
    have length : (data.drop done).length = left := by rw [List.length_drop, same]
    rw [writeLoop]
    by_cases finished : left = 0
    · rw [dif_neg (by omega), List.eq_nil_of_length_eq_zero (length.trans finished),
        Record.write_nil]
      rfl
    have nonempty : data.drop done ≠ [] := by
      intro nothing
      rw [nothing] at length
      exact finished length.symm
    rw [dif_pos (by omega), sub_eq (by omega), same, pure_bind, resolve_write, Record.write,
      if_neg nonempty]
    simp only [List.length_take, length, Record.sectorForWrite_min, bind_assoc]
    refine (r.yields_sectorForWrite home offset left).bind_congr ?_
    rintro ⟨target, r'⟩ reached
    cases target with
    | none => rfl
    | some s =>
      have inside : offset ≤ r'.size := reached rfl
      dsimp only
      obtain ⟨count, count_eq⟩ : ∃ count, count =
          min (min (r'.size - offset) (blockSize - offset % blockSize)) left := ⟨_, rfl⟩
      have counted : chunk r' offset left = pure count := by
        rw [chunk_eq r' inside, count_eq, Nat.min_comm]
      -- One side cuts the piece by what is left of the data, the other one by what there is.
      have piece : (data.drop done).take (min (r'.size - offset) (blockSize - offset % blockSize)) =
          (data.drop done).take count := by
        rw [List.take_eq_take_iff, length]
        omega
      have pieceLength : ((data.drop done).take count).length = count := by
        rw [List.length_take, length]
        omega
      simp only [counted, pure_bind, piece, ← count_eq]
      by_cases nothing : count = 0
      · rw [dif_pos nothing, dif_pos nothing]
        rfl
      have bound : count ≤ blockSize - offset % blockSize := by omega
      have room := start_add_le bound
      have size := size_lt r'
      have further : data.length - (done + count) = left - count := by omega
      rw [dif_neg nothing, dif_neg nothing, cut_eq (by omega) small, pure_bind,
        sub_eq (start_le offset), pure_bind, storePiece_eq s (pieceLength.symm ▸ room), bind_assoc]
      refine bind_congr fun _ => ?_
      rw [add_eq (by omega), pure_bind, add_eq (by omega), pure_bind,
        ih (left - count) (by omega) r' _ _ further]
      simp only [List.drop_drop, bind_assoc, pure_bind, Nat.add_assoc]

/-- Fills a buffer from an offset on, as far as the file goes, and tells how far. -/
def readAt {n : Nat} (offset : Nat) (buffer : Vector UInt8 n) : Program (Vector UInt8 n × Nat) :=
  readLoop r home buffer offset 0

theorem readAt_eq {n : Nat} (small : n < UInt64.size) (offset : Nat) (buffer : Vector UInt8 n) :
    readAt r home offset buffer = (do
      let bytes ← r.read offset n
      return (overwrite buffer 0 bytes, bytes.length)) := by
  rw [readAt, readLoop_eq r home small]
  simp only [Nat.sub_zero, Nat.zero_add]

def writeAt (offset : Nat) (data : List UInt8) : Program (Nat × Record) :=
  writeLoop home data r offset 0

theorem writeAt_eq {data : List UInt8} (small : data.length < UInt64.size) (offset : Nat) :
    writeAt r home offset data = r.write home offset data := by
  rw [writeAt, writeLoop_eq r home small]
  simp only [List.drop_zero, Nat.zero_add]
  exact bind_pure _

end Transfer

end Checked

end InodeVolume
