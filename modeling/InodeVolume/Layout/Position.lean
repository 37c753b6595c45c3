import InodeVolume.Block

/-!
# Positions of data sectors

A record points at its first data sectors directly and at the others through
pointer tables. `Position.ofIndex?` places a data sector; the counts say how
many sectors a file of a given length occupies.
-/

namespace InodeVolume

namespace Layout

def directCount : Nat := 123

def tableCount : Nat := 3

def tableEntries : Nat := 127

def tabledSectors : Nat := tableCount * tableEntries

def maxSectors : Nat := directCount + tabledSectors

def maxLength : Nat := maxSectors * blockSize

def dataSectors (length : Nat) : Nat := (length + (blockSize - 1)) / blockSize

def tablesNeeded (sectors : Nat) : Nat :=
  (sectors - directCount + (tableEntries - 1)) / tableEntries

/-- Data sectors and pointer tables together, for `length` bytes. -/
def footprint (length : Nat) : Nat :=
  dataSectors length + tablesNeeded (dataSectors length)

end Layout

/-- Where a record keeps the pointer of a data sector. -/
inductive Position where
  | direct (slot : Fin 123)
  | tabled (table : Fin 3) (entry : Fin 127)
deriving DecidableEq, Repr

namespace Position

def ofIndex? (i : Nat) : Option Position :=
  if h : i < 123 then
    some (.direct ⟨i, h⟩)
  else if h' : i < 504 then
    some (.tabled ⟨(i - 123) / 127, by omega⟩ ⟨(i - 123) % 127, Nat.mod_lt _ (by decide)⟩)
  else
    none

def index : Position → Nat
  | direct i => i
  | tabled b e => 123 + b * 127 + e

theorem index_ofIndex? {i : Nat} {p : Position} (h : ofIndex? i = some p) : p.index = i := by
  unfold ofIndex? at h
  split at h
  · simp only [Option.some.injEq] at h; subst h; rfl
  · split at h
    · simp only [Option.some.injEq] at h; subst h; simp only [index]; omega
    · simp at h

theorem ofIndex?_index (p : Position) : ofIndex? p.index = some p := by
  cases p with
  | direct i => simp [ofIndex?, index]
  | tabled b e =>
    have := b.isLt
    have := e.isLt
    have hi : index (tabled b e) = 123 + b.val * 127 + e.val := rfl
    rw [hi, ofIndex?, dif_neg (by omega), dif_pos (by omega)]
    simp only [Option.some.injEq, tabled.injEq]
    constructor <;> apply Fin.ext <;> simp only <;> omega

theorem ofIndex?_eq_none_iff {i : Nat} : ofIndex? i = none ↔ Layout.maxSectors ≤ i := by
  unfold ofIndex? Layout.maxSectors Layout.directCount Layout.tabledSectors Layout.tableCount
    Layout.tableEntries
  split
  · simp; omega
  · split <;> simp <;> omega

end Position

end InodeVolume
