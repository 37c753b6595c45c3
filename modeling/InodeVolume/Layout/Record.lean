import InodeVolume.Layout.Position
import InodeVolume.Sector

/-!
# Records

The record of a file fills one block: length, tag, direct pointers and the
pointers of its tables, all little-endian words. Records and blocks correspond
one to one (`decode_encode`, `encode_decode`).
-/

namespace InodeVolume

inductive Kind where
  | file
  | directory
deriving DecidableEq, Repr, Inhabited

namespace Kind

/-- The tag that marks a record of this kind. Pointer tables carry the tag of files. -/
def tag : Kind → UInt32
  | file => 0x494e4f44
  | directory => 0x494d4f34

def ofTag? (t : UInt32) : Option Kind :=
  if t = file.tag then some file else if t = directory.tag then some directory else none

theorem ofTag?_tag (k : Kind) : ofTag? k.tag = some k := by cases k <;> decide

end Kind

/-- A record as it stands on disk; nothing about it is assumed to be sound. -/
structure Record where
  length : Int32
  tag : UInt32
  direct : Vector UInt32 123
  tables : Vector UInt32 3
deriving DecidableEq

namespace Record

def new (kind : Kind) : Record where
  length := 0
  tag := kind.tag
  direct := Vector.replicate 123 0
  tables := Vector.replicate 3 0

/-- The length in bytes. A negative one, which only a damaged record has, is counted
from 2^64 downwards. -/
def size (r : Record) : Nat :=
  match r.length.toInt with
  | .ofNat n => n
  | .negSucc n => UInt64.size - (n + 1)

/-- One past the greatest length that a record can store. -/
def lengthLimit : Nat := 0x80000000

def isEmpty (r : Record) : Bool := r.length == 0

def withSize (r : Record) (n : Nat) : Except Fault Record :=
  if n < lengthLimit then .ok { r with length := Int32.ofNat n } else .error .lengthOverflow

def kind (r : Record) : Except Fault Kind :=
  match Kind.ofTag? r.tag with
  | some k => .ok k
  | none => .error (.badRecordTag r.tag)

def decode (b : Block) : Record :=
  let ws := b.words
  { length := (ws.get ⟨0, by decide⟩).toInt32
    tag := ws.get ⟨1, by decide⟩
    direct := Vector.ofFn fun i => ws.get ⟨2 + i.val, by omega⟩
    tables := Vector.ofFn fun i => ws.get ⟨125 + i.val, by omega⟩ }

def words (r : Record) : Words :=
  Vector.ofFn fun i =>
    if i.val = 0 then r.length.toUInt32
    else if i.val = 1 then r.tag
    else if h : i.val < 125 then r.direct.get ⟨i.val - 2, by omega⟩
    else r.tables.get ⟨i.val - 125, by omega⟩

def encodeInto (r : Record) (b : Block) : Block :=
  (((b.putWord 0 r.length.toUInt32).putWord 1 r.tag).putWords 2 r.direct.toList).putWords 125
    r.tables.toList

def encode (r : Record) : Block := r.encodeInto .zero

theorem words_zero (r : Record) : r.words[0] = r.length.toUInt32 := by
  simp [words]

theorem words_one (r : Record) : r.words[1] = r.tag := by
  simp [words]

theorem words_direct (r : Record) {i : Nat} (hi : i < 123) : r.words[2 + i] = r.direct[i] := by
  have h₀ : ¬ 2 + i = 0 := by omega
  have h₁ : ¬ 2 + i = 1 := by omega
  have h₂ : 2 + i < 125 := by omega
  have hs : 2 + i - 2 = i := by omega
  simp only [words, Vector.getElem_ofFn, h₀, h₁, h₂, hs, if_false, dif_pos]
  rfl

theorem words_tables (r : Record) {i : Nat} (hi : i < 3) : r.words[125 + i] = r.tables[i] := by
  have h₀ : ¬ 125 + i = 0 := by omega
  have h₁ : ¬ 125 + i = 1 := by omega
  have h₂ : ¬ 125 + i < 125 := by omega
  have hs : 125 + i - 125 = i := by omega
  simp only [words, Vector.getElem_ofFn, h₀, h₁, h₂, hs, if_false, dif_neg, not_false_eq_true]
  rfl

theorem encodeInto_eq (r : Record) (b : Block) : r.encodeInto b = .ofWords r.words := by
  have h : (r.encodeInto b).words = r.words := by
    apply Vector.ext
    intro i hi
    simp only [encodeInto, Block.words_putWords _ _ _ hi, Block.words_putWord _ _ _ hi,
      Vector.length_toList, Vector.getElem_toList, words, Vector.getElem_ofFn]
    by_cases h₀ : i = 0
    · subst h₀
      rfl
    by_cases h₁ : i = 1
    · subst h₁
      rfl
    by_cases h₂ : i < 125
    · rw [dif_neg (by omega), dif_pos (by omega), if_neg h₀, if_neg h₁, dif_pos h₂]
      rfl
    · rw [dif_pos (by omega), if_neg h₀, if_neg h₁, dif_neg h₂]
      rfl
  rw [← h, Block.ofWords_words]

theorem encode_eq (r : Record) : r.encode = .ofWords r.words := r.encodeInto_eq .zero

@[simp] theorem decode_encode (r : Record) : decode r.encode = r := by
  have hd : (Vector.ofFn fun i : Fin 123 => r.words.get ⟨2 + i.val, by omega⟩) = r.direct := by
    apply Vector.ext
    intro i hi
    rw [Vector.getElem_ofFn]
    exact r.words_direct hi
  have ht : (Vector.ofFn fun i : Fin 3 => r.words.get ⟨125 + i.val, by omega⟩) = r.tables := by
    apply Vector.ext
    intro i hi
    rw [Vector.getElem_ofFn]
    exact r.words_tables hi
  have hl : (r.words.get ⟨0, by decide⟩).toInt32 = r.length :=
    congrArg UInt32.toInt32 r.words_zero
  have hg : r.words.get ⟨1, by decide⟩ = r.tag := r.words_one
  simp only [decode, encode_eq, Block.words_ofWords, hd, ht, hl, hg]

@[simp] theorem encode_decode (b : Block) : (decode b).encode = b := by
  have h : (decode b).words = b.words := by
    apply Vector.ext
    intro i hi
    by_cases h₀ : i = 0
    · subst h₀
      exact words_zero _
    by_cases h₁ : i = 1
    · subst h₁
      exact words_one _
    by_cases h₂ : i < 125
    · obtain ⟨j, rfl⟩ : ∃ j, i = 2 + j := ⟨i - 2, by omega⟩
      rw [words_direct _ (by omega)]
      simp only [decode, Vector.getElem_ofFn]
      rfl
    · obtain ⟨j, rfl⟩ : ∃ j, i = 125 + j := ⟨i - 125, by omega⟩
      rw [words_tables _ (by omega)]
      simp only [decode, Vector.getElem_ofFn]
      rfl
  rw [encode_eq, h, Block.ofWords_words]

end Record

end InodeVolume
