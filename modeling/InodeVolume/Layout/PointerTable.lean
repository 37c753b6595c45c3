import InodeVolume.Layout.Record

/-!
# Pointer tables

A pointer table fills one block: the tag of files, then the pointers of 127
data sectors.
-/

namespace InodeVolume

structure PointerTable where
  tag : UInt32
  entries : Vector UInt32 127
deriving DecidableEq

namespace PointerTable

def empty : PointerTable := ⟨Kind.file.tag, Vector.replicate 127 0⟩

def isTagged (t : PointerTable) : Bool := t.tag == Kind.file.tag

def withEntry (t : PointerTable) (i : Fin 127) (p : UInt32) : PointerTable :=
  { t with entries := t.entries.set i p i.isLt }

def sectors (t : PointerTable) : List Sector :=
  t.entries.toList.filterMap Sector.ofPointer

def decode (b : Block) : PointerTable :=
  let ws := b.words
  { tag := ws.get ⟨0, Nat.zero_lt_succ 127⟩
    entries := Vector.ofFn fun i => ws.get i.succ }

def words (t : PointerTable) : Words :=
  Vector.ofFn fun i =>
    if h : i.val = 0 then t.tag else t.entries.get ⟨i.val - 1, by omega⟩

def encodeInto (t : PointerTable) (b : Block) : Block :=
  (b.putWord 0 t.tag).putWords 1 t.entries.toList

def encode (t : PointerTable) : Block := t.encodeInto .zero

theorem words_zero (t : PointerTable) : t.words.get ⟨0, Nat.zero_lt_succ 127⟩ = t.tag :=
  Vector.getElem_ofFn _

theorem words_entries (t : PointerTable) {i : Nat} (hi : i < 127) :
    t.words[i + 1] = t.entries[i] := by
  simp [words]
  rfl

/-- Tag and entries cover the block, so nothing of what it held is left. -/
theorem encodeInto_eq (t : PointerTable) (b : Block) : t.encodeInto b = .ofWords t.words := by
  have h : (t.encodeInto b).words = t.words := by
    apply Vector.ext
    intro i hi
    simp only [encodeInto, Block.words_putWords _ _ _ hi, Block.words_putWord _ _ _ hi,
      Vector.length_toList, Vector.getElem_toList, words, Vector.getElem_ofFn]
    cases i with
    | zero => rfl
    | succ i =>
      rw [dif_pos (by omega), dif_neg (by omega)]
      rfl
  rw [← h, Block.ofWords_words]

theorem encode_eq (t : PointerTable) : t.encode = .ofWords t.words := t.encodeInto_eq .zero

@[simp] theorem decode_encode (t : PointerTable) : decode t.encode = t := by
  have he : (Vector.ofFn fun i : Fin 127 => t.words.get i.succ) = t.entries := by
    apply Vector.ext
    intro i hi
    rw [Vector.getElem_ofFn]
    exact t.words_entries hi
  simp only [decode, encode_eq, Block.words_ofWords, he, words_zero]

@[simp] theorem encode_decode (b : Block) : (decode b).encode = b := by
  have h : (decode b).words = b.words := by
    apply Vector.ext
    intro i hi
    cases i with
    | zero => exact words_zero _
    | succ i =>
      rw [words_entries _ (by omega)]
      simp only [decode, Vector.getElem_ofFn]
      rfl
  rw [encode_eq, h, Block.ofWords_words]

end PointerTable

end InodeVolume
