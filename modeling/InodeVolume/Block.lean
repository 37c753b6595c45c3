/-!
# Blocks

A block is the unit of transfer: 512 bytes, or 128 little-endian words. Either
view determines the other (`words_ofWords`, `ofWords_words`).
-/

namespace InodeVolume

/-- Bytes in a block, a cached sector, a record and a pointer table. -/
def blockSize : Nat := 512

abbrev Block := Vector UInt8 512

abbrev Words := Vector UInt32 128

namespace Block

def zero : Block := Vector.replicate 512 0

def ofList? (bytes : List UInt8) : Option Block :=
  if h : bytes.length = 512 then some ⟨bytes.toArray, by simp [h]⟩ else none

def slice (b : Block) (start count : Nat) : List UInt8 :=
  (b.toList.drop start).take count

/-- Replaces the bytes from `start`; what would not fit is dropped. -/
def overwrite (b : Block) (start : Nat) : List UInt8 → Block
  | [] => b
  | x :: rest => overwrite (b.setIfInBounds start x) (start + 1) rest

/-- A word from its four bytes, least significant first. -/
def word (b₀ b₁ b₂ b₃ : UInt8) : UInt32 :=
  UInt32.ofNat (b₀.toNat + 0x100 * b₁.toNat + 0x10000 * b₂.toNat + 0x1000000 * b₃.toNat)

def wordByte (w : UInt32) (k : Nat) : UInt8 := UInt8.ofNat (w.toNat >>> (8 * k))

def words (b : Block) : Words :=
  Vector.ofFn fun i =>
    word (b.get ⟨4 * i.val, by omega⟩) (b.get ⟨4 * i.val + 1, by omega⟩)
      (b.get ⟨4 * i.val + 2, by omega⟩) (b.get ⟨4 * i.val + 3, by omega⟩)

def ofWords (ws : Words) : Block :=
  Vector.ofFn fun i => wordByte (ws.get ⟨i.val / 4, by omega⟩) (i.val % 4)

def putWord (b : Block) (i : Nat) (w : UInt32) : Block :=
  b.overwrite (4 * i) [wordByte w 0, wordByte w 1, wordByte w 2, wordByte w 3]

def putWords (b : Block) (i : Nat) : List UInt32 → Block
  | [] => b
  | w :: rest => putWords (b.putWord i w) (i + 1) rest

theorem word_wordByte (w : UInt32) :
    word (wordByte w 0) (wordByte w 1) (wordByte w 2) (wordByte w 3) = w := by
  have hw : w.toNat < 4294967296 := w.toNat_lt
  apply UInt32.toNat.inj
  simp only [word, wordByte, UInt32.toNat_ofNat', UInt8.toNat_ofNat', Nat.shiftRight_eq_div_pow]
  omega

theorem wordByte_word (b₀ b₁ b₂ b₃ : UInt8) :
    wordByte (word b₀ b₁ b₂ b₃) 0 = b₀ ∧ wordByte (word b₀ b₁ b₂ b₃) 1 = b₁ ∧
      wordByte (word b₀ b₁ b₂ b₃) 2 = b₂ ∧ wordByte (word b₀ b₁ b₂ b₃) 3 = b₃ := by
  have h₀ : b₀.toNat < 256 := b₀.toNat_lt
  have h₁ : b₁.toNat < 256 := b₁.toNat_lt
  have h₂ : b₂.toNat < 256 := b₂.toNat_lt
  have h₃ : b₃.toNat < 256 := b₃.toNat_lt
  refine ⟨?_, ?_, ?_, ?_⟩ <;> apply UInt8.toNat.inj <;>
    simp only [word, wordByte, UInt32.toNat_ofNat', UInt8.toNat_ofNat',
      Nat.shiftRight_eq_div_pow] <;> omega

theorem getElem_words (b : Block) {i : Nat} (hi : i < 128) :
    b.words[i] = word b[4 * i] b[4 * i + 1] b[4 * i + 2] b[4 * i + 3] := by
  simp only [words, Vector.getElem_ofFn]
  rfl

theorem getElem_ofWords (ws : Words) {i : Nat} (hi : i < 512) :
    (ofWords ws)[i] = wordByte ws[i / 4] (i % 4) := by
  simp only [ofWords, Vector.getElem_ofFn]
  rfl

theorem getElem_putWord (b : Block) (i : Nat) (w : UInt32) {j : Nat} (hj : j < 512) :
    (b.putWord i w)[j] = if j / 4 = i then wordByte w (j % 4) else b[j] := by
  simp only [putWord, overwrite, Vector.getElem_setIfInBounds]
  rcases Decidable.em (j / 4 = i) with inside | outside
  · rw [if_pos inside]
    have h : j = 4 * i ∨ j = 4 * i + 1 ∨ j = 4 * i + 1 + 1 ∨ j = 4 * i + 1 + 1 + 1 := by omega
    rcases h with rfl | rfl | rfl | rfl
    · rw [if_neg (by omega), if_neg (by omega), if_neg (by omega), if_pos rfl,
        Nat.mul_mod_right]
    · rw [if_neg (by omega), if_neg (by omega), if_pos rfl, show (4 * i + 1) % 4 = 1 by omega]
    · rw [if_neg (by omega), if_pos rfl, show (4 * i + 1 + 1) % 4 = 2 by omega]
    · rw [if_pos rfl, show (4 * i + 1 + 1 + 1) % 4 = 3 by omega]
  · rw [if_neg outside, if_neg (by omega), if_neg (by omega), if_neg (by omega),
      if_neg (by omega)]

theorem words_putWord (b : Block) (i : Nat) (w : UInt32) {j : Nat} (hj : j < 128) :
    (b.putWord i w).words[j] = if j = i then w else b.words[j] := by
  have hd (k : Nat) (hk : k < 4) : (4 * j + k) / 4 = j ∧ (4 * j + k) % 4 = k := by omega
  simp only [getElem_words _ hj, getElem_putWord, hd 1, hd 2, hd 3, Nat.mul_div_cancel_left,
    Nat.mul_mod_right, Nat.reduceLT, Nat.zero_lt_succ]
  split
  · exact word_wordByte w
  · rfl

theorem words_putWords (b : Block) (i : Nat) (ws : List UInt32) {j : Nat} (hj : j < 128) :
    (b.putWords i ws).words[j] =
      if h : i ≤ j ∧ j - i < ws.length then ws[j - i] else b.words[j] := by
  induction ws generalizing b i with
  | nil => rw [putWords, dif_neg fun h => absurd h.2 (Nat.not_lt_zero _)]
  | cons w rest ih =>
    rw [putWords, ih, words_putWord b i w hj]
    rcases Nat.lt_trichotomy j i with before | rfl | after
    · rw [dif_neg (by omega), if_neg (by omega), dif_neg (by omega)]
    · rw [dif_neg (by omega), if_pos rfl, dif_pos ⟨Nat.le_refl _, by simp⟩]
      simp only [Nat.sub_self, List.getElem_cons_zero]
    · have shift : j - i = j - (i + 1) + 1 := by omega
      rcases Decidable.em (j - (i + 1) < rest.length) with inside | beyond
      · rw [dif_pos ⟨after, inside⟩, dif_pos ⟨by omega, by simp only [List.length_cons]; omega⟩]
        simp only [shift, List.getElem_cons_succ]
      · rw [dif_neg fun h => beyond h.2, if_neg (by omega),
          dif_neg fun h => beyond (by have := h.2; simp only [List.length_cons] at this; omega)]

@[simp] theorem words_ofWords (ws : Words) : (ofWords ws).words = ws := by
  apply Vector.ext
  intro i hi
  have hd (k : Nat) (hk : k < 4) : (4 * i + k) / 4 = i ∧ (4 * i + k) % 4 = k := by omega
  simp only [getElem_words _ hi, getElem_ofWords, hd 1, hd 2, hd 3, Nat.mul_div_cancel_left,
    Nat.mul_mod_right, Nat.reduceLT, Nat.zero_lt_succ]
  exact word_wordByte ws[i]

@[simp] theorem ofWords_words (b : Block) : ofWords b.words = b := by
  apply Vector.ext
  intro i hi
  obtain ⟨q, r, hr, rfl⟩ : ∃ q r, r < 4 ∧ i = 4 * q + r := ⟨i / 4, i % 4, by omega, by omega⟩
  have hq : (4 * q + r) / 4 = q := by omega
  have hm : (4 * q + r) % 4 = r := by omega
  rw [getElem_ofWords _ hi, getElem_words b (by omega)]
  simp only [hq, hm]
  obtain ⟨e₀, e₁, e₂, e₃⟩ := wordByte_word b[4 * q] b[4 * q + 1] b[4 * q + 2] b[4 * q + 3]
  have h : r = 0 ∨ r = 1 ∨ r = 2 ∨ r = 3 := by omega
  rcases h with rfl | rfl | rfl | rfl
  · exact e₀
  · exact e₁
  · exact e₂
  · exact e₃

end Block

end InodeVolume
