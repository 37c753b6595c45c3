import InodeVolume.Layout.PointerTable
import Mathlib.Logic.Function.Basic

/-!
# Encodings without gaps

A record and a pointer table fill their block word by word. `Layout.Exact` says
what this amounts to: encoding and decoding undo each other whatever the block
held, and every byte of the block belongs to one field. It follows from four
facts about the places of the fields (`Layout.Placed.exact`).
-/

namespace InodeVolume

namespace Layout

variable {α Field : Type} {decode : Block → α} {encodeInto : α → Block → Block}
  {place : Field → Nat} {field : α → Field → UInt32}

/-- An encoding whose fields are the words of the block, `field` in word `place`. -/
structure Placed (decode : Block → α) (encodeInto : α → Block → Block) (place : Field → Nat)
    (field : α → Field → UInt32) : Prop where
  place_injective : Function.Injective place
  place_range (i : Nat) : i < 128 ↔ ∃ f, place f = i
  words_encodeInto (a : α) (b : Block) (f : Field) :
    (encodeInto a b).words[place f]? = some (field a f)
  words_decode (b : Block) (f : Field) : b.words[place f]? = some (field (decode b) f)
  field_injective : Function.Injective field

/-- An encoding that fills a block exactly, as little-endian words. -/
structure Exact (decode : Block → α) (encodeInto : α → Block → Block) (place : Field → Nat)
    (field : α → Field → UInt32) : Prop where
  /-- What is written is read back, whatever the block held. -/
  decode_encodeInto (a : α) (b : Block) : decode (encodeInto a b) = a
  /-- What was read from any block is written back byte for byte, into any other. -/
  encodeInto_decode (b b' : Block) : encodeInto (decode b) b' = b
  distinct (a a' : α) (b b' : Block) : encodeInto a b = encodeInto a' b' → a = a'
  /-- Every byte of a block is one byte of one field. -/
  byte_owner (j : Nat) : j < 512 ↔ ∃! owner : Field × Fin 4, 4 * place owner.1 + owner.2.val = j
  /-- The bytes of a field stand in its word, the least significant one first. -/
  byte_encodeInto (a : α) (b : Block) (f : Field) (k : Fin 4) :
    (encodeInto a b)[4 * place f + k.val]? = some (Block.wordByte (field a f) k.val)

namespace Placed

variable (placed : Placed decode encodeInto place field)
include placed

theorem place_lt (f : Field) : place f < 128 := (placed.place_range _).mpr ⟨f, rfl⟩

theorem decode_encodeInto (a : α) (b : Block) : decode (encodeInto a b) = a := by
  apply placed.field_injective
  funext f
  apply Option.some.inj
  rw [← placed.words_decode, placed.words_encodeInto]

theorem encodeInto_decode (b b' : Block) : encodeInto (decode b) b' = b := by
  have words : (encodeInto (decode b) b').words = b.words := by
    apply Vector.ext
    intro i hi
    obtain ⟨f, rfl⟩ := (placed.place_range i).mp hi
    apply Option.some.inj
    rw [← Vector.getElem?_eq_getElem, ← Vector.getElem?_eq_getElem, placed.words_encodeInto,
      placed.words_decode]
  rw [← Block.ofWords_words (encodeInto _ _), words, Block.ofWords_words]

theorem byte_owner (j : Nat) :
    j < 512 ↔ ∃! owner : Field × Fin 4, 4 * place owner.1 + owner.2.val = j := by
  constructor
  · intro inside
    obtain ⟨f, word⟩ := (placed.place_range (j / 4)).mp (by omega)
    refine ⟨(f, ⟨j % 4, by omega⟩), by simp only; omega, ?_⟩
    rintro ⟨g, k⟩ (there : 4 * place g + k.val = j)
    have same : g = f := placed.place_injective (by omega)
    exact Prod.ext same (Fin.ext (by simp only; omega))
  · rintro ⟨⟨f, k⟩, there, -⟩
    have := placed.place_lt f
    simp only at there
    omega

theorem byte_encodeInto (a : α) (b : Block) (f : Field) (k : Fin 4) :
    (encodeInto a b)[4 * place f + k.val]? = some (Block.wordByte (field a f) k.val) := by
  have inside := placed.place_lt f
  have word : (encodeInto a b).words[place f] = field a f := by
    apply Option.some.inj
    rw [← Vector.getElem?_eq_getElem, placed.words_encodeInto]
  have quotient : (4 * place f + k.val) / 4 = place f := by omega
  have remainder : (4 * place f + k.val) % 4 = k.val := by omega
  rw [← Block.ofWords_words (encodeInto a b), Vector.getElem?_eq_getElem (by omega),
    Block.getElem_ofWords]
  simp only [quotient, remainder, word]

theorem exact : Exact decode encodeInto place field where
  decode_encodeInto := placed.decode_encodeInto
  encodeInto_decode := placed.encodeInto_decode
  distinct a a' b b' same := by
    rw [← placed.decode_encodeInto a b, same, placed.decode_encodeInto]
  byte_owner := placed.byte_owner
  byte_encodeInto := placed.byte_encodeInto

end Placed

end Layout

namespace Record

inductive Field where
  | length
  | tag
  | direct (slot : Fin 123)
  | table (b : Fin 3)

namespace Field

def place : Field → Nat
  | length => 0
  | tag => 1
  | direct slot => 2 + slot
  | table b => 125 + b

theorem place_injective : Function.Injective place := by
  intro f g same
  cases f <;> cases g <;> simp only [place] at same <;>
    first
    | rfl
    | exact absurd same (by omega)
    | exact congrArg _ (Fin.ext (by omega))

theorem place_range (i : Nat) : i < 128 ↔ ∃ f, place f = i := by
  constructor
  · intro inside
    rcases Nat.lt_or_ge i 125 with low | high
    · rcases i with _ | _ | i
      · exact ⟨length, rfl⟩
      · exact ⟨tag, rfl⟩
      · exact ⟨direct ⟨i, by omega⟩, by simp only [place]; omega⟩
    · exact ⟨table ⟨i - 125, by omega⟩, by simp only [place]; omega⟩
  · rintro ⟨_ | _ | ⟨i, hi⟩ | ⟨i, hi⟩, rfl⟩ <;> simp only [place] <;> omega

end Field

def field (r : Record) : Field → UInt32
  | .length => r.length.toUInt32
  | .tag => r.tag
  | .direct slot => r.direct.get slot
  | .table b => r.tables.get b

theorem field_injective : Function.Injective field := by
  intro r r' same
  have length : r.length = r'.length := congrArg UInt32.toInt32 (congrFun same .length)
  have tag : r.tag = r'.tag := congrFun same .tag
  have direct : r.direct = r'.direct := by
    apply Vector.ext
    intro i hi
    exact congrFun same (.direct ⟨i, hi⟩)
  have tables : r.tables = r'.tables := by
    apply Vector.ext
    intro i hi
    exact congrFun same (.table ⟨i, hi⟩)
  cases r
  cases r'
  simp only [mk.injEq]
  exact ⟨length, tag, direct, tables⟩

theorem words_field (r : Record) (f : Field) : r.words[f.place]? = some (r.field f) := by
  rcases f with _ | _ | slot | b
  · exact congrArg some r.words_zero
  · exact congrArg some r.words_one
  · rw [Field.place, Vector.getElem?_eq_getElem (by omega), r.words_direct slot.isLt]
    rfl
  · rw [Field.place, Vector.getElem?_eq_getElem (by omega), r.words_tables b.isLt]
    rfl

theorem placed : Layout.Placed decode encodeInto Field.place field where
  place_injective := Field.place_injective
  place_range := Field.place_range
  words_encodeInto r b f := by rw [encodeInto_eq, Block.words_ofWords, words_field]
  words_decode b f := by
    rw [← words_field, ← Block.words_ofWords (decode b).words, ← encode_eq, encode_decode]
  field_injective := field_injective

end Record

namespace PointerTable

inductive Field where
  | tag
  | entry (i : Fin 127)

namespace Field

def place : Field → Nat
  | tag => 0
  | entry i => i + 1

theorem place_injective : Function.Injective place := by
  intro f g same
  cases f <;> cases g <;> simp only [place] at same <;>
    first
    | rfl
    | exact absurd same (by omega)
    | exact congrArg _ (Fin.ext (by omega))

theorem place_range (i : Nat) : i < 128 ↔ ∃ f, place f = i := by
  constructor
  · intro inside
    cases i with
    | zero => exact ⟨tag, rfl⟩
    | succ i => exact ⟨entry ⟨i, by omega⟩, rfl⟩
  · rintro ⟨_ | ⟨i, hi⟩, rfl⟩ <;> simp only [place] <;> omega

end Field

def field (t : PointerTable) : Field → UInt32
  | .tag => t.tag
  | .entry i => t.entries.get i

theorem field_injective : Function.Injective field := by
  intro t t' same
  have tag : t.tag = t'.tag := congrFun same .tag
  have entries : t.entries = t'.entries := by
    apply Vector.ext
    intro i hi
    exact congrFun same (.entry ⟨i, hi⟩)
  cases t
  cases t'
  simp only [mk.injEq]
  exact ⟨tag, entries⟩

theorem words_field (t : PointerTable) (f : Field) : t.words[f.place]? = some (t.field f) := by
  rcases f with _ | i
  · exact congrArg some t.words_zero
  · rw [Field.place, Vector.getElem?_eq_getElem (by omega), t.words_entries i.isLt]
    rfl

theorem placed : Layout.Placed decode encodeInto Field.place field where
  place_injective := Field.place_injective
  place_range := Field.place_range
  words_encodeInto t b f := by rw [encodeInto_eq, Block.words_ofWords, words_field]
  words_decode b f := by
    rw [← words_field, ← Block.words_ofWords (decode b).words, ← encode_eq, encode_decode]
  field_injective := field_injective

end PointerTable

/-- Records and pointer tables correspond one to one with blocks, and the bytes of a block
are those of their fields. -/
theorem layout_exact :
    Layout.Exact Record.decode Record.encodeInto Record.Field.place Record.field ∧
      Layout.Exact PointerTable.decode PointerTable.encodeInto PointerTable.Field.place
        PointerTable.field :=
  ⟨Record.placed.exact, PointerTable.placed.exact⟩

end InodeVolume
