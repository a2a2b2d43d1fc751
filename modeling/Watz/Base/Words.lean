import Mathlib.Data.Nat.Bitwise
import Watz.Base.Layout

namespace Watz.Base.Words

open Layout

-- Numbers of `width` bytes in memory.
def load (mem : Mem) (address width : Nat) : Nat := leNat (slice mem address width)

def store (mem : Mem) (address width n : Nat) : Mem := write mem address (leBytes width n)

-- `memset` with zero.
def clear (mem : Mem) (address length : Nat) : Mem := fun i =>
  if address ≤ i ∧ i < address + length then 0 else mem i

-- Two ranges that share no byte.
def Apart (a width b width' : Nat) : Prop := a + width ≤ b ∨ b + width' ≤ a

instance (a width b width' : Nat) : Decidable (Apart a width b width') :=
  inferInstanceAs (Decidable (_ ∨ _))

section Memory

variable {mem other : Mem} {a b width width' n : Nat}

theorem leNat_lt (bytes : List UInt8) : leNat bytes < 256 ^ bytes.length := by
  induction bytes with
  | nil => simp [leNat]
  | cons b rest ih =>
      have hb := b.toNat_lt
      rw [leNat, List.length_cons, Nat.pow_succ]
      omega

theorem load_lt (mem : Mem) (a width : Nat) : load mem a width < 256 ^ width := by
  have h := leNat_lt (slice mem a width)
  rwa [slice_length] at h

theorem load_congr (h : ∀ i, a ≤ i → i < a + width → other i = mem i) :
    load other a width = load mem a width := by
  have hslice : slice other a width = slice mem a width := by
    rw [slice_eq_iff]
    intro i hi
    exact h (a + i) (by omega) (by omega)
  rw [load, hslice, load]

theorem store_outside {i : Nat} (h : i < a ∨ a + width ≤ i) : store mem a width n i = mem i := by
  rw [store, write, leBytes_length, if_neg (by omega)]

theorem clear_outside {i length : Nat} (h : i < a ∨ a + length ≤ i) :
    clear mem a length i = mem i := by
  rw [clear, if_neg (by omega)]

theorem load_store (h : n < 256 ^ width) : load (store mem a width n) a width = n := by
  have hslice : slice (store mem a width n) a width = leBytes width n := by
    apply List.ext_getElem
    · simp
    · intro i hi _
      rw [slice_length] at hi
      simp [slice, store, write, hi]
  rw [load, hslice, leNat_leBytes width n h]

theorem load_store_apart (h : Apart a width b width') :
    load (store mem a width n) b width' = load mem b width' := by
  apply load_congr
  intro i hlow hhigh
  apply store_outside
  rcases h with h | h
  · exact .inr (by omega)
  · exact .inl (by omega)

theorem load_zero (h : ∀ i, a ≤ i → i < a + width → mem i = 0) : load mem a width = 0 := by
  have hslice : slice mem a width = List.replicate width 0 := by
    apply List.ext_getElem
    · simp
    · intro i hi _
      rw [slice_length] at hi
      simpa [slice] using h (a + i) (by omega) (by omega)
  have hzero : ∀ k, leNat (List.replicate k 0) = 0 := by
    intro k
    induction k with
    | zero => rfl
    | succ k ih => rw [List.replicate_succ, leNat, ih]; rfl
  rw [load, hslice, hzero]

theorem load_clear {length : Nat} (hlow : b ≤ a) (hhigh : a + width ≤ b + length) :
    load (clear mem b length) a width = 0 :=
  load_zero fun i hi hi' => by rw [clear, if_pos (by omega)]

end Memory

-- Words are read and written through the lemmas above only.
attribute [irreducible] load store

-- The bits `offset` to `offset + size - 1` of a word.
section Fields

variable {w : Nat}

def mask (offset size : Nat) : BitVec w := ((1#w <<< size) - 1#w) <<< offset

def getBits (v : BitVec w) (offset size : Nat) : BitVec w := (v &&& mask offset size) >>> offset

def setBits (v : BitVec w) (offset size : Nat) (value : BitVec w) : BitVec w :=
  (v &&& ~~~mask offset size) ||| (value <<< offset)

variable {v value : BitVec w} {offset size offset' size' i : Nat}

theorem ones_eq (hw : 0 < w) : (1#w <<< size) - 1#w = BitVec.ofNat w (2 ^ size - 1) := by
  have hone : (1#w <<< size) = BitVec.ofNat w (2 ^ size) := by
    apply BitVec.eq_of_toNat_eq
    rw [BitVec.toNat_shiftLeft, Nat.shiftLeft_eq, BitVec.toNat_ofNat, BitVec.toNat_ofNat,
      Nat.mod_eq_of_lt (Nat.one_lt_two_pow hw.ne'), Nat.one_mul]
  rw [hone, BitVec.ofNat_sub_ofNat_of_le _ _ (Nat.one_lt_two_pow hw.ne') Nat.one_le_two_pow]

theorem getLsbD_mask (h : offset + size ≤ w) :
    (mask offset size : BitVec w).getLsbD i = decide (offset ≤ i ∧ i < offset + size) := by
  by_cases hw : 0 < w
  case neg =>
    obtain rfl : w = 0 := by omega
    simp
    omega
  rw [mask, ones_eq hw, BitVec.getLsbD_shiftLeft, BitVec.getLsbD_ofNat, Nat.testBit_two_pow_sub_one]
  grind

theorem getLsbD_getBits (h : offset + size ≤ w) :
    (getBits v offset size).getLsbD i = (decide (i < size) && v.getLsbD (offset + i)) := by
  rw [getBits, BitVec.getLsbD_ushiftRight, BitVec.getLsbD_and, getLsbD_mask h]
  grind

theorem getLsbD_of_lt (h : value.toNat < 2 ^ size) (hi : size ≤ i) : value.getLsbD i = false := by
  apply Nat.testBit_lt_two_pow
  exact lt_of_lt_of_le h (Nat.pow_le_pow_right (by omega) hi)

theorem getLsbD_setBits (h : offset + size ≤ w) (hvalue : value.toNat < 2 ^ size) :
    (setBits v offset size value).getLsbD i =
      if offset ≤ i ∧ i < offset + size then value.getLsbD (i - offset) else v.getLsbD i := by
  rw [setBits, BitVec.getLsbD_or, BitVec.getLsbD_and, BitVec.getLsbD_not, getLsbD_mask h,
    BitVec.getLsbD_shiftLeft]
  split
  case isTrue hi =>
    have hw : i < w := by omega
    simp [hi, hw]
  case isFalse hi =>
    by_cases hlow : i < offset
    · grind
    · have hhigh := getLsbD_of_lt hvalue (show size ≤ i - offset by omega)
      grind

theorem getBits_setBits (h : offset + size ≤ w) (hvalue : value.toNat < 2 ^ size) :
    getBits (setBits v offset size value) offset size = value := by
  apply BitVec.eq_of_getLsbD_eq
  intro i hi
  rw [getLsbD_getBits h, getLsbD_setBits h hvalue]
  by_cases hsize : i < size
  · simp [hsize]
  · simp [hsize, getLsbD_of_lt hvalue (show size ≤ i by omega)]

theorem getBits_setBits_apart (h : offset + size ≤ w) (h' : offset' + size' ≤ w)
    (hvalue : value.toNat < 2 ^ size) (hapart : Apart offset size offset' size') :
    getBits (setBits v offset size value) offset' size' = getBits v offset' size' := by
  apply BitVec.eq_of_getLsbD_eq
  intro i hi
  rw [getLsbD_getBits h', getLsbD_getBits h', getLsbD_setBits h hvalue]
  by_cases hsize : i < size'
  · rw [if_neg (by rcases hapart with hapart | hapart <;> omega)]
  · simp [hsize]

-- A single bit.
def getBit (v : BitVec w) (offset : Nat) : Bool := (v &&& (1#w <<< offset)) != 0#w

def setBit (v : BitVec w) (offset : Nat) : BitVec w := v ||| (1#w <<< offset)

def clearBit (v : BitVec w) (offset : Nat) : BitVec w := v &&& ~~~(1#w <<< offset)

theorem getLsbD_one_shiftLeft (h : offset < w) :
    (1#w <<< offset).getLsbD i = decide (i = offset) := by
  rw [BitVec.getLsbD_shiftLeft, BitVec.getLsbD_one]
  grind

theorem getBit_eq (h : offset < w) : getBit v offset = v.getLsbD offset := by
  rw [getBit, Bool.eq_iff_iff, bne_iff_ne]
  constructor
  · intro hne
    by_contra hoff
    apply hne
    apply BitVec.eq_of_getLsbD_eq
    intro i hi
    rw [BitVec.getLsbD_and, getLsbD_one_shiftLeft h]
    by_cases hio : i = offset
    · simp_all
    · simp [hio]
  · intro hon hzero
    have hbit := congrArg (BitVec.getLsbD · offset) hzero
    simp [getLsbD_one_shiftLeft h, hon] at hbit

theorem getLsbD_setBit (h : offset < w) :
    (setBit v offset).getLsbD i = (v.getLsbD i || decide (i = offset)) := by
  rw [setBit, BitVec.getLsbD_or, getLsbD_one_shiftLeft h]

theorem getLsbD_clearBit (h : offset < w) :
    (clearBit v offset).getLsbD i = (v.getLsbD i && !decide (i = offset)) := by
  rw [clearBit, BitVec.getLsbD_and, BitVec.getLsbD_not, getLsbD_one_shiftLeft h]
  by_cases hi : i < w
  · simp [hi]
  · simp [hi, BitVec.getLsbD_of_ge v i (by omega)]

theorem getBit_setBits_apart (h : offset + size ≤ w) (h' : offset' < w)
    (hvalue : value.toNat < 2 ^ size) (hapart : Apart offset size offset' 1) :
    getBit (setBits v offset size value) offset' = getBit v offset' := by
  rw [getBit_eq h', getBit_eq h', getLsbD_setBits h hvalue,
    if_neg (by rcases hapart with hapart | hapart <;> omega)]

theorem getBits_setBit_apart (h : offset < w) (h' : offset' + size' ≤ w)
    (hapart : Apart offset 1 offset' size') :
    getBits (setBit v offset) offset' size' = getBits v offset' size' := by
  apply BitVec.eq_of_getLsbD_eq
  intro i hi
  rw [getLsbD_getBits h', getLsbD_getBits h', getLsbD_setBit h]
  by_cases hsize : i < size'
  · simp [show offset' + i ≠ offset by rcases hapart with hapart | hapart <;> omega]
  · simp [hsize]

theorem getBits_clearBit_apart (h : offset < w) (h' : offset' + size' ≤ w)
    (hapart : Apart offset 1 offset' size') :
    getBits (clearBit v offset) offset' size' = getBits v offset' size' := by
  apply BitVec.eq_of_getLsbD_eq
  intro i hi
  rw [getLsbD_getBits h', getLsbD_getBits h', getLsbD_clearBit h]
  by_cases hsize : i < size'
  · simp [show offset' + i ≠ offset by rcases hapart with hapart | hapart <;> omega]
  · simp [hsize]

theorem getBit_setBit (h : offset < w) (h' : offset' < w) :
    getBit (setBit v offset) offset' = (getBit v offset' || decide (offset' = offset)) := by
  rw [getBit_eq h', getBit_eq h', getLsbD_setBit h]

theorem getBit_clearBit (h : offset < w) (h' : offset' < w) :
    getBit (clearBit v offset) offset' = (getBit v offset' && !decide (offset' = offset)) := by
  rw [getBit_eq h', getBit_eq h', getLsbD_clearBit h]

end Fields

end Watz.Base.Words
