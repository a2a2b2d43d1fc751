import Mathlib.Data.List.Basic
import Mathlib.Data.PNat.Defs
import Mathlib.Tactic.Ring

namespace Watz.Base.Layout

-- The scalar and array types of C structures on an LP64 target, and structures whose
-- declaration is elsewhere.
inductive CType where
  | uint8Array (length : Nat)
  | uint32
  | sizeT
  | record (size : Nat) (align : ℕ+)
  deriving DecidableEq

namespace CType

def size : CType → Nat
  | uint8Array length => length
  | uint32 => 4
  | sizeT => 8
  | record size _ => size

def align : CType → Nat
  | uint8Array _ => 1
  | uint32 => 4
  | sizeT => 8
  | record _ align => align

theorem align_pos (t : CType) : 0 < t.align := by
  cases t with
  | record size align => exact align.pos
  | uint8Array length => exact Nat.one_pos
  | uint32 => exact Nat.succ_pos 3
  | sizeT => exact Nat.succ_pos 7

end CType

def alignUp (offset align : Nat) : Nat := (offset + align - 1) / align * align

def offsetsFrom (start : Nat) : List CType → List Nat
  | [] => []
  | t :: rest => alignUp start t.align :: offsetsFrom (alignUp start t.align + t.size) rest

def offsets (members : List CType) : List Nat := offsetsFrom 0 members

def endFrom (start : Nat) : List CType → Nat
  | [] => start
  | t :: rest => endFrom (alignUp start t.align + t.size) rest

def alignof (members : List CType) : Nat := members.foldr (fun t a => max t.align a) 1

def sizeof (members : List CType) : Nat := alignUp (endFrom 0 members) (alignof members)

-- A piece of memory, read from its first byte on.
abbrev Mem : Type := Nat → UInt8

def ofList (bytes : List UInt8) : Mem := fun i => bytes.getD i 0

def slice (mem : Mem) (offset length : Nat) : List UInt8 :=
  (List.range length).map fun i => mem (offset + i)

def write (mem : Mem) (offset : Nat) (bytes : List UInt8) : Mem := fun i =>
  if offset ≤ i ∧ i < offset + bytes.length then bytes.getD (i - offset) 0 else mem i

-- A little-endian number.
def leNat : List UInt8 → Nat
  | [] => 0
  | b :: rest => b.toNat + 256 * leNat rest

def leBytes : Nat → Nat → List UInt8
  | 0, _ => []
  | width + 1, n => UInt8.ofNat (n % 256) :: leBytes width (n / 256)

inductive FieldValue where
  | bytes (value : List UInt8)
  | number (value : Nat)
  deriving DecidableEq, Repr

def readField (mem : Mem) (offset : Nat) : CType → FieldValue
  | .uint8Array length => .bytes (slice mem offset length)
  | .uint32 => .number (leNat (slice mem offset 4))
  | .sizeT => .number (leNat (slice mem offset 8))
  | .record size _ => .bytes (slice mem offset size)

-- The values of all members of a structure that lies at the start of this memory.
def decode (members : List CType) (mem : Mem) : List FieldValue :=
  List.zipWith (fun t offset => readField mem offset t) members (offsets members)

-- The bytes of such a structure, padding included.
def image (members : List CType) (mem : Mem) : List UInt8 := slice mem 0 (sizeof members)

-- A structure copied off the front of a buffer, if the buffer is long enough.
def parse (members : List CType) (buffer : List UInt8) : Option (List FieldValue) :=
  if buffer.length < sizeof members then none else some (decode members (ofList buffer))

section Slice

variable (mem : Mem)

@[simp] theorem slice_length (offset length : Nat) : (slice mem offset length).length = length := by
  simp [slice]

theorem slice_eq_iff (other : Mem) (offset offset' length : Nat) :
    slice mem offset length = slice other offset' length ↔
      ∀ i < length, mem (offset + i) = other (offset' + i) := by
  simp [slice]

theorem slice_add (offset first second : Nat) :
    slice mem offset (first + second) =
      slice mem offset first ++ slice mem (offset + first) second := by
  simp [slice, List.range_add, Function.comp_def, Nat.add_assoc]

-- Reading a structure off the front of a longer list sees the bytes of the list only.
theorem slice_ofList (bytes : List UInt8) (offset length : Nat)
    (h : offset + length ≤ bytes.length) :
    slice (ofList bytes) offset length = (bytes.drop offset).take length := by
  apply List.ext_getElem
  · simp only [slice_length, List.length_take, List.length_drop]
    omega
  · intro i hi _
    rw [slice_length] at hi
    have hbound : offset + i < bytes.length := by omega
    simp [slice, ofList, List.getElem?_eq_getElem hbound]

theorem slice_middle (before middle after : List UInt8) {offset length : Nat}
    (hoffset : before.length = offset) (hlength : middle.length = length) :
    slice (ofList (before ++ (middle ++ after))) offset length = middle := by
  rw [slice_ofList _ _ _ (by simp only [List.length_append]; omega), ← hoffset, ← hlength,
    List.drop_left, List.take_left]

-- Bytes written behind a filled front extend it.
theorem slice_write_front (offset : Nat) (bytes : List UInt8) :
    slice (write mem offset bytes) 0 (offset + bytes.length) = slice mem 0 offset ++ bytes := by
  rw [slice_add]
  congr 1
  · rw [slice_eq_iff]
    intro i hi
    rw [write, if_neg (by omega)]
  · apply List.ext_getElem
    · simp
    · intro i hi _
      rw [slice_length] at hi
      simp [slice, write, hi]

theorem write_nil (offset : Nat) : write mem offset [] = mem := by
  funext i
  rw [write, if_neg (by simp)]

end Slice

section Decode

theorem le_alignUp (offset : Nat) {align : Nat} (h : 0 < align) : offset ≤ alignUp offset align := by
  have hdiv := Nat.div_add_mod (offset + align - 1) align
  have hmod := Nat.mod_lt (offset + align - 1) h
  rw [Nat.mul_comm] at hdiv
  unfold alignUp
  omega

@[simp] theorem alignUp_one (offset : Nat) : alignUp offset 1 = offset := by
  simp [alignUp]

theorem le_endFrom (start : Nat) (members : List CType) : start ≤ endFrom start members := by
  induction members generalizing start with
  | nil => exact Nat.le_refl _
  | cons t rest ih =>
      have hstart := le_alignUp start t.align_pos
      have hrest := ih (alignUp start t.align + t.size)
      simp only [endFrom]
      omega

theorem alignof_pos (members : List CType) : 0 < alignof members := by
  induction members with
  | nil => exact Nat.one_pos
  | cons t rest ih =>
      have ht := t.align_pos
      simp only [alignof, List.foldr_cons]
      omega

theorem endFrom_le_sizeof (members : List CType) : endFrom 0 members ≤ sizeof members :=
  le_alignUp _ (alignof_pos members)

theorem readField_congr {mem other : Mem} {bound : Nat} (h : ∀ i < bound, mem i = other i)
    {offset : Nat} (t : CType) (hbound : offset + t.size ≤ bound) :
    readField mem offset t = readField other offset t := by
  have hslice : slice mem offset t.size = slice other offset t.size :=
    (slice_eq_iff mem other offset offset t.size).mpr fun i hi => h (offset + i) (by omega)
  cases t <;> simp only [CType.size] at hslice <;> simp only [readField, hslice]

theorem decodeFrom_congr {mem other : Mem} {bound : Nat} (h : ∀ i < bound, mem i = other i)
    (members : List CType) (start : Nat) (hbound : endFrom start members ≤ bound) :
    List.zipWith (fun t offset => readField mem offset t) members (offsetsFrom start members) =
      List.zipWith (fun t offset => readField other offset t) members
        (offsetsFrom start members) := by
  induction members generalizing start with
  | nil => rfl
  | cons t rest ih =>
      simp only [endFrom] at hbound
      have hfield := le_endFrom (alignUp start t.align + t.size) rest
      have hhead := readField_congr h t (show alignUp start t.align + t.size ≤ bound by omega)
      simp only [offsetsFrom, List.zipWith_cons_cons, hhead, ih _ hbound]

-- The values of the members depend on the bytes of the structure only.
theorem decode_congr {mem other : Mem} (members : List CType)
    (h : ∀ i < sizeof members, mem i = other i) : decode members mem = decode members other :=
  decodeFrom_congr h members 0 (endFrom_le_sizeof members)

theorem ofList_slice_append (mem : Mem) (length : Nat) (rest : List UInt8) {i : Nat}
    (h : i < length) : ofList (slice mem 0 length ++ rest) i = mem i := by
  have hlen : i < (slice mem 0 length).length := by rwa [slice_length]
  rw [ofList, List.getD_eq_getElem?_getD, List.getElem?_append_left hlen]
  simp [slice, h]

-- What one side sends is what the other reads when both declare the same members.
theorem parse_image (members : List CType) (mem : Mem) (rest : List UInt8) :
    parse members (image members mem ++ rest) = some (decode members mem) := by
  have hlong : ¬(image members mem ++ rest).length < sizeof members := by
    simp only [image, List.length_append, slice_length]
    omega
  rw [parse, if_neg hlong]
  exact congrArg some (decode_congr members fun i hi => ofList_slice_append mem _ rest hi)

end Decode

section Number

theorem leNat_append (first second : List UInt8) :
    leNat (first ++ second) = leNat first + 256 ^ first.length * leNat second := by
  induction first with
  | nil => simp [leNat]
  | cons b rest ih =>
      simp only [List.cons_append, leNat, ih, List.length_cons, Nat.pow_succ]
      ring

theorem leNat_eq_zero_iff (bytes : List UInt8) : leNat bytes = 0 ↔ ∀ b ∈ bytes, b = 0 := by
  induction bytes with
  | nil => simp [leNat]
  | cons b rest ih =>
      have hb : b.toNat = 0 ↔ b = 0 := by
        rw [← UInt8.toNat_inj]
        rfl
      simp only [leNat, Nat.add_eq_zero_iff, Nat.mul_eq_zero, List.mem_cons, forall_eq_or_imp, ← ih,
        hb]
      constructor
      · rintro ⟨hfirst, hrest⟩
        exact ⟨hfirst, by omega⟩
      · rintro ⟨hfirst, hrest⟩
        exact ⟨hfirst, Or.inr hrest⟩

@[simp] theorem leBytes_length (width n : Nat) : (leBytes width n).length = width := by
  induction width generalizing n with
  | zero => rfl
  | succ width ih => simp [leBytes, ih]

theorem leNat_leBytes (width n : Nat) (h : n < 256 ^ width) : leNat (leBytes width n) = n := by
  induction width generalizing n with
  | zero =>
      simp only [Nat.pow_zero] at h
      simp only [leBytes, leNat]
      omega
  | succ width ih =>
      have hrest : n / 256 < 256 ^ width := by
        rw [Nat.pow_succ] at h
        omega
      simp only [leBytes, leNat, ih _ hrest, UInt8.toNat_ofNat']
      omega

end Number

-- The bytes from `lo` up to `hi` are all zero.
def ZeroRange (mem : Mem) (lo hi : Nat) : Prop := ∀ i, lo ≤ i → i < hi → mem i = 0

section ZeroRange

variable {mem : Mem}

theorem leNat_slice_eq_zero (offset length : Nat) :
    leNat (slice mem offset length) = 0 ↔ ZeroRange mem offset (offset + length) := by
  rw [leNat_eq_zero_iff]
  simp only [slice, List.mem_map, List.mem_range, forall_exists_index, and_imp,
    forall_apply_eq_imp_iff₂]
  constructor
  · intro h i hlo hhi
    have hi := h (i - offset) (by omega)
    rwa [show offset + (i - offset) = i by omega] at hi
  · intro h i hi
    exact h (offset + i) (by omega) (by omega)

-- A number read at two widths is the same exactly when the extra bytes are zero.
theorem leNat_widen (offset narrow extra : Nat) :
    leNat (slice mem offset (narrow + extra)) = leNat (slice mem offset narrow) ↔
      ZeroRange mem (offset + narrow) (offset + narrow + extra) := by
  rw [slice_add, leNat_append, slice_length, ← leNat_slice_eq_zero]
  have hpos : 0 < 256 ^ narrow := Nat.pow_pos (by omega)
  constructor
  · intro h
    have hzero : 256 ^ narrow * leNat (slice mem (offset + narrow) extra) = 0 := by omega
    rcases Nat.mul_eq_zero.mp hzero with hz | hz
    · omega
    · exact hz
  · intro h
    rw [h]
    omega

-- If every byte of a range repeats one from before it, zeros spread over the whole range.
theorem ZeroRange.spread {lo from' start length : Nat} (h : ZeroRange mem lo start)
    (hlo : lo ≤ from') (hfrom : from' < start)
    (hcopy : ∀ i < length, mem (start + i) = mem (from' + i)) :
    ZeroRange mem lo (start + length) := by
  intro i
  induction i using Nat.strong_induction_on with
  | _ i ih =>
      intro hilo hihi
      by_cases hbefore : i < start
      · exact h i hilo hbefore
      · have hcopied := hcopy (i - start) (by omega)
        rw [show start + (i - start) = i by omega] at hcopied
        rw [hcopied]
        exact ih _ (by omega) (by omega) (by omega)

theorem ZeroRange.number {lo from' start width width' : Nat} (h : ZeroRange mem lo start)
    (hlo : lo ≤ from') (hfrom : from' + width' ≤ start)
    (hsame : leNat (slice mem start width) = leNat (slice mem from' width')) :
    ZeroRange mem lo (start + width) := by
  have hzero : leNat (slice mem from' width') = 0 :=
    (leNat_slice_eq_zero from' width').mpr fun i hi hi' => h i (by omega) (by omega)
  rw [hzero, leNat_slice_eq_zero] at hsame
  intro i hilo hihi
  by_cases hbefore : i < start
  · exact h i hilo hbefore
  · exact hsame i (by omega) hihi

theorem ZeroRange.leNat_eq {lo hi a b width width' : Nat} (h : ZeroRange mem lo hi) (ha : lo ≤ a)
    (ha' : a + width ≤ hi) (hb : lo ≤ b) (hb' : b + width' ≤ hi) :
    leNat (slice mem a width) = leNat (slice mem b width') := by
  rw [(leNat_slice_eq_zero a width).mpr fun i hi hi' => h i (by omega) (by omega),
    (leNat_slice_eq_zero b width').mpr fun i hi hi' => h i (by omega) (by omega)]

theorem ZeroRange.slice_eq {lo hi a b length : Nat} (h : ZeroRange mem lo hi) (ha : lo ≤ a)
    (ha' : a + length ≤ hi) (hb : lo ≤ b) (hb' : b + length ≤ hi) :
    slice mem a length = slice mem b length := by
  rw [slice_eq_iff]
  intro i hi
  rw [h (a + i) (by omega) (by omega), h (b + i) (by omega) (by omega)]

end ZeroRange

section Parts

variable {α : Type}

-- Parts of given lengths, one after the other, can be told from parts of other lengths by the
-- total length only.
theorem flatten_injective_iff (a : α) (lengths lengths' : List Nat) :
    (∀ parts parts' : List (List α), parts.map List.length = lengths →
        parts'.map List.length = lengths' → parts.flatten = parts'.flatten → parts = parts') ↔
      lengths = lengths' ∨ lengths.sum ≠ lengths'.sum := by
  have hlengths : ∀ ns : List Nat,
      (ns.map fun n => List.replicate n a).map List.length = ns := by
    intro ns
    simp [Function.comp_def]
  have hflatten : ∀ ns : List Nat,
      (ns.map fun n => List.replicate n a).flatten = List.replicate ns.sum a := by
    intro ns
    induction ns with
    | nil => rfl
    | cons n ns ih => simp [ih]
  constructor
  · intro h
    by_contra hnot
    obtain ⟨hne, hsum⟩ := not_or.mp hnot
    rw [not_not] at hsum
    have hsame := h _ _ (hlengths lengths) (hlengths lengths') (by rw [hflatten, hflatten, hsum])
    apply hne
    rw [← hlengths lengths, hsame, hlengths lengths']
  · intro h parts parts' hparts hparts' hflat
    have hsum : lengths.sum = lengths'.sum := by
      rw [← hparts, ← hparts', ← List.length_flatten, ← List.length_flatten, hflat]
    rcases h with heq | hne
    · exact List.eq_iff_flatten_eq.mpr ⟨hflat, by rw [hparts, hparts', heq]⟩
    · exact absurd hsum hne

end Parts

end Watz.Base.Layout
