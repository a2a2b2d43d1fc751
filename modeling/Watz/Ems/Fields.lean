import Mathlib.Data.List.Pairwise
import Mathlib.Data.Set.Basic
import Watz.Ems

namespace Watz.Ems

open Base.Layout Base.Words
open Base.LinkedTree (Side Links)

-- What a header says.
structure Header where
  ut : HmuType
  pinuse : Bool
  freed : Bool
  size : Nat

namespace Heap

variable {h h' : Heap} {a b p : Nat}

def head (h : Heap) (hmu : Nat) : Header :=
  ⟨h.hmuGetUt hmu, h.hmuGetPinuse hmu, h.hmuIsVoFreed hmu, h.hmuGetSize hmu⟩

theorem head_congr (hsame : ∀ i, a ≤ i → i < a + 4 → h'.mem i = h.mem i) :
    h'.head a = h.head a := by
  have hheader : h'.header a = h.header a := by
    rw [header, header, load_congr hsame]
  simp only [head, hmuGetUt, hmuGetPinuse, hmuIsVoFreed, hmuGetSize, hheader]

@[simp] theorem header_setHeader (v : BitVec 32) : (h.setHeader a v).header a = v := by
  rw [header, setHeader, load_store (by simpa using v.isLt), BitVec.ofNat_toNat,
    BitVec.setWidth_eq]

theorem setHeader_outside {i : Nat} (v : BitVec 32) (hi : i < a ∨ a + 4 ≤ i) :
    (h.setHeader a v).mem i = h.mem i :=
  store_outside hi

theorem ofBits_toBits (type : HmuType) : HmuType.ofBits type.toBits = type := by
  cases type <;> rfl

theorem toNat_toBits_lt (type : HmuType) : type.toBits.toNat < 2 ^ HMU_UT_SIZE := by
  cases type <;> decide

@[simp] theorem head_hmuSetUt (type : HmuType) :
    (h.hmuSetUt a type).head a = { h.head a with ut := type } := by
  have hlt := toNat_toBits_lt type
  simp only [head, hmuGetUt, hmuGetPinuse, hmuIsVoFreed, hmuGetSize, hmuSetUt, header_setHeader]
  rw [getBits_setBits (by decide) hlt, getBit_setBits_apart (by decide) (by decide) hlt (by decide),
    getBit_setBits_apart (by decide) (by decide) hlt (by decide),
    getBits_setBits_apart (by decide) (by decide) hlt (by decide), ofBits_toBits]

@[simp] theorem head_hmuMarkPinuse :
    (h.hmuMarkPinuse a).head a = { h.head a with pinuse := true } := by
  simp only [head, hmuGetUt, hmuGetPinuse, hmuIsVoFreed, hmuGetSize, hmuMarkPinuse,
    header_setHeader]
  rw [getBits_setBit_apart (by decide) (by decide) (by decide),
    getBit_setBit (by decide) (by decide),
    getBit_setBit (by decide) (by decide),
    getBits_setBit_apart (by decide) (by decide) (by decide)]
  simp [HMU_P_OFFSET, HMU_VO_FB_OFFSET]

@[simp] theorem head_hmuUnmarkPinuse :
    (h.hmuUnmarkPinuse a).head a = { h.head a with pinuse := false } := by
  simp only [head, hmuGetUt, hmuGetPinuse, hmuIsVoFreed, hmuGetSize, hmuUnmarkPinuse,
    header_setHeader]
  rw [getBits_clearBit_apart (by decide) (by decide) (by decide),
    getBit_clearBit (by decide) (by decide), getBit_clearBit (by decide) (by decide),
    getBits_clearBit_apart (by decide) (by decide) (by decide)]
  simp [HMU_P_OFFSET, HMU_VO_FB_OFFSET]

@[simp] theorem head_hmuUnfreeVo :
    (h.hmuUnfreeVo a).head a = { h.head a with freed := false } := by
  simp only [head, hmuGetUt, hmuGetPinuse, hmuIsVoFreed, hmuGetSize, hmuUnfreeVo, header_setHeader]
  rw [getBits_clearBit_apart (by decide) (by decide) (by decide),
    getBit_clearBit (by decide) (by decide), getBit_clearBit (by decide) (by decide),
    getBits_clearBit_apart (by decide) (by decide) (by decide)]
  simp [HMU_P_OFFSET, HMU_VO_FB_OFFSET]

-- A size that the header can hold: a multiple of eight below 1 GiB.
theorem head_hmuSetSize {size : Nat} (hlt : size < 2 ^ 30) (h8 : 8 ∣ size) :
    (h.hmuSetSize a size).head a = { h.head a with size := size } := by
  have hunits : (BitVec.ofNat 32 (size >>> 3)).toNat = size / 8 := by
    rw [BitVec.toNat_ofNat, Nat.shiftRight_eq_div_pow]
    omega
  have hfield : (BitVec.ofNat 32 (size >>> 3)).toNat < 2 ^ HMU_SIZE_SIZE := by
    rw [hunits, HMU_SIZE_SIZE]
    omega
  simp only [head, hmuGetUt, hmuGetPinuse, hmuIsVoFreed, hmuGetSize, hmuSetSize, header_setHeader]
  rw [getBits_setBits (by decide) hfield,
    getBit_setBits_apart (by decide) (by decide) hfield (by decide),
    getBit_setBits_apart (by decide) (by decide) hfield (by decide),
    getBits_setBits_apart (by decide) (by decide) hfield (by decide)]
  have hsize : (BitVec.ofNat 32 (size >>> 3) <<< 3).toNat = size := by
    rw [BitVec.toNat_shiftLeft, hunits, Nat.shiftLeft_eq]
    omega
  rw [hsize]

-- The links of the tree.
def links (h : Heap) : Links Nat Nat := ⟨h.left, h.right, h.parent, h.size⟩

theorem agree_links (hsame : ∀ i, a + 4 ≤ i → i < a + 32 → h'.mem i = h.mem i) :
    h.links.Agree h'.links a := by
  refine ⟨load_congr ?_, load_congr ?_, load_congr ?_, load_congr ?_⟩
  · exact fun i hlow hhigh => hsame i (by omega) (by omega)
  · exact fun i hlow hhigh => hsame i (by omega) (by omega)
  · exact fun i hlow hhigh => hsame i (by omega) (by omega)
  · exact fun i hlow hhigh => hsame i (by omega) (by omega)

end Heap

-- The nodes of a list do not overlap.
def Spaced (nodes : List Nat) : Prop := nodes.Pairwise fun a b => Apart a 32 b 32

-- The bytes of the pointers of these nodes.
def linkBytes (nodes : List Nat) : Set Nat := {i | ∃ a ∈ nodes, a + 4 ≤ i ∧ i < a + 28}

theorem Spaced.nodup {nodes : List Nat} (h : Spaced nodes) : nodes.Nodup := by
  apply h.imp
  rintro a b (hab | hab) rfl <;> omega

theorem Spaced.apart {nodes : List Nat} {a b : Nat} (h : Spaced nodes) (ha : a ∈ nodes)
    (hb : b ∈ nodes) (hne : a ≠ b) : Apart a 32 b 32 :=
  have : Std.Symm fun a b => Apart a 32 b 32 := ⟨fun _ _ h => Or.symm h⟩
  List.Pairwise.forall h ha hb hne

-- At these nodes the links are the given ones.
def Realises (h : Heap) (f : Links Nat Nat) (nodes : List Nat) : Prop :=
  ∀ a ∈ nodes, f.Agree h.links a

namespace Realises

variable {h : Heap} {f : Links Nat Nat} {nodes : List Nat} {a b : Nat}

theorem refl (h : Heap) (nodes : List Nat) : Realises h h.links nodes := fun a _ => .refl _ a

-- A store into the pointers of one node leaves the links of the others.
theorem agree_of_ne {h' : Heap} {offset : Nat} (hspaced : Spaced nodes) (hb : b ∈ nodes)
    (ha : a ∈ nodes) (hne : a ≠ b) (hlow : 4 ≤ offset) (hhigh : offset + 8 ≤ 28) {p : Nat}
    (hmem : h'.mem = store h.mem (b + offset) 8 p) : h.links.Agree h'.links a := by
  apply Heap.agree_links
  intro i hi hi'
  rw [hmem]
  apply store_outside
  rcases hspaced.apart ha hb hne with hapart | hapart <;> omega

theorem setLeft (hf : Realises h f nodes) (hspaced : Spaced nodes) (hb : b ∈ nodes) {p : Nat}
    (hp : p < 2 ^ 64) : Realises (h.setLeft b p) (f.setLeft b p) nodes := by
  intro a ha
  by_cases hab : a = b
  · subst hab
    obtain ⟨_, hr, hpar, hk⟩ := hf a ha
    refine ⟨?_, ?_, ?_, ?_⟩
    · rw [Links.left_setLeft]
      exact load_store (by omega)
    · exact (load_store_apart (.inl (by omega))).trans hr
    · exact (load_store_apart (.inl (by omega))).trans hpar
    · exact (load_store_apart (.inl (by omega))).trans hk
  · have hagree := Links.agree_setLeft (f := f) (c := p) hab
    exact hagree.symm.trans ((hf a ha).trans
      (agree_of_ne hspaced hb ha hab (by omega) (by omega) rfl))

theorem setRight (hf : Realises h f nodes) (hspaced : Spaced nodes) (hb : b ∈ nodes) {p : Nat}
    (hp : p < 2 ^ 64) : Realises (h.setRight b p) (f.setRight b p) nodes := by
  intro a ha
  by_cases hab : a = b
  · subst hab
    obtain ⟨hl, _, hpar, hk⟩ := hf a ha
    refine ⟨?_, ?_, ?_, ?_⟩
    · exact (load_store_apart (.inr (by omega))).trans hl
    · rw [Links.right_setRight]
      exact load_store (by omega)
    · exact (load_store_apart (.inl (by omega))).trans hpar
    · exact (load_store_apart (.inl (by omega))).trans hk
  · have hagree := Links.agree_setRight (f := f) (c := p) hab
    exact hagree.symm.trans ((hf a ha).trans
      (agree_of_ne hspaced hb ha hab (by omega) (by omega) rfl))

theorem setParent (hf : Realises h f nodes) (hspaced : Spaced nodes) (hb : b ∈ nodes) {p : Nat}
    (hp : p < 2 ^ 64) : Realises (h.setParent b p) (f.setParent b p) nodes := by
  intro a ha
  by_cases hab : a = b
  · subst hab
    obtain ⟨hl, hr, _, hk⟩ := hf a ha
    refine ⟨?_, ?_, ?_, ?_⟩
    · exact (load_store_apart (.inr (by omega))).trans hl
    · exact (load_store_apart (.inr (by omega))).trans hr
    · rw [Links.parent_setParent]
      exact load_store (by omega)
    · exact (load_store_apart (.inl (by omega))).trans hk
  · have hagree := Links.agree_setParent (f := f) (c := p) hab
    exact hagree.symm.trans ((hf a ha).trans
      (agree_of_ne hspaced hb ha hab (by omega) (by omega) rfl))

theorem setSlot (hf : Realises h f nodes) (hspaced : Spaced nodes) (hb : b ∈ nodes) {p : Nat}
    (hp : p < 2 ^ 64) (side : Side) :
    Realises (h.setSlot b side p) (f.setSlot b side p) nodes := by
  cases side with
  | left => exact hf.setLeft hspaced hb hp
  | right => exact hf.setRight hspaced hb hp

-- The pointers of a node are cleared; this shows at no other node.
theorem clearLinks {rest : List Nat} (hf : Realises h f nodes) (hspaced : Spaced nodes)
    (hb : b ∈ nodes) (hrest : rest ⊆ nodes) (hnot : b ∉ rest) :
    Realises (h.clearLinks b) f rest := by
  intro a ha
  have hab : a ≠ b := fun h => hnot (h ▸ ha)
  have hcleared := ((hf.setParent hspaced hb (p := 0) (by omega)).setRight hspaced hb (p := 0)
    (by omega)).setLeft hspaced hb (p := 0) (by omega) a (hrest ha)
  exact ((Links.agree_setParent hab).trans ((Links.agree_setRight hab).trans
    (Links.agree_setLeft hab))).trans hcleared

end Realises

end Watz.Ems
