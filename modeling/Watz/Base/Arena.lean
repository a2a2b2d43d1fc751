import Mathlib.Algebra.BigOperators.Group.List.Basic
import Mathlib.Data.List.Chain
import Mathlib.Data.Set.Insert
import Watz.Base.Words

namespace Watz.Base.Arena

open Words (Apart)

-- A range of addresses that is free or given away.
@[ext] structure Block where
  addr : Nat
  size : Nat
  free : Bool
  deriving DecidableEq

variable {low mid high : Nat} {b c : Block} {blocks blocks' before after : List Block}

-- The blocks fill the addresses from `low` to `high`, with no gap and no overlap.
def Tiles : Nat → List Block → Nat → Prop
  | low, [], high => low = high
  | low, b :: rest, high => b.addr = low ∧ Tiles (low + b.size) rest high

@[simp] theorem tiles_nil : Tiles low [] high ↔ low = high := Iff.rfl

@[simp] theorem tiles_cons : Tiles low (b :: blocks) high ↔
    b.addr = low ∧ Tiles (low + b.size) blocks high := Iff.rfl

theorem tiles_append :
    Tiles low (before ++ after) high ↔ ∃ mid, Tiles low before mid ∧ Tiles mid after high := by
  induction before generalizing low with
  | nil => simp
  | cons b before ih =>
      simp only [List.cons_append, tiles_cons, ih]
      constructor
      · rintro ⟨hb, mid, hbefore, hafter⟩
        exact ⟨mid, ⟨hb, hbefore⟩, hafter⟩
      · rintro ⟨mid, ⟨hb, hbefore⟩, hafter⟩
        exact ⟨hb, mid, hbefore, hafter⟩

theorem Tiles.sum (h : Tiles low blocks high) : low + (blocks.map Block.size).sum = high := by
  induction blocks generalizing low with
  | nil => exact h
  | cons b blocks ih =>
      have hrest := ih h.2
      rw [List.map_cons, List.sum_cons]
      omega

theorem Tiles.bounds (h : Tiles low blocks high) (hb : b ∈ blocks) :
    low ≤ b.addr ∧ b.addr + b.size ≤ high := by
  induction blocks generalizing low with
  | nil => cases hb
  | cons c blocks ih =>
      obtain ⟨hc, hrest⟩ := h
      rcases List.mem_cons.mp hb with rfl | hb
      · have hsum := hrest.sum
        omega
      · have hbounds := ih hrest hb
        omega

theorem Tiles.apart (h : Tiles low blocks high) (hb : b ∈ blocks) (hc : c ∈ blocks)
    (hne : b ≠ c) : Apart b.addr b.size c.addr c.size := by
  induction blocks generalizing low with
  | nil => cases hb
  | cons d blocks ih =>
      obtain ⟨hd, hrest⟩ := h
      rcases List.mem_cons.mp hb with hbd | hb <;> rcases List.mem_cons.mp hc with hcd | hc
      · exact absurd (hbd.trans hcd.symm) hne
      · have hbounds := hrest.bounds hc
        rw [hbd]
        exact .inl (by omega)
      · have hbounds := hrest.bounds hb
        rw [hcd]
        exact .inr (by omega)
      · exact ih hrest hb hc

theorem Tiles.nodup_addr (h : Tiles low blocks high) (hpos : ∀ b ∈ blocks, 0 < b.size) :
    (blocks.map Block.addr).Nodup := by
  induction blocks generalizing low with
  | nil => exact List.nodup_nil
  | cons b blocks ih =>
      obtain ⟨hb, hrest⟩ := h
      refine List.nodup_cons.mpr ⟨fun hmem => ?_,
        ih hrest fun c hc => hpos c (List.mem_cons_of_mem _ hc)⟩
      obtain ⟨c, hc, haddr⟩ := List.mem_map.mp hmem
      have hbounds := hrest.bounds hc
      have hsize := hpos b List.mem_cons_self
      omega

theorem Tiles.mod_eq {d : Nat} (h : Tiles low blocks high) (hd : ∀ b ∈ blocks, d ∣ b.size)
    (hb : b ∈ blocks) : b.addr % d = low % d := by
  induction blocks generalizing low with
  | nil => cases hb
  | cons c blocks ih =>
      obtain ⟨hc, hrest⟩ := h
      rcases List.mem_cons.mp hb with rfl | hb
      · rw [hc]
      · rw [ih hrest (fun b hb => hd b (List.mem_cons_of_mem _ hb)) hb]
        obtain ⟨k, hk⟩ := hd c List.mem_cons_self
        rw [hk, Nat.add_mul_mod_self_left]

-- What stands at the addresses of the blocks says which blocks they are.
theorem Tiles.unique (read : Nat → Nat × Bool) (h : Tiles low blocks high)
    (h' : Tiles low blocks' high) (hpos : ∀ b ∈ blocks, 0 < b.size)
    (hpos' : ∀ b ∈ blocks', 0 < b.size) (hread : ∀ b ∈ blocks, read b.addr = (b.size, b.free))
    (hread' : ∀ b ∈ blocks', read b.addr = (b.size, b.free)) : blocks = blocks' := by
  induction blocks generalizing low blocks' with
  | nil =>
      cases blocks' with
      | nil => rfl
      | cons c rest' =>
          have hsum := h'.sum
          have hc := hpos' c List.mem_cons_self
          rw [tiles_nil] at h
          rw [List.map_cons, List.sum_cons] at hsum
          omega
  | cons b rest ih =>
      cases blocks' with
      | nil =>
          have hsum := h.sum
          have hb := hpos b List.mem_cons_self
          rw [tiles_nil] at h'
          rw [List.map_cons, List.sum_cons] at hsum
          omega
      | cons c rest' =>
          obtain ⟨hb, hrest⟩ := h
          obtain ⟨hc, hrest'⟩ := h'
          have haddr : b.addr = c.addr := hb.trans hc.symm
          have hsame : b = c := by
            have hreadb := hread b List.mem_cons_self
            rw [haddr, hread' c List.mem_cons_self, Prod.mk.injEq] at hreadb
            exact Block.ext haddr hreadb.1.symm hreadb.2.symm
          subst hsame
          rw [ih hrest hrest' (fun d hd => hpos d (List.mem_cons_of_mem _ hd))
            (fun d hd => hpos' d (List.mem_cons_of_mem _ hd))
            (fun d hd => hread d (List.mem_cons_of_mem _ hd))
            (fun d hd => hread' d (List.mem_cons_of_mem _ hd))]

-- The block at the same place of another range.
def Block.relocate (base base' : Nat) (b : Block) : Block :=
  { b with addr := b.addr - base + base' }

theorem Tiles.relocate {base : Nat} (base' : Nat) (h : Tiles low blocks high) (hlow : base ≤ low) :
    Tiles (low - base + base') (blocks.map (Block.relocate base base')) (high - base + base') := by
  induction blocks generalizing low with
  | nil =>
      rw [tiles_nil] at h
      rw [h]
      exact rfl
  | cons b blocks ih =>
      obtain ⟨hb, hrest⟩ := h
      have hmoved := ih hrest (by omega)
      refine ⟨by rw [Block.relocate, hb], ?_⟩
      rw [show low + b.size - base + base' = low - base + base' + b.size by omega] at hmoved
      exact hmoved

-- The addresses and sizes of the free blocks.
def freed (blocks : List Block) : Set (Nat × Nat) := {e | ⟨e.1, e.2, true⟩ ∈ blocks}

theorem mem_freed {e : Nat × Nat} : e ∈ freed blocks ↔ (⟨e.1, e.2, true⟩ : Block) ∈ blocks :=
  Iff.rfl

theorem freed_append : freed (before ++ after) = freed before ∪ freed after := by
  ext e
  simp [mem_freed]

theorem freed_sides (mid : List Block) :
    freed (before ++ after) ⊆ freed (before ++ mid ++ after) := by
  rw [freed_append, freed_append, freed_append]
  exact Set.union_subset_union_left _ Set.subset_union_left

theorem freed_cons_free {a n : Nat} :
    freed (⟨a, n, true⟩ :: blocks) = insert (a, n) (freed blocks) := by
  ext e
  simp [mem_freed, Prod.ext_iff]

theorem freed_cons_used {a n : Nat} : freed (⟨a, n, false⟩ :: blocks) = freed blocks := by
  ext e
  simp [mem_freed]

-- No two neighbours are free.
def Merged (blocks : List Block) : Prop :=
  blocks.IsChain fun b c => ¬(b.free = true ∧ c.free = true)

theorem merged_append : Merged (before ++ after) ↔ Merged before ∧ Merged after ∧
    ∀ b ∈ before.getLast?, ∀ c ∈ after.head?, ¬(b.free = true ∧ c.free = true) :=
  List.isChain_append

theorem merged_cons : Merged (b :: blocks) ↔
    (∀ c ∈ blocks.head?, ¬(b.free = true ∧ c.free = true)) ∧ Merged blocks :=
  List.isChain_cons

theorem Merged.relocate {base base' : Nat} (h : Merged blocks) :
    Merged (blocks.map (Block.relocate base base')) :=
  List.isChain_map_of_isChain (Block.relocate base base') (fun _ _ hbc => hbc) h

-- With nothing given away there is one block.
theorem Merged.eq_singleton (h : Merged blocks) (hne : blocks ≠ [])
    (hfree : ∀ b ∈ blocks, b.free = true) : ∃ b, blocks = [b] := by
  match blocks, h, hne, hfree with
  | [b], _, _, _ => exact ⟨b, rfl⟩
  | b :: c :: rest, h, _, hfree =>
      have hpair := (List.isChain_cons_cons.mp h).1
      exact absurd ⟨hfree b (by simp), hfree c (by simp)⟩ hpair

def freeSize (blocks : List Block) : Nat := ((blocks.filter Block.free).map Block.size).sum

@[simp] theorem freeSize_nil : freeSize [] = 0 := rfl

@[simp] theorem freeSize_cons :
    freeSize (b :: blocks) = (if b.free then b.size else 0) + freeSize blocks := by
  cases hb : b.free <;> simp [freeSize, hb]

@[simp] theorem freeSize_append :
    freeSize (before ++ after) = freeSize before + freeSize after := by
  simp [freeSize]

-- The blocks that are given away.
def used (blocks : List Block) : List Block := blocks.filter fun b => !b.free

theorem mem_used : b ∈ used blocks ↔ b ∈ blocks ∧ b.free = false := by
  simp [used]

theorem freeSize_add_used (blocks : List Block) :
    freeSize blocks + ((used blocks).map Block.size).sum = (blocks.map Block.size).sum := by
  induction blocks with
  | nil => rfl
  | cons b blocks ih =>
      rw [freeSize_cons, List.map_cons, List.sum_cons, ← ih]
      cases hb : b.free
      · simp only [used, List.filter_cons, hb, Bool.false_eq_true, if_false, Bool.not_false,
          if_true, List.map_cons, List.sum_cons]
        omega
      · simp only [used, List.filter_cons, hb, if_true, Bool.not_true, Bool.false_eq_true, if_false]
        omega

theorem freeSize_le_sum (blocks : List Block) : freeSize blocks ≤ (blocks.map Block.size).sum := by
  induction blocks with
  | nil => simp
  | cons b blocks ih =>
      rw [freeSize_cons, List.map_cons, List.sum_cons]
      split <;> omega

end Watz.Base.Arena
