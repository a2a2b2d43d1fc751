import Watz.Ems.Filing

namespace Watz.Ems

open Base.Layout Base.Words Base.Arena
open Base.LinkedTree
open Base.LinkedList (Chain)

-- What the header of a chunk says.
def Labelled (h : Heap) (b : Block) : Prop :=
  h.hmuGetUt b.addr = (if b.free then .fc else .vo) ∧ h.hmuGetSize b.addr = b.size ∧
    (b.free = false → h.hmuIsVoFreed b.addr = false)

-- What is known of the chunk in front: whether it is in use and, where it is free, its size. In
-- front of the first chunk nothing can be merged.
def Border (h : Heap) (b : Block) : Option Block → Prop
  | none => h.hmuGetPinuse b.addr = true
  | some p => h.hmuGetPinuse b.addr = !p.free ∧
      (p.free = true → load h.mem (p.addr + p.size - 4) 4 = p.size)

def Ranged (h : Heap) : Option Block → List Block → Prop
  | _, [] => True
  | prev, b :: rest => Labelled h b ∧ Border h b prev ∧ Ranged h (some b) rest

-- A chunk has room for its header, a pointer and its size.
def Proper (b : Block) : Prop := GC_SMALLEST_SIZE ≤ b.size ∧ 8 ∣ b.size

-- The heap, as `malloc` and `free` leave it.
structure WellFormed (h : Heap) (blocks : List Block) (file : File) : Prop where
  pool : Pool h
  tiles : Tiles h.baseAddr blocks (h.baseAddr + h.currentSize)
  proper : ∀ b ∈ blocks, Proper b
  ranged : Ranged h none blocks
  merged : Merged blocks
  filed : Filed h file (freed blocks)
  total : h.totalFreeSize = freeSize blocks
  intact : h.isHeapCorrupted = false

-- The header of a chunk and, where it is free, its last word.
def rim (b : Block) : Set Nat :=
  {i | b.addr ≤ i ∧ i < b.addr + b.size ∧
    (i < b.addr + 4 ∨ b.free = true ∧ b.addr + b.size ≤ i + 4)}

-- The object in a chunk.
def payload (b : Block) : Set Nat := Set.Ico (b.addr + 4) (b.addr + b.size)

section Ranged

variable {h h' : Heap} {b c : Block} {prev : Option Block} {blocks before after : List Block}

theorem Proper.large (hb : Proper b) : 16 ≤ b.size := hb.1

theorem head_of_rim (hb : Proper b) (hsame : ∀ i ∈ rim b, h'.mem i = h.mem i) :
    h'.head b.addr = h.head b.addr := by
  have hlarge := hb.large
  exact Heap.head_congr fun i hlow hhigh => hsame i ⟨hlow, by omega, .inl hhigh⟩

theorem footer_of_rim (hb : Proper b) (hfree : b.free = true)
    (hsame : ∀ i ∈ rim b, h'.mem i = h.mem i) :
    load h'.mem (b.addr + b.size - 4) 4 = load h.mem (b.addr + b.size - 4) 4 := by
  have hlarge := hb.large
  exact load_congr fun i hlow hhigh => hsame i ⟨by omega, by omega, .inr ⟨hfree, by omega⟩⟩

theorem labelled_of_head (hl : Labelled h b)
    (hut : (h'.head b.addr).ut = (h.head b.addr).ut)
    (hsize : (h'.head b.addr).size = (h.head b.addr).size)
    (hfreed : (h'.head b.addr).freed = (h.head b.addr).freed) : Labelled h' b :=
  ⟨hut.trans hl.1, hsize.trans hl.2.1, fun hb => hfreed.trans (hl.2.2 hb)⟩

theorem Ranged.congr (hr : Ranged h prev blocks) (hproper : ∀ b ∈ blocks, Proper b)
    (hprev : ∀ p ∈ prev, p.free = true →
      load h'.mem (p.addr + p.size - 4) 4 = load h.mem (p.addr + p.size - 4) 4)
    (hsame : ∀ b ∈ blocks, ∀ i ∈ rim b, h'.mem i = h.mem i) : Ranged h' prev blocks := by
  induction blocks generalizing prev with
  | nil => trivial
  | cons b blocks ih =>
      obtain ⟨hl, hb, hrest⟩ := hr
      have hhead := head_of_rim (hproper b List.mem_cons_self) (hsame b List.mem_cons_self)
      refine ⟨labelled_of_head hl (by rw [hhead]) (by rw [hhead]) (by rw [hhead]), ?_, ?_⟩
      · have hpin : h'.hmuGetPinuse b.addr = h.hmuGetPinuse b.addr := congrArg Header.pinuse hhead
        cases prev with
        | none => exact hpin.trans hb
        | some p => exact ⟨hpin.trans hb.1, fun hp => (hprev p rfl hp).trans (hb.2 hp)⟩
      · apply ih hrest fun c hc => hproper c (List.mem_cons_of_mem _ hc)
        · rintro p hp hfree
          obtain rfl : b = p := Option.some.inj hp
          exact footer_of_rim (hproper b List.mem_cons_self) hfree (hsame b List.mem_cons_self)
        · exact fun c hc => hsame c (List.mem_cons_of_mem _ hc)

theorem ranged_append :
    Ranged h prev (before ++ after) ↔
      Ranged h prev before ∧ Ranged h (before.getLast?.or prev) after := by
  induction before generalizing prev with
  | nil => simp [Ranged]
  | cons b before ih =>
      rw [List.cons_append, Ranged, Ranged, ih]
      have hlast : (b :: before).getLast?.or prev = before.getLast?.or (some b) := by
        cases before <;> simp [List.getLast?_cons_cons]
        rename_i c before
        cases hc : (c :: before).getLast? with
        | none => simp at hc
        | some d => rfl
      rw [hlast]
      tauto

-- The chunk in front is another one. The header of the next chunk says so, and its other fields
-- and all the chunks behind it stay.
theorem Ranged.renext {m : Block} (hr : Ranged h (some c) after) (hproper : ∀ b ∈ after, Proper b)
    (hnext : ∀ d ∈ after.head?, h'.head d.addr = { h.head d.addr with pinuse := !m.free })
    (hfooter : m.free = true → load h'.mem (m.addr + m.size - 4) 4 = m.size)
    (hlast : ∀ d ∈ after.head?,
      load h'.mem (d.addr + d.size - 4) 4 = load h.mem (d.addr + d.size - 4) 4)
    (hsame : ∀ d ∈ after.tail, ∀ i ∈ rim d, h'.mem i = h.mem i) : Ranged h' (some m) after := by
  cases after with
  | nil => trivial
  | cons d rest =>
      obtain ⟨hl, -, hrest⟩ := hr
      have hhead := hnext d rfl
      refine ⟨labelled_of_head hl (by rw [hhead]) (by rw [hhead]) (by rw [hhead]),
        ⟨?_, hfooter⟩, ?_⟩
      · exact congrArg Header.pinuse hhead
      · apply hrest.congr (fun b hb => hproper b (List.mem_cons_of_mem _ hb))
        · rintro p hp -
          obtain rfl : d = p := Option.some.inj hp
          exact hlast d rfl
        · exact hsame

end Ranged

section Tiled

variable {h h' : Heap} {b : Block} {blocks before after : List Block} {a n : Nat}

theorem scattered_of_tiles (htiles : Tiles h.baseAddr blocks (h.baseAddr + h.currentSize))
    (hproper : ∀ b ∈ blocks, Proper b) : Scattered h (freed blocks) := by
  refine ⟨fun e he => htiles.bounds he, fun e he => hproper _ he, fun e he e' he' hne => ?_⟩
  apply htiles.apart he he'
  rintro heq
  exact hne (Prod.ext (congrArg Block.addr heq) (congrArg Block.size heq))

-- The lists and the tree lie in none of these bytes.
theorem not_mem_filing {free : Set (Nat × Nat)} (hpool : Pool h)
    (htiles : Tiles h.baseAddr blocks (h.baseAddr + h.currentSize)) (hb : b ∈ blocks)
    (hsub : free ⊆ freed blocks) {i : Nat} (hlow : b.addr ≤ i) (hhigh : i < b.addr + b.size)
    (hrim : b.free = false ∨ i < b.addr + 4 ∨ b.addr + b.size ≤ i + 4) : i ∉ filing h free := by
  have hbounds := htiles.bounds hb
  rintro (⟨hlow', hhigh'⟩ | ⟨e, he, hlow', hhigh'⟩)
  · have hapart := hpool.root_apart
    rcases hapart with hapart | hapart <;> omega
  · by_cases heq : (⟨e.1, e.2, true⟩ : Block) = b
    · subst heq
      simp only [Bool.true_eq_false, false_or] at hrim
      omega
    · have hapart : Apart e.1 e.2 b.addr b.size := htiles.apart (hsub he) hb heq
      rcases hapart with hapart | hapart <;> omega

theorem rim_not_filing {free : Set (Nat × Nat)} (hpool : Pool h)
    (htiles : Tiles h.baseAddr blocks (h.baseAddr + h.currentSize)) (hb : b ∈ blocks)
    (hsub : free ⊆ freed blocks) : ∀ i ∈ rim b, i ∉ filing h free :=
  fun _ hi => not_mem_filing hpool htiles hb hsub hi.1 hi.2.1 (.inr (hi.2.2.imp_right And.right))

theorem payload_not_filing {free : Set (Nat × Nat)} (hpool : Pool h)
    (htiles : Tiles h.baseAddr blocks (h.baseAddr + h.currentSize)) (hb : b ∈ blocks)
    (hused : b.free = false) (hsub : free ⊆ freed blocks) : ∀ i ∈ payload b, i ∉ filing h free :=
  fun _ hi => not_mem_filing hpool htiles hb hsub (Nat.le_trans (Nat.le_add_right _ 4) hi.1) hi.2
    (.inl hused)

-- The chunks in front of a range of the pool and behind it.
theorem tiles_sides {low high : Nat} {mid : List Block}
    (htiles : Tiles low (before ++ mid ++ after) high) :
    ∃ start stop, Tiles low before start ∧ Tiles start mid stop ∧ Tiles stop after high := by
  obtain ⟨stop, hfront, hafter⟩ := tiles_append.mp htiles
  obtain ⟨start, hbefore, hmid⟩ := tiles_append.mp hfront
  exact ⟨start, stop, hbefore, hmid, hafter⟩

-- A range of chunks and the header behind it change, and the files do.
section Frame

variable {mid : List Block} {low high : Nat} (hpool : Pool h)
  (htiles : Tiles h.baseAddr (before ++ mid ++ after) (h.baseAddr + h.currentSize))
  (hproper : ∀ b ∈ before ++ mid ++ after, Proper b)
  (hbefore : Tiles h.baseAddr before low) (hafter : Tiles high after (h.baseAddr + h.currentSize))
  (hframe : ∀ i ∉ filing h (freed (before ++ mid ++ after)), i < low ∨ high + 4 ≤ i →
    h'.mem i = h.mem i)

include hpool hbefore hafter in
theorem filing_sides : ∀ i ∈ filing h (freed (before ++ after)), i < low ∨ high + 4 ≤ i := by
  have hlow := hbefore.sum
  have hhigh := hafter.sum
  rintro i (⟨hi, hi'⟩ | ⟨e, he, hi, hi'⟩)
  · have hapart := hpool.root_apart
    rcases hapart with hapart | hapart <;> omega
  · rw [freed_append] at he
    rcases he with he | he
    · have hbounds := hbefore.bounds he
      simp only at hbounds
      exact .inl (by omega)
    · have hbounds := hafter.bounds he
      simp only at hbounds
      exact .inr (by omega)

include hpool htiles hproper hbefore hframe in
theorem ranged_front (hr : Ranged h none before) : Ranged h' none before := by
  apply hr.congr
  · exact fun b hb => hproper b (by simp [hb])
  · exact fun p hp => nomatch hp
  · intro b hb i hi
    apply hframe i (rim_not_filing hpool htiles (by simp [hb]) subset_rfl i hi)
    have hbounds := hbefore.bounds hb
    exact .inl (lt_of_lt_of_le hi.2.1 hbounds.2)

include hpool htiles hproper hafter hframe in
theorem ranged_back {c m : Block} (hr : Ranged h (some c) after)
    (hnext : ∀ d ∈ after.head?, h'.head d.addr = { h.head d.addr with pinuse := !m.free })
    (hfooter : m.free = true → load h'.mem (m.addr + m.size - 4) 4 = m.size) :
    Ranged h' (some m) after := by
  cases after with
  | nil => trivial
  | cons d rest =>
      obtain ⟨hd, hrest⟩ := hafter
      have hlarge := (hproper d (by simp)).large
      refine hr.renext (fun b hb => hproper b (List.mem_append_right _ hb)) hnext hfooter ?_ ?_
      · intro d' hd'
        obtain rfl : d = d' := Option.some.inj hd'
        refine load_congr fun i hlow hhigh => hframe i ?_ (.inr (by omega))
        exact not_mem_filing (b := d) hpool htiles (by simp) subset_rfl (by omega) (by omega)
          (.inr (.inr (by omega)))
      · intro b hb i hi
        have hmem : b ∈ rest := hb
        apply hframe i (rim_not_filing hpool htiles (by simp [hmem]) subset_rfl i hi)
        have hbounds := hrest.bounds hmem
        have hlow := hi.1
        exact .inr (by omega)

include hpool htiles hbefore hafter hframe in
theorem payload_kept (hb : b ∈ before ++ after) (hused : b.free = false) :
    ∀ i ∈ payload b, h'.mem i = h.mem i := by
  intro i hi
  have hmem : b ∈ before ++ mid ++ after := by
    simp only [List.mem_append] at hb ⊢
    tauto
  apply hframe i (payload_not_filing hpool htiles hmem hused subset_rfl i hi)
  have hlow : b.addr + 4 ≤ i := hi.1
  have hhigh : i < b.addr + b.size := hi.2
  rcases List.mem_append.mp hb with hb | hb
  · have hbounds := hbefore.bounds hb
    exact .inl (by omega)
  · have hbounds := hafter.bounds hb
    exact .inr (by omega)

end Frame

theorem WellFormed.labelled {file : File} (hwf : WellFormed h blocks file) (hb : b ∈ blocks) :
    Labelled h b := by
  obtain ⟨front, back, rfl⟩ := List.append_of_mem hb
  exact (ranged_append.mp hwf.ranged).2.1

theorem WellFormed.aligned {file : File} (hwf : WellFormed h blocks file) (hb : b ∈ blocks) :
    b.addr % 8 = 4 := by
  rw [hwf.tiles.mod_eq (fun c hc => (hwf.proper c hc).2) hb]
  exact hwf.pool.aligned

theorem WellFormed.freeSize_le {file : File} (hwf : WellFormed h blocks file) :
    freeSize blocks ≤ h.currentSize := by
  have hsum := hwf.tiles.sum
  have hle := freeSize_le_sum blocks
  omega

end Tiled

end Watz.Ems
