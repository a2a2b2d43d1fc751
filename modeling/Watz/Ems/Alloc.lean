import Watz.Ems.Chunks

namespace Watz.Ems

open Base.Layout Base.Words Base.Arena
open Base.LinkedTree
open Base.LinkedList (Chain)

section Carve

variable {h h' : Heap} {blocks before after : List Block} {file : File} {p n k size : Nat}

theorem not_mem_sides {b : Block} {low high : Nat} (htiles : Tiles low (before ++ b :: after) high)
    (hb : 0 < b.size) : b ∉ before ++ after := by
  obtain ⟨start, hbefore, rfl, hafter⟩ := tiles_append.mp htiles
  intro hmem
  rcases List.mem_append.mp hmem with hmem | hmem
  · have hbounds := hbefore.bounds hmem
    omega
  · have hbounds := hafter.bounds hmem
    omega

-- The free chunks without one of them.
theorem freed_erase (hnot : (⟨p, n, true⟩ : Block) ∉ before ++ after) :
    freed (before ++ [⟨p, n, true⟩] ++ after) \ {(p, n)} = freed (before ++ after) := by
  rw [List.append_assoc, List.singleton_append, freed_append, freed_cons_free, freed_append]
  have hmem : (p, n) ∉ freed before ∪ freed after := by
    rw [← freed_append]
    exact hnot
  ext e
  simp only [Set.mem_sdiff, Set.mem_union, Set.mem_insert_iff, Set.mem_singleton_iff] at hmem ⊢
  constructor
  · rintro ⟨he | rfl | he, hne⟩
    · exact .inl he
    · exact absurd rfl hne
    · exact .inr he
  · intro he
    refine ⟨he.imp_right .inr, ?_⟩
    rintro rfl
    exact hmem he

theorem take_total (htotal : size ≤ h.totalFreeSize) (hsmall : h.totalFreeSize < 2 ^ 32) :
    (h.take size).totalFreeSize = h.totalFreeSize - size := by
  simp only [Heap.take]
  omega

-- The heap after a chunk has been taken out of its list or of the tree and cut to `k` bytes. Its
-- header still says that it is free.
structure Carved (h h' : Heap) (before : List Block) (p k : Nat) (rest : List Block)
    (file : File) : Prop where
  same : SamePool h h'
  total : h'.totalFreeSize = freeSize (before ++ rest)
  filed : Filed h' file (freed (before ++ rest))
  head : h'.head p = { h.head p with size := k }
  front : Ranged h' none before
  back : Ranged h' (some ⟨p, k, false⟩) rest
  kept : ∀ b ∈ before ++ rest, b.free = false → ∀ i ∈ payload b, h'.mem i = h.mem i

section Cut

variable {h1 : Heap} {file1 : File}
  (hwf : WellFormed h (before ++ [⟨p, n, true⟩] ++ after) file)
  (hr : Refiled (filing h (freed (before ++ [⟨p, n, true⟩] ++ after))) h h1)
  (hf : Filed h1 file1 (freed (before ++ after)))

include hwf in
theorem WellFormed.chunk :
    Tiles h.baseAddr before p ∧ Tiles (p + n) after (h.baseAddr + h.currentSize) ∧
      Proper ⟨p, n, true⟩ ∧ n ≤ h.totalFreeSize ∧ h.totalFreeSize < 2 ^ 30 := by
  obtain ⟨start, stop, hbefore, ⟨hp, hstop⟩, hafter⟩ := tiles_sides hwf.tiles
  replace hp : p = start := hp
  replace hstop : start + n = stop := hstop
  subst hp hstop
  have htotal := hwf.total
  have hle := hwf.freeSize_le
  have hsmall := hwf.pool.small
  simp only [freeSize_append, freeSize_cons] at htotal hle
  exact ⟨hbefore, hafter, hwf.proper _ (by simp), by simp at htotal; omega, by omega⟩

include hwf hr in
theorem head_refiled {b : Block} (hb : b ∈ before ++ [⟨p, n, true⟩] ++ after) :
    h1.head b.addr = h.head b.addr :=
  head_of_rim (hwf.proper b hb) fun i hi =>
    hr.outside i (rim_not_filing hwf.pool hwf.tiles hb subset_rfl i hi)

-- The chunk behind it is told that it is in use.
def marked (h : Heap) (next : Nat) : Heap :=
  if h.hmuIsInHeap next then h.hmuMarkPinuse next else h

theorem marked_outside {next i : Nat} (hi : i < next ∨ next + 4 ≤ i) :
    (marked h next).mem i = h.mem i := by
  rw [marked]
  split
  · exact Heap.setHeader_outside _ hi
  · rfl

theorem same_marked {next : Nat} : marked h next = { h with mem := (marked h next).mem } := by
  rw [marked]
  split <;> rfl

theorem samePool_marked {next : Nat} : SamePool h (marked h next) := by
  rw [same_marked]
  exact ⟨rfl, rfl, rfl, rfl⟩

include hwf hr in
theorem head_marked {d : Block} (hd : d ∈ after.head?) :
    (marked h1 (p + n)).head d.addr = { h.head d.addr with pinuse := true } := by
  obtain ⟨-, hafter, -, -⟩ := hwf.chunk
  obtain ⟨rest, rfl⟩ : ∃ rest, after = d :: rest := by
    cases after with
    | nil => cases hd
    | cons c rest => exact ⟨rest, by rw [Option.some.inj hd]⟩
  obtain ⟨haddr, hrest⟩ := hafter
  have hlarge := (hwf.proper d (by simp)).large
  have hbounds := hwf.tiles.bounds (b := d) (by simp)
  have hin : h1.hmuIsInHeap d.addr = true := by
    rw [hr.samePool.inHeap]
    exact inHeap_iff.mpr ⟨hbounds.1, by omega⟩
  rw [← haddr, marked, if_pos hin, Heap.head_hmuMarkPinuse, head_refiled hwf hr (by simp)]

-- The chunk is given away whole.
include hwf hr hf in
theorem cutChunk_whole :
    ∃ h2, cutChunk h1 p n size false = some (p, h2) ∧ Carved h h2 before p n after file1 := by
  obtain ⟨hbefore, hafter, hproper, htotal, hsmall⟩ := hwf.chunk
  have hlarge : 16 ≤ n := hproper.large
  have hlt : n < 2 ^ 30 := by omega
  have hself := head_refiled hwf hr (b := ⟨p, n, true⟩) (by simp)
  have hsame : ∀ i, (i < p ∨ p + 4 ≤ i) → (i < p + n ∨ p + n + 4 ≤ i) →
      (((marked h1 (p + n)).take n).hmuSetSize p n).mem i = h1.mem i := fun i hi hi' =>
    (Heap.setHeader_outside _ hi).trans (marked_outside hi')
  have hframe : ∀ i ∉ filing h (freed (before ++ [⟨p, n, true⟩] ++ after)),
      i < p ∨ p + n + 4 ≤ i → (((marked h1 (p + n)).take n).hmuSetSize p n).mem i = h.mem i := by
    intro i hi hout
    rw [hsame i (by omega) (by omega), hr.outside i hi]
  have hpool := hr.samePool.pool hwf.pool
  refine ⟨((marked h1 (p + n)).take n).hmuSetSize p n, rfl, ?_, ?_, ?_, ?_, ?_, ?_, ?_⟩
  · exact hr.samePool.trans (samePool_marked.trans ⟨rfl, rfl, rfl, rfl⟩)
  · have htotal1 : (marked h1 (p + n)).totalFreeSize = h.totalFreeSize := by
      rw [same_marked]
      exact hr.totalFreeSize
    have hmain := hwf.total
    simp only [freeSize_append, freeSize_cons, freeSize_nil] at hmain ⊢
    refine (take_total (by omega) (by omega)).trans ?_
    simp at hmain
    omega
  · have hscattered := (scattered_of_tiles hwf.tiles hwf.proper).subset (freed_sides _)
    apply hf.congr (hr.samePool.scattered hscattered)
    · change (marked h1 (p + n)).kfcNormalList = h1.kfcNormalList
      rw [same_marked]
    · exact samePool_marked.root
    · intro i hi
      rw [hr.samePool.filing] at hi
      have hout := filing_sides hwf.pool hbefore hafter i hi
      exact hsame i (by omega) (by omega)
  · have hhead : ((marked h1 (p + n)).take n).head p = h.head p := by
      refine (Heap.head_congr (h := h1) fun i hlow hhigh => ?_).trans hself
      exact marked_outside (by omega)
    rw [Heap.head_hmuSetSize hlt hproper.2, hhead]
  · have hranged := ((ranged_append.mp ((ranged_append.mp hwf.ranged).1)).1)
    exact ranged_front hwf.pool hwf.tiles hwf.proper hbefore hframe hranged
  · have hranged := (ranged_append.mp hwf.ranged).2
    rw [List.getLast?_append, List.getLast?_singleton, Option.some_or, Option.some_or] at hranged
    refine ranged_back hwf.pool hwf.tiles hwf.proper hafter hframe hranged ?_ (by simp)
    intro d hd
    have hbounds := hafter.bounds (List.mem_of_mem_head? hd)
    refine (Heap.head_congr fun i hlow hhigh => ?_).trans (head_marked hwf hr hd)
    exact Heap.setHeader_outside _ (by omega)
  · intro b hb hused
    exact payload_kept hwf.pool hwf.tiles hbefore hafter hframe hb hused

section Remainder

variable (h8 : 8 ∣ size) (hsize : 16 ≤ size) (hcut : size + 16 ≤ n)

include hwf h8 hsize hcut in
-- The chunks after the cut.
theorem WellFormed.cut :
    Tiles h.baseAddr (before ++ [⟨p, size, false⟩] ++ ⟨p + size, n - size, true⟩ :: after)
        (h.baseAddr + h.currentSize) ∧
      ∀ b ∈ before ++ [⟨p, size, false⟩] ++ ⟨p + size, n - size, true⟩ :: after, Proper b := by
  obtain ⟨hbefore, hafter, hproper, -, -⟩ := hwf.chunk
  constructor
  · rw [List.append_assoc, tiles_append]
    refine ⟨p, hbefore, rfl, rfl, ?_⟩
    rwa [show p + size + (n - size) = p + n by omega]
  · intro b hb
    have hrest : 8 ∣ n - size := Nat.dvd_sub hproper.2 h8
    have hlarge : 16 ≤ n - size := by omega
    simp only [List.append_assoc, List.mem_append, List.mem_cons, List.not_mem_nil, or_false] at hb
    rcases hb with hb | rfl | rfl | hb
    · exact hwf.proper b (by simp [hb])
    · exact ⟨hsize, h8⟩
    · exact ⟨hlarge, hrest⟩
    · exact hwf.proper b (by simp [hb])

theorem freed_remainder :
    freed (before ++ ⟨p + size, n - size, true⟩ :: after) =
      insert (p + size, n - size) (freed (before ++ after)) := by
  rw [freed_append, freed_cons_free, freed_append, Set.union_insert]

theorem freed_cut :
    freed (before ++ [⟨p, size, false⟩] ++ ⟨p + size, n - size, true⟩ :: after) =
      insert (p + size, n - size) (freed (before ++ after)) := by
  rw [List.append_assoc, List.singleton_append, freed_append, freed_cons_used, ← freed_append,
    freed_remainder]

-- The chunk is given away up to the cut; the rest is told so.
def cutAt (h : Heap) (p size : Nat) : Heap :=
  ((h.hmuMarkPinuse (p + size)).take size).hmuSetSize p size

theorem cutAt_outside {h : Heap} {i : Nat} (hhead : i < p ∨ p + 4 ≤ i)
    (hrest : i < p + size ∨ p + size + 4 ≤ i) : (cutAt h p size).mem i = h.mem i :=
  (Heap.setHeader_outside _ hhead).trans (Heap.setHeader_outside _ hrest)

include hwf h8 hsize hcut in
theorem WellFormed.cut_scattered :
    Scattered h (insert (p + size, n - size) (freed (before ++ after))) ∧
      (p + size, n - size) ∉ freed (before ++ after) := by
  obtain ⟨htiles', hproper'⟩ := hwf.cut h8 hsize hcut
  constructor
  · rw [← freed_cut]
    exact scattered_of_tiles htiles' hproper'
  · intro hmem
    apply not_mem_sides htiles' (by simp only; omega)
    have hor := List.mem_append.mp (mem_freed.mp hmem)
    simp only [List.mem_append]
    tauto

variable {h2 : Heap} (hadd : Added h1 h2 (p + size) (n - size) (freed (before ++ after)))

include hr h8 hsize hcut hadd in
theorem cutAt_kept {i : Nat} (hi : i ∉ filing h (freed (before ++ [⟨p, n, true⟩] ++ after)))
    (hout : i < p ∨ p + n ≤ i) : (cutAt h2 p size).mem i = h.mem i := by
  rw [cutAt_outside (by omega) (by omega), hadd.kept hr.samePool (freed_sides _) hi (by omega),
    hr.outside i hi]

include hwf hr h8 hsize hcut hadd in
theorem cutAt_head : (cutAt h2 p size).head p = { h.head p with size := size } := by
  obtain ⟨hbefore, hafter, -, htotal, hsmall⟩ := hwf.chunk
  have hhead : ((h2.hmuMarkPinuse (p + size)).take size).head p = h.head p := by
    refine (Heap.head_congr (h := h1) fun i hlow hhigh => ?_).trans
      (head_refiled hwf hr (b := ⟨p, n, true⟩) (by simp))
    refine (Heap.setHeader_outside _ (by omega)).trans (hadd.refiled.outside i ?_)
    rintro (hfiling | ⟨hlow', hhigh'⟩)
    · rw [hr.samePool.filing] at hfiling
      have hout := filing_sides hwf.pool hbefore hafter i hfiling
      omega
    · omega
  rw [cutAt, Heap.head_hmuSetSize (by omega) h8, hhead]

include hwf hr h8 hsize hcut hadd in
-- The rest and the chunks behind it.
theorem cutAt_ranged {m : Block} (hused : m.free = false) :
    Ranged (cutAt h2 p size) (some m) (⟨p + size, n - size, true⟩ :: after) := by
  obtain ⟨-, hafter, -, -, -⟩ := hwf.chunk
  have hranged := (ranged_append.mp hwf.ranged).2
  rw [List.getLast?_append, List.getLast?_singleton, Option.some_or, Option.some_or] at hranged
  have hhead : (cutAt h2 p size).head (p + size) =
      { h1.head (p + size) with ut := .fc, size := n - size, pinuse := true } := by
    refine (Heap.head_congr (h := h2.hmuMarkPinuse (p + size)) fun i hlow hhigh => ?_).trans ?_
    · exact Heap.setHeader_outside _ (by omega)
    · rw [Heap.head_hmuMarkPinuse, hadd.head]
  refine ⟨⟨congrArg Header.ut hhead, congrArg Header.size hhead, fun hfree => nomatch hfree⟩,
    ⟨(congrArg Header.pinuse hhead).trans (by rw [hused]; rfl), fun hfree => ?_⟩, ?_⟩
  · rw [hused] at hfree
    cases hfree
  have hframe : ∀ i ∉ filing h (freed (before ++ [⟨p, n, true⟩] ++ after)),
      i < p ∨ p + n + 4 ≤ i → (cutAt h2 p size).mem i = h.mem i := fun i hi hout =>
    cutAt_kept hr h8 hsize hcut hadd hi (by omega)
  refine ranged_back hwf.pool hwf.tiles hwf.proper hafter hframe hranged ?_ ?_
  · intro d hd
    have hmem := List.mem_of_mem_head? hd
    have hbounds := hafter.bounds hmem
    have hpin : h.hmuGetPinuse d.addr = false := by
      cases after with
      | nil => cases hd
      | cons c rest =>
          obtain rfl : c = d := Option.some.inj hd
          exact hranged.2.1.1
    refine (head_of_rim (h := h) (hwf.proper d (by simp [hmem])) fun i hi => ?_).trans ?_
    · have hlow := hi.1
      exact cutAt_kept hr h8 hsize hcut hadd
        (rim_not_filing hwf.pool hwf.tiles (by simp [hmem]) subset_rfl i hi) (.inr (by omega))
    · simp only [Heap.head, hpin, Bool.not_true]
  · intro _
    refine (load_congr fun i hlow hhigh => ?_).trans hadd.footer
    exact cutAt_outside (by simp only at hlow; omega) (by simp only at hlow; omega)

-- The chunk is cut, and the rest of it is filed.
include hwf hr hf h8 hsize hcut in
theorem cutChunk_cut :
    ∃ h2 file2, cutChunk h1 p n size true = some (p, h2) ∧
      Carved h h2 before p size (⟨p + size, n - size, true⟩ :: after) file2 := by
  obtain ⟨hbefore, hafter, -, htotal, hsmall⟩ := hwf.chunk
  obtain ⟨htiles', hproper'⟩ := hwf.cut h8 hsize hcut
  obtain ⟨hscattered, hnew⟩ := hwf.cut_scattered h8 hsize hcut
  obtain ⟨h2, file2, hrun, hf2, hadd⟩ := gciAddFc_filed (hr.samePool.pool hwf.pool)
    (hr.samePool.scattered hscattered) hf hnew
  have hframe : ∀ i ∉ filing h (freed (before ++ [⟨p, n, true⟩] ++ after)),
      i < p ∨ p + n + 4 ≤ i → (cutAt h2 p size).mem i = h.mem i := fun i hi hout =>
    cutAt_kept hr h8 hsize hcut hadd hi (by omega)
  have hpools : SamePool h h2 := hr.samePool.trans hadd.refiled.samePool
  refine ⟨cutAt h2 p size, file2, ?_, ?_, ?_, ?_, ?_, ?_, ?_, ?_⟩
  · simp only [cutChunk, if_true, hrun]
    rfl
  · exact hpools.trans ⟨rfl, rfl, rfl, rfl⟩
  · have htotal2 : (h2.hmuMarkPinuse (p + size)).totalFreeSize = h.totalFreeSize :=
      hadd.refiled.totalFreeSize.trans hr.totalFreeSize
    have hmain := hwf.total
    simp only [freeSize_append, freeSize_cons, freeSize_nil, if_true] at hmain ⊢
    refine (take_total (h := h2.hmuMarkPinuse (p + size)) ?_ ?_).trans ?_ <;> omega
  · rw [freed_remainder]
    refine hf2.congr (hpools.scattered hscattered) rfl rfl fun i hi => ?_
    rw [hpools.filing, ← freed_cut] at hi
    apply cutAt_outside
    · by_contra hin
      exact not_mem_filing hwf.pool htiles' (b := ⟨p, size, false⟩) (by simp) subset_rfl
        (by simp only; omega) (by simp only; omega) (.inl rfl) hi
    · by_contra hin
      exact not_mem_filing hwf.pool htiles' (b := ⟨p + size, n - size, true⟩) (by simp) subset_rfl
        (by simp only; omega) (by simp only; omega) (.inr (.inl (by simp only; omega))) hi
  · exact cutAt_head hwf hr h8 hsize hcut hadd
  · have hranged := ((ranged_append.mp ((ranged_append.mp hwf.ranged).1)).1)
    exact ranged_front hwf.pool hwf.tiles hwf.proper hbefore hframe hranged
  · exact cutAt_ranged hwf hr h8 hsize hcut hadd rfl
  · intro b hb hused
    apply payload_kept hwf.pool hwf.tiles hbefore hafter hframe _ hused
    simp only [List.mem_append, List.mem_cons] at hb ⊢
    rcases hb with hb | rfl | hb
    · exact .inl hb
    · cases hused
    · exact .inr hb

end Remainder

-- The size that a chunk of `n` bytes is cut to, and the chunks behind it.
def trim (p n need : Nat) (after : List Block) : Nat × List Block :=
  if need + GC_SMALLEST_SIZE ≤ n then (need, ⟨p + need, n - need, true⟩ :: after) else (n, after)

theorem trim_bounds (p : Nat) (after : List Block) {need : Nat} (hn : need ≤ n) :
    need ≤ (trim p n need after).1 ∧ (trim p n need after).1 ≤ n ∧
      after ⊆ (trim p n need after).2 := by
  rw [trim]
  split
  · exact ⟨le_rfl, hn, List.subset_cons_self _ _⟩
  · exact ⟨hn, le_rfl, List.Subset.refl _⟩

include hwf hr hf in
theorem cutChunk_eq (cut : Bool) (h8 : 8 ∣ size) (hsize : 16 ≤ size)
    (hcut : cut = decide (size + GC_SMALLEST_SIZE ≤ n)) :
    ∃ h2 file2, cutChunk h1 p n size cut = some (p, h2) ∧
      Carved h h2 before p (trim p n size after).1 (trim p n size after).2 file2 := by
  by_cases hle : size + GC_SMALLEST_SIZE ≤ n
  · rw [decide_eq_true hle] at hcut
    rw [trim, if_pos hle, hcut]
    exact cutChunk_cut hwf hr hf h8 hsize hle
  · rw [decide_eq_false hle] at hcut
    rw [trim, if_neg hle, hcut]
    obtain ⟨h2, hrun, hcarved⟩ := cutChunk_whole hwf hr hf
    exact ⟨h2, file1, hrun, hcarved⟩

end Cut

end Carve

section Find

variable {h : Heap} {blocks : List Block} {file : File} {need : Nat}

theorem firstList_eq_some {i index : Nat} (hfirst : firstList h i = some index) :
    i ≤ index ∧ index < 32 ∧ h.kfcNormalList index ≠ 0 ∧
      ∀ j, i ≤ j → j < index → h.kfcNormalList j = 0 := by
  obtain ⟨hp, hmem, hbelow⟩ := List.find?_range'_eq_some.mp hfirst
  rw [List.mem_range'_1, show HMU_NORMAL_NODE_CNT = 32 from rfl] at hmem
  refine ⟨by omega, by omega, by simpa using hp, fun j hj hj' => ?_⟩
  simpa using hbelow j hj hj'

theorem firstList_eq_none {i : Nat} (hfirst : firstList h i = none) :
    ∀ j, i ≤ j → j < 32 → h.kfcNormalList j = 0 := by
  intro j hj hj'
  have hnone := List.find?_range'_eq_none.mp hfirst j hj
  rw [show HMU_NORMAL_NODE_CNT = 32 from rfl] at hnone
  simpa using hnone (by omega)

-- A free chunk is in the list or in the tree by its size.
theorem Filed.head_ne {free : Set (Nat × Nat)} (hf : Filed h file free) {a i : Nat}
    (he : (a, 8 * i) ∈ free) (hsmall : 8 * i < 248) : h.kfcNormalList i ≠ 0 := by
  intro hzero
  have hmem := (hf.mem_list i a).mpr ⟨he, hsmall⟩
  have hchain := hf.chain i
  rw [hzero] at hchain
  rw [hchain.eq_nil] at hmem
  cases hmem

theorem Filed.head_mem {free : Set (Nat × Nat)} (hf : Filed h file free) {i : Nat}
    (hne : h.kfcNormalList i ≠ 0) :
    (h.kfcNormalList i, 8 * i) ∈ free ∧ 8 * i < 248 ∧
      ∃ rest, file.lists i = h.kfcNormalList i :: rest := by
  obtain ⟨rest, hrest⟩ := (hf.chain i).head hne
  obtain ⟨hmem, hsmall⟩ := (hf.mem_list i _).mp (by rw [hrest]; exact List.mem_cons_self)
  exact ⟨hmem, hsmall, rest, hrest⟩

-- The best fit has been cut to the size, or there is no chunk large enough.
def Fitted (h : Heap) (blocks : List Block) (need : Nat) (result : Option (Nat × Heap)) : Prop :=
  (result = some (0, h) ∧ ∀ e ∈ freed blocks, e.2 < need) ∨
    ∃ before p n after h' file', blocks = before ++ [⟨p, n, true⟩] ++ after ∧ need ≤ n ∧
      (∀ e ∈ freed blocks, need ≤ e.2 → n ≤ e.2) ∧ result = some (p, h') ∧
      Carved h h' before p (trim p n need after).1 (trim p n need after).2 file'

theorem split_of_mem_freed {p n : Nat} (he : (p, n) ∈ freed blocks) :
    ∃ before after, blocks = before ++ [⟨p, n, true⟩] ++ after := by
  obtain ⟨before, after, hsplit⟩ := List.append_of_mem (mem_freed.mp he)
  exact ⟨before, after, by rw [hsplit, List.append_assoc, List.singleton_append]⟩

theorem WellFormed.freed_rest {before after : List Block} {p n : Nat}
    (hwf : WellFormed h (before ++ [⟨p, n, true⟩] ++ after) file) :
    freed (before ++ [⟨p, n, true⟩] ++ after) \ {(p, n)} = freed (before ++ after) := by
  have hlarge := (hwf.proper ⟨p, n, true⟩ (by simp)).large
  have htiles := hwf.tiles
  rw [List.append_assoc, List.singleton_append] at htiles
  exact freed_erase (not_mem_sides htiles (by simp only at hlarge ⊢; omega))

theorem allocFromTree_fitted (hwf : WellFormed h blocks file) (h8 : 8 ∣ need) (hneed : 16 ≤ need)
    (hlarge : ∀ e ∈ freed blocks, need ≤ e.2 → 248 ≤ e.2) :
    Fitted h blocks need (allocFromTree h need) := by
  have hs := scattered_of_tiles hwf.tiles hwf.proper
  have hf := hwf.filed
  have hlen : file.tree.entries.length < h.rounds := by
    have hle := hs.length_le hf.distinct fun b hb => (hf.mem_addresses hb).imp fun m hm => hm.1
    rw [KeyTree.addresses, List.length_map] at hle
    rw [Heap.rounds]
    omega
  have hbest := bestLoop_eq need 0 hf.tree (hf.sited hwf.pool hs).inHeap hlen
  rw [allocFromTree, hbest]
  cases hleast : file.tree.atLeast need with
  | none =>
      refine .inl ⟨rfl, fun e he => ?_⟩
      by_contra hle
      have hmem := (hf.mem_tree e).mpr ⟨he, hlarge e he (by omega)⟩
      exact hle (KeyTree.atLeast_eq_none hf.ordered hleast e hmem)
  | some e =>
      obtain ⟨p, n⟩ := e
      obtain ⟨hmem, hle, hmin⟩ := KeyTree.atLeast_eq_some hf.ordered hleast
      obtain ⟨he, hn⟩ := (hf.mem_tree _).mp hmem
      have hpos : p ≠ 0 := by
        have hbounds := hs.bounds he
        have hbase := hwf.pool.base_pos
        omega
      obtain ⟨h1, file1, hrun, hf1, hr, hsize⟩ := removeTreeNode_filed hwf.pool hs hf he hn
      obtain ⟨before, after, rfl⟩ := split_of_mem_freed he
      rw [hwf.freed_rest] at hf1
      obtain ⟨h2, file2, hcut, hcarved⟩ := cutChunk_eq hwf hr hf1 _ h8 hneed rfl
      refine .inr ⟨before, p, n, after, h2, file2, rfl, hle, ?_, ?_, hcarved⟩
      · intro e' he' hle'
        exact hmin e' ((hf.mem_tree e').mpr ⟨he', hlarge e' he' hle'⟩) hle'
      · simp only [Option.map_some, Option.getD_some, if_neg hpos, hrun, hsize]
        exact hcut

theorem allocHmu_fitted {size : Nat} (hwf : WellFormed h blocks file) (h8 : 8 ∣ size) :
    Fitted h blocks (max size GC_SMALLEST_SIZE) (allocHmu h size) := by
  have hs := scattered_of_tiles hwf.tiles hwf.proper
  have hf := hwf.filed
  have hneed : 16 ≤ max size GC_SMALLEST_SIZE := le_max_right _ _
  have h8' : 8 ∣ max size GC_SMALLEST_SIZE := by
    rcases max_choice size GC_SMALLEST_SIZE with heq | heq
    · rwa [heq]
    · rw [heq]
      decide
  simp only [allocHmu]
  generalize max size GC_SMALLEST_SIZE = need at hneed h8' ⊢
  obtain ⟨k, rfl⟩ := h8'
  have hshift : (8 * k) >>> 3 = k := by
    rw [Nat.shiftRight_eq_div_pow]
    omega
  rw [hshift]
  cases hfirst : (if HMU_IS_FC_NORMAL (8 * k) = true then firstList h k else none) with
  | none =>
      refine allocFromTree_fitted hwf ⟨k, rfl⟩ hneed fun e he hle => ?_
      by_contra hsmall
      obtain ⟨i, hi⟩ := (hs.large e he).2
      have he' : (e.1, 8 * i) ∈ freed blocks := hi ▸ he
      rw [if_pos (isFcNormal_iff.mpr (by omega))] at hfirst
      exact hf.head_ne he' (by omega) (firstList_eq_none hfirst i (by omega) (by omega))
  | some index =>
      by_cases hnormal : HMU_IS_FC_NORMAL (8 * k) = true
      case neg =>
        rw [if_neg hnormal] at hfirst
        cases hfirst
      rw [if_pos hnormal] at hfirst
      obtain ⟨hk, h32, hne, hbelow⟩ := firstList_eq_some hfirst
      obtain ⟨he, hsmall, tail, hlist⟩ := hf.head_mem hne
      have hbounds := hs.bounds he
      have hf1 := hf.unlist_head hwf.pool hs hlist hsmall
      have hr : Refiled (filing h (freed blocks)) h (h.setNormalHead index
          (h.getHmuNormalNodeNext (h.kfcNormalList index))) := ⟨rfl, fun i _ => rfl⟩
      have haligned : (h.kfcNormalList index + HMU_SIZE) % 8 = 0 := by
        have hmod := hwf.aligned he
        rw [show HMU_SIZE = 4 from rfl]
        simp only at hmod
        omega
      obtain ⟨before, after, hsplit⟩ := split_of_mem_freed he
      subst hsplit
      rw [hwf.freed_rest] at hf1
      obtain ⟨h2, file2, hcut, hcarved⟩ := cutChunk_eq hwf hr hf1
        (decide (index ≠ k) && decide (8 * k + GC_SMALLEST_SIZE ≤ 8 * index)) ⟨k, rfl⟩ hneed (by
          rw [show GC_SMALLEST_SIZE = 16 from rfl, Bool.eq_iff_iff]
          simp only [Bool.and_eq_true, decide_eq_true_iff]
          omega)
      refine .inr ⟨before, _, _, after, h2, file2, rfl, by omega, ?_, ?_, hcarved⟩
      · intro e' he' hle'
        by_contra hlt
        obtain ⟨i, hi⟩ := (hs.large e' he').2
        have he'' : (e'.1, 8 * i) ∈ freed (before ++ [⟨h.kfcNormalList index, 8 * index, true⟩] ++
          after) := hi ▸ he'
        exact hf.head_ne he'' (by omega) (hbelow i (by omega) (by omega))
      · have hin := hs.inHeap he
        simp only [hin, haligned]
        rw [show index <<< 3 = 8 * index by rw [Nat.shiftLeft_eq]; omega]
        exact hcut

end Find

section Give

variable {h : Heap} {before after : List Block} {file : File} {p n need : Nat}
  (hwf : WellFormed h (before ++ [⟨p, n, true⟩] ++ after) file) (h8 : 8 ∣ need) (hneed : 16 ≤ need)

include hwf h8 hneed in
-- The chunks after a part of one has been given away.
theorem WellFormed.trim :
    Tiles h.baseAddr (before ++ ⟨p, (trim p n need after).1, false⟩ :: (trim p n need after).2)
        (h.baseAddr + h.currentSize) ∧
      (∀ b ∈ before ++ ⟨p, (trim p n need after).1, false⟩ :: (trim p n need after).2, Proper b) ∧
      Merged (before ++ ⟨p, (trim p n need after).1, false⟩ :: (trim p n need after).2) := by
  obtain ⟨hbefore, hafter, hproper, -, -⟩ := hwf.chunk
  have hmerged := hwf.merged
  rw [List.append_assoc, List.singleton_append, merged_append, merged_cons] at hmerged
  obtain ⟨hm, ⟨hnext, hm'⟩, hlast⟩ := hmerged
  have hused : ∀ (k : Nat) (rest : List Block), Merged rest →
      Merged (before ++ ⟨p, k, false⟩ :: rest) := fun k rest hrest =>
    merged_append.mpr ⟨hm, merged_cons.mpr ⟨by simp, hrest⟩, by simp⟩
  rw [Ems.trim]
  split
  case isTrue hcut =>
    obtain ⟨htiles', hproper'⟩ := hwf.cut h8 hneed hcut
    rw [List.append_assoc, List.singleton_append] at htiles' hproper'
    exact ⟨htiles', hproper', hused _ _ (merged_cons.mpr ⟨hnext, hm'⟩)⟩
  case isFalse hcut =>
    refine ⟨tiles_append.mpr ⟨p, hbefore, rfl, hafter⟩, ?_, hused _ _ hm'⟩
    intro b hb
    simp only [List.mem_append, List.mem_cons] at hb
    rcases hb with hb | rfl | hb
    · exact hwf.proper b (by simp [hb])
    · exact hproper
    · exact hwf.proper b (by simp [hb])

include hwf in
-- The header says at last that the chunk is in use. Nothing outside of the chunk changes.
theorem Carved.give {h1 h2 : Heap} {k : Nat} {rest : List Block} {file1 : File}
    (hcarved : Carved h h1 before p k rest file1)
    (htiles : Tiles h.baseAddr (before ++ ⟨p, k, false⟩ :: rest) (h.baseAddr + h.currentSize))
    (hproper : ∀ b ∈ before ++ ⟨p, k, false⟩ :: rest, Proper b)
    (hmerged : Merged (before ++ ⟨p, k, false⟩ :: rest)) (hsame : SamePool h1 h2)
    (hlists : h2.kfcNormalList = h1.kfcNormalList) (htotal : h2.totalFreeSize = h1.totalFreeSize)
    (hhead : h2.head p = { h.head p with ut := .vo, freed := false, size := k })
    (hmem : ∀ i, i < p ∨ p + k ≤ i → h2.mem i = h1.mem i) :
    WellFormed h2 (before ++ ⟨p, k, false⟩ :: rest) file1 := by
  have hpool := hwf.pool
  have hpools := hcarved.same.trans hsame
  obtain ⟨start, hbefore, hp, hrest⟩ := tiles_append.mp htiles
  replace hp : p = start := hp
  subst hp
  replace hrest : Tiles (p + k) rest (h.baseAddr + h.currentSize) := hrest
  have hfreed : freed (before ++ ⟨p, k, false⟩ :: rest) = freed (before ++ rest) := by
    rw [freed_append, freed_cons_used, freed_append]
  refine ⟨hpools.pool hpool, ?_, hproper, ?_, hmerged, ?_, ?_, ?_⟩
  · rwa [hpools.base, hpools.current]
  · rw [ranged_append]
    refine ⟨?_, ⟨congrArg Header.ut hhead, congrArg Header.size hhead, fun _ =>
      congrArg Header.freed hhead⟩, ?_, ?_⟩
    · apply hcarved.front.congr (fun b hb => hproper b (by simp [hb])) (fun q hq => nomatch hq)
      intro b hb i hi
      have hbounds := hbefore.bounds hb
      have hhigh := hi.2.1
      exact hmem i (.inl (by omega))
    · -- the chunk in front is the same, and it is in use
      have hranged := (ranged_append.mp (ranged_append.mp hwf.ranged).1).2.2.1
      have hpin : h2.hmuGetPinuse p = h.hmuGetPinuse p := congrArg Header.pinuse hhead
      have hlast := (merged_append.mp (merged_append.mp hwf.merged).1).2.2
      cases hprev : before.getLast? with
      | none =>
          rw [hprev] at hranged
          exact hpin.trans hranged
      | some q =>
          rw [hprev] at hranged
          refine ⟨hpin.trans hranged.1, fun hq => ?_⟩
          exact absurd ⟨hq, rfl⟩ (hlast q hprev ⟨p, n, true⟩ rfl)
    · apply hcarved.back.congr (fun b hb => hproper b (by simp [hb]))
      · rintro q hq hfree
        obtain rfl : (⟨p, k, false⟩ : Block) = q := Option.some.inj hq
        cases hfree
      · intro b hb i hi
        have hbounds := hrest.bounds hb
        have hlow := hi.1
        exact hmem i (.inr (by omega))
  · rw [hfreed]
    refine hcarved.filed.congr ?_ hlists hsame.root fun i hi => ?_
    · apply hcarved.same.scattered
      rw [← hfreed]
      exact scattered_of_tiles htiles hproper
    · rw [hcarved.same.filing, ← hfreed] at hi
      apply hmem
      by_contra hin
      exact not_mem_filing hpool htiles (b := ⟨p, k, false⟩) (by simp) subset_rfl
        (by simp only; omega) (by simp only; omega) (.inl rfl) hi
  · rw [htotal, hcarved.total]
    simp
  · rw [hpools.intact]
    exact hwf.intact

end Give

section Malloc

variable {h : Heap} {blocks : List Block} {file : File} {size : Nat}

-- The sizes wrap around at the top.
theorem totSize_of_fits (hfits : size + 11 < 2 ^ 32) :
    totSizeUnaligned size = size + 4 ∧ totSize size = (size + 11) / 8 * 8 := by
  have hunaligned : totSizeUnaligned size = size + 4 := by
    rw [totSizeUnaligned, show HMU_SIZE = 4 from rfl]
    omega
  refine ⟨hunaligned, ?_⟩
  rw [totSize, hunaligned, GC_ALIGN_8]
  omega

theorem totSize_of_wraps (hsize : size < 2 ^ 32) (hwraps : 2 ^ 32 ≤ size + 11) :
    totSize size < size := by
  rw [totSize, totSizeUnaligned, GC_ALIGN_8, show HMU_SIZE = 4 from rfl]
  omega

-- The bytes that a new object needs of its chunk.
def needed (size : Nat) : Nat := max (totSize size) GC_SMALLEST_SIZE

-- The heap after `malloc`: the smallest chunk that is large enough has been cut to the size, and
-- no other object has changed.
structure Allocated (h : Heap) (blocks : List Block) (size obj : Nat) (h' : Heap)
    (blocks' : List Block) (file' : File) : Prop where
  exists_chunk : ∃ before p n after, blocks = before ++ [⟨p, n, true⟩] ++ after ∧ obj = p + 4 ∧
    size + 4 ≤ n ∧ (∀ e ∈ freed blocks, size + 4 ≤ e.2 → n ≤ e.2) ∧
    blocks' = before ++ ⟨p, (trim p n (needed size) after).1, false⟩ ::
      (trim p n (needed size) after).2
  wellFormed : WellFormed h' blocks' file'
  same : SamePool h h'
  kept : ∀ b ∈ blocks, b.free = false → ∀ i ∈ payload b, h'.mem i = h.mem i

-- The last steps: the header says that the chunk is in use, and else only its object changes.
structure Finished (h h' : Heap) (p : Nat) : Prop where
  same : h' = { h with mem := h'.mem }
  head : h'.head p = { h.head p with ut := .vo, freed := false }
  outside : ∀ i, i < p ∨ p + h.hmuGetSize p ≤ i → h'.mem i = h.mem i

-- The chunk that `alloc_hmu` has found for an object. It is apart from all other objects.
structure Granted (h : Heap) (blocks : List Block) (size p : Nat) (h1 : Heap) : Prop where
  pos : p ≠ 0
  enough : totSize size ≤ h1.hmuGetSize p
  kept : ∀ b ∈ blocks, b.free = false → ∀ i ∈ payload b,
    h1.mem i = h.mem i ∧ (i < p ∨ p + h1.hmuGetSize p ≤ i)
  allocate : ∀ h2, Finished h1 h2 p →
    ∃ blocks' file', Allocated h blocks size (p + 4) h2 blocks' file'

-- A multiple of eight is large enough for the object and its header, or too small for them.
theorem needed_le_iff (hfits : size + 11 < 2 ^ 32) {m : Nat} (hm : 16 ≤ m) (h8 : 8 ∣ m) :
    needed size ≤ m ↔ size + 4 ≤ m := by
  obtain ⟨j, rfl⟩ := h8
  rw [needed, (totSize_of_fits hfits).2, show GC_SMALLEST_SIZE = 16 from rfl]
  omega

theorem dvd_totSize (size : Nat) : 8 ∣ totSize size := by
  rw [totSize, GC_ALIGN_8]
  exact Dvd.intro_left _ rfl

theorem granted_of_carved {before after : List Block} {p n : Nat} {h1 : Heap} {file1 : File}
    (hwf : WellFormed h (before ++ [⟨p, n, true⟩] ++ after) file) (hfits : size + 11 < 2 ^ 32)
    (hn : needed size ≤ n)
    (hbest : ∀ e ∈ freed (before ++ [⟨p, n, true⟩] ++ after), needed size ≤ e.2 → n ≤ e.2)
    (hcarved : Carved h h1 before p (trim p n (needed size) after).1
      (trim p n (needed size) after).2 file1) :
    Granted h (before ++ [⟨p, n, true⟩] ++ after) size p h1 := by
  have hs := scattered_of_tiles hwf.tiles hwf.proper
  obtain ⟨hbefore, hafter, hproper, -, -⟩ := hwf.chunk
  have h8 : 8 ∣ needed size := by
    rcases max_choice (totSize size) GC_SMALLEST_SIZE with heq | heq
    · rw [needed, heq]
      exact dvd_totSize size
    · rw [needed, heq]
      decide
  obtain ⟨htiles', hproper', hmerged'⟩ := hwf.trim h8 (le_max_right _ _)
  obtain ⟨hlow, hhigh, hsub⟩ := trim_bounds p after hn
  generalize htrim : trim p n (needed size) after =
    cut at hcarved htiles' hproper' hmerged' hlow hhigh hsub
  have hget : h1.hmuGetSize p = cut.1 := congrArg Header.size hcarved.head
  have hpos : p ≠ 0 := by
    have hbounds := hwf.tiles.bounds (b := ⟨p, n, true⟩) (by simp)
    have hbase := hwf.pool.base_pos
    simp only at hbounds
    omega
  have hkept : ∀ b ∈ before ++ [⟨p, n, true⟩] ++ after, b.free = false → ∀ i ∈ payload b,
      h1.mem i = h.mem i ∧ (i < p ∨ p + h1.hmuGetSize p ≤ i) := by
    intro b hb hused i hi
    have hb' : b ∈ before ∨ b ∈ after := by
      simp only [List.mem_append, List.mem_singleton] at hb
      rcases hb with (hb | rfl) | hb
      · exact .inl hb
      · cases hused
      · exact .inr hb
    have hi' : b.addr + 4 ≤ i ∧ i < b.addr + b.size := hi
    refine ⟨hcarved.kept b (List.mem_append.mpr (hb'.imp_right fun hb => hsub hb)) hused i hi, ?_⟩
    rcases hb' with hb | hb
    · have hbounds := hbefore.bounds hb
      exact .inl (by omega)
    · have hbounds := hafter.bounds hb
      exact .inr (by omega)
  refine ⟨hpos, hget ▸ le_trans (le_max_left _ _) hlow, hkept, fun h2 hfinished => ?_⟩
  have hsame : SamePool h1 h2 := by
    rw [hfinished.same]
    exact ⟨rfl, rfl, rfl, rfl⟩
  have hwf' := hcarved.give hwf htiles' hproper' hmerged' hsame (by rw [hfinished.same])
    (by rw [hfinished.same]) (by rw [hfinished.head, hcarved.head])
    (fun i hi => hfinished.outside i (by rwa [hget]))
  refine ⟨_, file1, ⟨before, p, n, after, rfl, rfl, ?_, ?_, by rw [htrim]⟩, hwf',
    hcarved.same.trans hsame, ?_⟩
  · exact (needed_le_iff hfits hproper.large hproper.2).mp hn
  · intro e he hle
    have hlarge := hs.large e he
    exact hbest e he ((needed_le_iff hfits hlarge.1 hlarge.2).mpr hle)
  · intro b hb hused i hi
    obtain ⟨hsame1, hapart⟩ := hkept b hb hused i hi
    exact (hfinished.outside i hapart).trans hsame1

theorem allocHmu_granted (hwf : WellFormed h blocks file) (hfits : size + 11 < 2 ^ 32) :
    (allocHmu h (totSize size) = some (0, h) ∧ ∀ e ∈ freed blocks, e.2 < size + 4) ∨
      ∃ p h1, allocHmu h (totSize size) = some (p, h1) ∧ Granted h blocks size p h1 := by
  have hs := scattered_of_tiles hwf.tiles hwf.proper
  rcases allocHmu_fitted hwf (dvd_totSize size) with ⟨hrun, hnone⟩ | ⟨before, p, n, after, h1, file1,
    rfl, hn, hbest, hrun, hcarved⟩
  · refine .inl ⟨hrun, fun e he => ?_⟩
    have hlarge := hs.large e he
    have hlt := hnone e he
    have hiff := needed_le_iff hfits hlarge.1 hlarge.2
    rw [needed] at hiff
    omega
  · exact .inr ⟨p, h1, hrun, granted_of_carved hwf hfits hn hbest hcarved⟩

-- `gc_alloc_vo` clears what follows the object.
def handedOut (h : Heap) (hmu size : Nat) : Heap :=
  let tot := h.hmuGetSize hmu
  let h := (h.hmuSetUt hmu .vo).hmuUnfreeVo hmu
  if tot > totSizeUnaligned size then
    { h with mem := clear h.mem (hmu + HMU_SIZE + size) (tot - totSizeUnaligned size) }
  else h

theorem head_inUse {p : Nat} :
    ((h.hmuSetUt p .vo).hmuUnfreeVo p).head p = { h.head p with ut := .vo, freed := false } := by
  rw [Heap.head_hmuUnfreeVo, Heap.head_hmuSetUt]

theorem inUse_outside {p i : Nat} (hi : i < p ∨ p + 4 ≤ i) :
    ((h.hmuSetUt p .vo).hmuUnfreeVo p).mem i = h.mem i :=
  (Heap.setHeader_outside _ hi).trans (Heap.setHeader_outside _ hi)

theorem handedOut_finished {p : Nat} (hfits : size + 11 < 2 ^ 32)
    (henough : totSize size ≤ h.hmuGetSize p) : Finished h (handedOut h p size) p := by
  obtain ⟨hunaligned, htot⟩ := totSize_of_fits hfits
  simp only [handedOut, hunaligned, show HMU_SIZE = 4 from rfl]
  split
  case isFalse => exact ⟨rfl, head_inUse, fun i hi => inUse_outside (by omega)⟩
  case isTrue =>
    refine ⟨rfl, ?_, fun i hi => ?_⟩
    · refine (Heap.head_congr fun i hlow hhigh => ?_).trans head_inUse
      exact clear_outside (.inl (by omega))
    · exact (clear_outside (by omega)).trans (inUse_outside (by omega))

theorem gcAllocVo_eq_of_hmu {h1 : Heap} {p : Nat} (htot : ¬totSize size < size)
    (hintact : h.isHeapCorrupted = false) (hrun : allocHmu h (totSize size) = some (p, h1))
    (hp : p ≠ 0) : gcAllocVo h size = some (p + 4, handedOut h1 p size) := by
  obtain ⟨q, rfl⟩ := Nat.exists_eq_succ_of_ne_zero hp
  rw [gcAllocVo, if_neg htot, hintact, if_neg (by simp), hrun]
  simp only [handedOut]
  split <;> rfl

theorem gcAllocVo_eq (hwf : WellFormed h blocks file) (hsize : size < 2 ^ 32) :
    (gcAllocVo h size = some (0, h) ∧ ∀ e ∈ freed blocks, e.2 < size + 4) ∨
      ∃ obj h' blocks' file', gcAllocVo h size = some (obj, h') ∧
        Allocated h blocks size obj h' blocks' file' := by
  by_cases hfits : size + 11 < 2 ^ 32
  case neg =>
    refine .inl ⟨?_, fun e he => ?_⟩
    · rw [gcAllocVo, if_pos (totSize_of_wraps hsize (by omega))]
    · have hbounds := (scattered_of_tiles hwf.tiles hwf.proper).bounds he
      have hsmall := hwf.pool.small
      omega
  have htot := (totSize_of_fits hfits).2
  have hnot : ¬totSize size < size := by omega
  rcases allocHmu_granted hwf hfits with ⟨hrun, hnone⟩ | ⟨p, h1, hrun, hgranted⟩
  · refine .inl ⟨?_, hnone⟩
    simp only [gcAllocVo, if_neg hnot, hwf.intact, hrun]
    rfl
  · obtain ⟨blocks', file', ha⟩ := hgranted.allocate _ (handedOut_finished hfits hgranted.enough)
    exact .inr ⟨_, _, blocks', file', gcAllocVo_eq_of_hmu hnot hwf.intact hrun hgranted.pos, ha⟩

end Malloc

end Watz.Ems
