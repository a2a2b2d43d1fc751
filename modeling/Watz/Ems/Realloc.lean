import Watz.Ems.Run

namespace Watz.Ems

open Base.Layout Base.Words Base.Arena

-- The object is to grow into the free chunk behind it.
def GrowsInPlace (blocks : List Block) (p n size : Nat) : Prop :=
  n < totSize size ∧ ∃ m, (⟨p + n, m, true⟩ : Block) ∈ blocks ∧ totSize size ≤ n + m

-- After `realloc` the object has room for its new size, it has its old bytes, and no other object
-- has changed.
structure Resized (h : Heap) (blocks : List Block) (p n size obj : Nat) (h' : Heap) : Prop where
  same : SamePool h h'
  inside : h.baseAddr + 4 ≤ obj ∧ obj + size ≤ h.baseAddr + h.currentSize
  apart : ∀ b ∈ blocks, b.free = false → b.addr ≠ p → Apart obj size (b.addr + 4) (b.size - 4)
  copied : ∀ i < n - 4, h'.mem (obj + i) = h.mem (p + 4 + i)
  kept : ∀ b ∈ blocks, b.free = false → b.addr ≠ p → ∀ i ∈ payload b, h'.mem i = h.mem i

section Move

variable {h h1 : Heap} {blocks : List Block} {file : File} {p q n size : Nat}

-- A part of a chunk is apart from the other chunks.
theorem WellFormed.apart_payload (hwf : WellFormed h blocks file) {b c : Block} (hb : b ∈ blocks)
    (hc : c ∈ blocks) (hne : b ≠ c) {a k : Nat} (hlow : b.addr ≤ a)
    (hhigh : a + k ≤ b.addr + b.size) : Apart a k (c.addr + 4) (c.size - 4) := by
  have hlarge := (hwf.proper c hc).large
  rcases hwf.tiles.apart hb hc hne with hapart | hapart
  · exact .inl (by omega)
  · exact .inr (by omega)

theorem resized_self (hwf : WellFormed h blocks file) (hmem : ⟨p, n, false⟩ ∈ blocks)
    (hsize : size + 4 ≤ n) : Resized h blocks p n size (p + 4) h := by
  have hbounds := hwf.tiles.bounds hmem
  simp only at hbounds
  refine ⟨.refl h, ⟨by omega, by omega⟩, fun b hb _ hne => ?_, fun _ _ => rfl,
    fun _ _ _ _ _ _ => rfl⟩
  exact hwf.apart_payload hmem hb (fun heq => hne (by rw [← heq])) (by simp) (by simp only; omega)

-- The new object before the old one is freed.
def copied (h : Heap) (hmu objOld totSizeOld : Nat) : Heap :=
  let objSize := h.hmuGetSize hmu - HMU_SIZE
  let h := (h.hmuSetUt hmu .vo).hmuUnfreeVo hmu
  let h := { h with mem := clear h.mem (hmu + HMU_SIZE) objSize }
  if totSizeOld - HMU_SIZE ≤ objSize then
    { h with mem := write h.mem (hmu + HMU_SIZE) (slice h.mem objOld (totSizeOld - HMU_SIZE)) }
  else h

theorem moveObject_eq (hrun : allocHmu h (totSize size) = some (q, h1)) (hq : q ≠ 0) {objOld : Nat}
    (hold : objOld ≠ 0) :
    moveObject h objOld n (totSize size) =
      (gcFreeVo (copied h1 q objOld n) objOld).map fun r => (q + 4, r.2) := by
  obtain ⟨k, rfl⟩ := Nat.exists_eq_succ_of_ne_zero hq
  simp only [moveObject, hrun, if_neg hold, copied, show HMU_SIZE = 4 from rfl]
  split <;> rename_i heq <;> simp only [heq, Option.map_none, Option.map_some]

-- All bytes of the old object are copied.
theorem copied_bytes (hn : n ≤ h1.hmuGetSize q) (hlarge : 16 ≤ n)
    (hapart : ∀ i, p + 4 ≤ i → i < p + n → i < q ∨ q + h1.hmuGetSize q ≤ i) :
    Finished h1 (copied h1 q (p + 4) n) q ∧
      ∀ i < n - 4, (copied h1 q (p + 4) n).mem (q + 4 + i) = h1.mem (p + 4 + i) := by
  simp only [copied, show HMU_SIZE = 4 from rfl, if_pos (Nat.sub_le_sub_right hn 4)]
  refine ⟨⟨rfl, ?_, fun i hi => ?_⟩, fun i hi => ?_⟩
  · refine (Heap.head_congr fun i hlow hhigh => ?_).trans head_inUse
    simp only [write, slice_length, if_neg (show ¬(q + 4 ≤ i ∧ i < q + 4 + (n - 4)) by omega)]
    exact clear_outside (.inl (by omega))
  · simp only [write, slice_length, if_neg (show ¬(q + 4 ≤ i ∧ i < q + 4 + (n - 4)) by omega)]
    exact (clear_outside (by omega)).trans (inUse_outside (by omega))
  · have hout := hapart (p + 4 + i) (by omega) (by omega)
    simp only [write, slice_length, if_pos (show q + 4 ≤ q + 4 + i ∧ q + 4 + i < q + 4 + (n - 4) by
      omega), Nat.add_sub_cancel_left]
    rw [slice, List.getD_eq_getElem?_getD, List.getElem?_map, List.getElem?_range hi]
    exact (clear_outside (by omega)).trans (inUse_outside (by omega))

theorem moveObject_resized (hwf : WellFormed h blocks file) (hmem : ⟨p, n, false⟩ ∈ blocks)
    (hfits : size + 11 < 2 ^ 32) (hlt : n < totSize size) :
    (moveObject h (p + 4) n (totSize size) = some (0, h) ∧ ∀ e ∈ freed blocks, e.2 < size + 4) ∨
      ∃ obj h' blocks' file', moveObject h (p + 4) n (totSize size) = some (obj, h') ∧ obj ≠ 0 ∧
        Resized h blocks p n size obj h' ∧ WellFormed h' blocks' file' := by
  rcases allocHmu_granted hwf hfits with ⟨hrun, hnone⟩ | ⟨q, h1, hrun, hgranted⟩
  · refine .inl ⟨?_, hnone⟩
    rw [moveObject, hrun]
    rfl
  right
  have hlarge : 16 ≤ n := (hwf.proper _ hmem).large
  have hpayload : ∀ i, p + 4 ≤ i → i < p + n → h1.mem i = h.mem i ∧
      (i < q ∨ q + h1.hmuGetSize q ≤ i) :=
    fun i hlow hhigh => hgranted.kept _ hmem rfl i ⟨hlow, hhigh⟩
  obtain ⟨hfinished, hbytes⟩ := copied_bytes (p := p) (hlt.le.trans hgranted.enough) hlarge
    fun i hlow hhigh => (hpayload i hlow hhigh).2
  obtain ⟨blocks2, file2, ha⟩ := hgranted.allocate _ hfinished
  -- both objects are there now
  obtain ⟨a, m, k, haddr, hfree, hlow, -, hused⟩ := ha.used hwf
  obtain rfl : q = a := by omega
  have hold : ⟨p, n, false⟩ ∈ blocks2 := (hused _ rfl).mpr (.inl hmem)
  have hnew : ⟨q, k, false⟩ ∈ blocks2 := (hused _ rfl).mpr (.inr rfl)
  have hne : q ≠ p := by
    rintro rfl
    have heq := hwf.eq_of_addr hfree hmem rfl
    simp at heq
  obtain ⟨h3, blocks3, file3, hfreeRun, hr⟩ := gcFreeVo_eq ha.wellFormed hold
  have hbounds := ha.wellFormed.tiles.bounds hnew
  rw [ha.same.base, ha.same.current] at hbounds
  simp only at hbounds
  refine ⟨q + 4, h3, blocks3, file3, ?_, by omega, ?_, hr.wellFormed⟩
  · rw [moveObject_eq hrun hgranted.pos (by omega), hfreeRun]
    rfl
  · refine ⟨ha.same.trans hr.same, ⟨by omega, by omega⟩, ?_, ?_, ?_⟩
    · intro b hb hb' _
      have hin := (hused b hb').mpr (.inl hb)
      refine ha.wellFormed.apart_payload hnew hin ?_ (by simp) (by simp only; omega)
      rintro rfl
      have heq := hwf.eq_of_addr hfree hb rfl
      simp at heq
    · intro i hi
      rw [hr.kept _ hnew rfl hne (q + 4 + i) ?_, hbytes i hi, (hpayload _ (by omega) (by omega)).1]
      obtain ⟨j, hj⟩ := (ha.wellFormed.proper _ hnew).2
      have htot := (totSize_of_fits hfits).2
      simp only at hj
      exact ⟨by simp only; omega, by simp only; omega⟩
    · intro b hb hb' hbp i hi
      have hin := (hused b hb').mpr (.inl hb)
      exact (hr.kept b hin hb' hbp i hi).trans (ha.kept b hb hb' i hi)

end Move

section Grow

variable {h h' : Heap} {blocks : List Block} {file : File} {free : Set (Nat × Nat)}
  {a k p n m tot : Nat}

-- What is left of a chunk is filed, also where it is too small for the size in its last word.
theorem gciAddFc_rest (hpool : Pool h) (hs : Scattered h free) (hf : Filed h file free)
    (h8 : 8 ∣ k) (hk : 0 < k) (hlow : h.baseAddr ≤ a) (hhigh : a + k ≤ h.baseAddr + h.currentSize)
    (hapart : ∀ e ∈ free, Apart a k e.1 e.2) :
    ∃ h', gciAddFc h a k = some (true, h') ∧
      Refiled (filing h free ∪ Set.Ico a (a + k)) h h' ∧
      h'.head a = { h.head a with ut := .fc, size := k } := by
  have hsmall := hpool.small
  by_cases hlarge : 16 ≤ k
  · have hnew : (a, k) ∉ free := fun he => by
      rcases hapart _ he with hself | hself <;> simp only at hself <;> omega
    have hinsert : Scattered h (insert (a, k) free) := by
      refine ⟨?_, ?_, ?_⟩
      · rintro e (rfl | he)
        · exact ⟨hlow, hhigh⟩
        · exact hs.inside e he
      · rintro e (rfl | he)
        · exact ⟨hlarge, h8⟩
        · exact hs.large e he
      · rintro e (rfl | he) e' (rfl | he') hne
        · exact absurd rfl hne
        · exact hapart e' he'
        · exact (hapart e he).symm
        · exact hs.apart e he e' he' hne
    obtain ⟨h', file', hrun, -, hadd⟩ := gciAddFc_filed hpool hinsert hf hnew
    exact ⟨h', hrun, hadd.refiled, hadd.head⟩
  · obtain rfl : k = 8 := by
      obtain ⟨j, rfl⟩ := h8
      omega
    have hin : (labelled h a 8).hmuIsInHeap a = true := inHeap_iff.mpr ⟨hlow, by
      change a < h.baseAddr + h.currentSize
      omega⟩
    refine ⟨((labelled h a 8).setHmuNormalNodeNext a ((labelled h a 8).kfcNormalList
      (8 >>> 3))).setNormalHead (8 >>> 3) a, ?_, ⟨rfl, fun i hi => ?_⟩, ?_⟩
    · simp only [gciAddFc]
      rw [show ((h.hmuSetUt a .fc).hmuSetSize a 8).hmuSetFreeSize a = labelled h a 8 from rfl,
        if_pos (isFcNormal_iff.mpr (by omega)), hin, if_neg (by simp)]
    · simp only [Set.mem_union, Set.mem_Ico, not_or] at hi
      exact (store_outside (by omega)).trans
        (labelled_outside (by omega) h8 (by omega) (by omega))
    · exact (Heap.head_congr fun i hlow hhigh => store_outside (by omega)).trans
        (head_labelled (by omega) h8 le_rfl)

-- The heap after an object has grown. It and the chunk behind it take the same bytes as before.
structure Grown (h : Heap) (blocks : List Block) (p n m tot : Nat) (h' : Heap) : Prop where
  same : SamePool h h'
  total : h'.totalFreeSize = h.totalFreeSize
  outside : ∀ i ∉ filing h (freed blocks), i < p ∨ p + 4 ≤ i ∧ i < p + n ∨ p + n + m ≤ i →
    h'.mem i = h.mem i
  head : h'.head p = { h.head p with size := tot }
  rest : tot < n + m → h'.hmuGetUt (p + tot) = .fc ∧ h'.hmuGetSize (p + tot) = n + m - tot

-- The header of the object and the bytes that it takes of the free chunk.
def widened (h : Heap) (p n tot : Nat) : Heap :=
  { h.hmuSetSize p tot with mem := clear (h.hmuSetSize p tot).mem (p + n) (tot - n) }

theorem widened_outside {i : Nat} (hi : i < p ∨ p + 4 ≤ i) (hi' : i < p + n ∨ p + tot ≤ i)
    (hlt : n < tot) : (widened h p n tot).mem i = h.mem i :=
  (clear_outside (by omega)).trans (Heap.setHeader_outside _ hi)

theorem head_widened (hn : 4 ≤ n) (hlt : tot < 2 ^ 30) (h8 : 8 ∣ tot) :
    (widened h p n tot).head p = { h.head p with size := tot } := by
  refine (Heap.head_congr fun i hlow hhigh => ?_).trans (Heap.head_hmuSetSize hlt h8)
  exact clear_outside (.inl (by omega))

theorem samePool_widened : SamePool h (widened h p n tot) := ⟨rfl, rfl, rfl, rfl⟩

theorem totalFreeSize_widened : (widened h p n tot).totalFreeSize = h.totalFreeSize := rfl

-- The files lie in none of the two chunks once the free one has left them.
theorem WellFormed.filing_apart (hwf : WellFormed h blocks file) (hmem : ⟨p, n, false⟩ ∈ blocks)
    (hnext : ⟨p + n, m, true⟩ ∈ blocks) :
    ∀ i ∈ filing h (freed blocks \ {(p + n, m)}), i < p ∨ p + n + m ≤ i := by
  have hbounds := hwf.tiles.bounds hmem
  have hbounds' := hwf.tiles.bounds hnext
  rintro i (⟨hlow, hhigh⟩ | ⟨e, ⟨he, hne⟩, hlow, hhigh⟩)
  · rcases hwf.pool.root_apart with hapart | hapart <;> simp only at hbounds hbounds' <;> omega
  · have hobj : Apart e.1 e.2 p n := hwf.tiles.apart he hmem (by simp)
    have hfree : Apart e.1 e.2 (p + n) m :=
      (scattered_of_tiles hwf.tiles hwf.proper).apart e he (p + n, m) hnext hne
    rcases hobj with hobj | hobj <;> rcases hfree with hfree | hfree <;> omega

-- The next chunk is taken out of the lists, and the chunk is widened over it.
theorem widened_eq (hwf : WellFormed h blocks file) (hmem : ⟨p, n, false⟩ ∈ blocks)
    (hnext : ⟨p + n, m, true⟩ ∈ blocks) (h8 : 8 ∣ tot) (hlt : n < tot) (hle : tot ≤ n + m) :
    ∃ h1 file1, unlinkHmu h (p + n) = some (true, h1) ∧ h.hmuGetSize (p + n) = m ∧
      SamePool h (widened h1 p n tot) ∧ (widened h1 p n tot).totalFreeSize = h.totalFreeSize ∧
      Filed (widened h1 p n tot) file1 (freed blocks \ {(p + n, m)}) ∧
      (widened h1 p n tot).head p = { h.head p with size := tot } ∧
      ∀ i ∉ filing h (freed blocks), i < p ∨ p + 4 ≤ i ∧ i < p + n ∨ p + n + m ≤ i →
        (widened h1 p n tot).mem i = h.mem i := by
  have hs := scattered_of_tiles hwf.tiles hwf.proper
  have hlabel := hwf.labelled hnext
  have hsize : h.hmuGetSize (p + n) = m := hlabel.2.1
  have hbounds := hwf.tiles.bounds hmem
  have hbounds' := hwf.tiles.bounds hnext
  have hlarge := (hwf.proper _ hmem).large
  have hsmall := hwf.pool.small
  simp only at hbounds hbounds' hlarge
  obtain ⟨h1, file1, hunlink, hf1, hr⟩ :=
    unlinkHmu_filed hwf.pool hs hwf.filed hnext hlabel.1 hsize
  have hpools := hr.samePool
  have hs1 := hs.subset (Set.sdiff_subset (s := freed blocks) (t := {(p + n, m)}))
  refine ⟨h1, file1, hunlink, hsize, hpools.trans samePool_widened,
    totalFreeSize_widened.trans hr.totalFreeSize, ?_, ?_, ?_⟩
  · refine hf1.congr (hpools.scattered hs1) rfl rfl fun i hi => ?_
    rw [hpools.filing] at hi
    have hout := hwf.filing_apart hmem hnext i hi
    exact widened_outside (by omega) (by omega) hlt
  · rw [head_widened (by omega) (by omega) h8]
    have hrim : h1.head p = h.head p := head_of_rim (b := ⟨p, n, false⟩) (hwf.proper _ hmem)
      fun i hi => hr.outside i (rim_not_filing hwf.pool hwf.tiles hmem subset_rfl i hi)
    rw [hrim]
  · intro i hi hout
    rw [widened_outside (by omega) (by omega) hlt, hr.outside i hi]

theorem growInPlace_eq (hwf : WellFormed h blocks file) (hmem : ⟨p, n, false⟩ ∈ blocks)
    (hnext : ⟨p + n, m, true⟩ ∈ blocks) (h8 : 8 ∣ tot) (hlt : n < tot) (hle : tot ≤ n + m) :
    ∃ h', growInPlace h p n tot = some (p + 4, h') ∧ Grown h blocks p n m tot h' := by
  have hs := scattered_of_tiles hwf.tiles hwf.proper
  have hbounds := hwf.tiles.bounds hmem
  have hbounds' := hwf.tiles.bounds hnext
  have hlarge := (hwf.proper _ hmem).large
  have hproper := hwf.proper _ hnext
  have hproper' := hwf.proper _ hmem
  simp only at hbounds hbounds' hlarge
  have hapart := hwf.filing_apart hmem hnext
  have hs1 := hs.subset (Set.sdiff_subset (s := freed blocks) (t := {(p + n, m)}))
  obtain ⟨h1, file1, hunlink, hsize, hsame, htotal, hf2, hhead, houtside⟩ :=
    widened_eq hwf hmem hnext h8 hlt hle
  by_cases hrest : tot < n + m
  case neg =>
    refine ⟨widened h1 p n tot, ?_, hsame, htotal, houtside, hhead, fun h => absurd h hrest⟩
    simp only [growInPlace, hunlink, hsize, if_neg hrest]
    rfl
  -- what is left of the next chunk is filed again
  have h8' : 8 ∣ n + m - tot := by
    obtain ⟨i, hi⟩ := hproper.2
    obtain ⟨j, hj⟩ := hproper'.2
    obtain ⟨l, rfl⟩ := h8
    simp only at hi hj
    exact ⟨i + j - l, by omega⟩
  obtain ⟨h3, hadd, hr3, hhead3⟩ := gciAddFc_rest (a := p + tot) (hsame.pool hwf.pool)
    (hsame.scattered hs1) hf2 h8' (by omega) (by rw [hsame.base]; omega)
    (by rw [hsame.base, hsame.current]; omega) (fun e he => by
      have hfree : Apart e.1 e.2 (p + n) m :=
        hs.apart e he.1 (p + n, m) hnext he.2
      rcases hfree with hfree | hfree
      · exact .inr (by omega)
      · exact .inl (by omega))
  have hkept : ∀ i, i < p + tot ∨ p + n + m ≤ i → i ∉ filing h (freed blocks \ {(p + n, m)}) →
      (h3.hmuMarkPinuse (p + tot)).mem i = (widened h1 p n tot).mem i := by
    intro i hi hout
    refine (Heap.setHeader_outside _ (by omega)).trans (hr3.outside i ?_)
    rw [hsame.filing]
    simp only [Set.mem_union, Set.mem_Ico, not_or]
    exact ⟨hout, by omega⟩
  have hsub : filing h (freed blocks \ {(p + n, m)}) ⊆ filing h (freed blocks) := fun i hi =>
    hi.imp_right fun ⟨e, he, hin⟩ => ⟨e, he.1, hin⟩
  refine ⟨h3.hmuMarkPinuse (p + tot), ?_, (hsame.trans hr3.samePool).trans ⟨rfl, rfl, rfl, rfl⟩, ?_,
    ?_, ?_, fun _ => ?_⟩
  · have hadd' : gciAddFc { h1.hmuSetSize p tot with
        mem := clear (h1.hmuSetSize p tot).mem (p + n) (tot - n) } (p + tot) (n + m - tot) =
        some (true, h3) := hadd
    simp only [growInPlace, hunlink, hsize, if_pos hrest, hadd']
    rfl
  · exact hr3.totalFreeSize.trans htotal
  · intro i hi hout
    rw [hkept i (by omega) fun hin => hi (hsub hin), houtside i hi hout]
  · refine (Heap.head_congr fun i hlow hhigh => hkept i (by omega) fun hin => ?_).trans hhead
    have hout := hapart i hin
    omega
  · have hhead4 : (h3.hmuMarkPinuse (p + tot)).head (p + tot) =
        { h3.head (p + tot) with pinuse := true } := Heap.head_hmuMarkPinuse
    rw [hhead3] at hhead4
    exact ⟨congrArg Header.ut hhead4, congrArg Header.size hhead4⟩

end Grow

section Chart

variable {h h' : Heap} {blocks blocks' before after : List Block} {file : File} {p n m size : Nat}

-- The headers of the pool, one chunk after the other.
structure Charted (h : Heap) (blocks : List Block) : Prop where
  tiles : Tiles h.baseAddr blocks (h.baseAddr + h.currentSize)
  pos : ∀ b ∈ blocks, 0 < b.size
  labelled : ∀ b ∈ blocks, Labelled h b

theorem WellFormed.charted (hwf : WellFormed h blocks file) : Charted h blocks := by
  refine ⟨hwf.tiles, fun b hb => ?_, fun b hb => hwf.labelled hb⟩
  have hlarge := (hwf.proper b hb).large
  omega

-- Only one division of the pool is what its headers say.
theorem Charted.unique (hc : Charted h blocks) (hc' : Charted h blocks') : blocks = blocks' := by
  have hread : ∀ b : Block, Labelled h b →
      (h.hmuGetSize b.addr, decide (h.hmuGetUt b.addr = .fc)) = (b.size, b.free) := by
    rintro ⟨a, n, free⟩ ⟨hut, hsize, -⟩
    rw [hut, hsize]
    cases free <;> rfl
  exact hc.tiles.unique (fun a => (h.hmuGetSize a, decide (h.hmuGetUt a = .fc))) hc'.tiles hc.pos
    hc'.pos (fun b hb => hread b (hc.labelled b hb)) (fun b hb => hread b (hc'.labelled b hb))

-- What is left of the free chunk.
def leftover (p n m tot : Nat) : List Block :=
  if tot < n + m then [⟨p + tot, n + m - tot, true⟩] else []

-- The headers of the other chunks are as they were.
theorem Grown.head_kept {tot : Nat}
    (hwf : WellFormed h (before ++ ⟨p, n, false⟩ :: ⟨p + n, m, true⟩ :: after) file)
    (hg : Grown h (before ++ ⟨p, n, false⟩ :: ⟨p + n, m, true⟩ :: after) p n m tot h')
    {b : Block} (hb : b ∈ before ++ after) :
    b ∈ before ++ ⟨p, n, false⟩ :: ⟨p + n, m, true⟩ :: after ∧
      h'.head b.addr = h.head b.addr := by
  obtain ⟨start, hbefore, rfl, -, hafter⟩ := tiles_append.mp hwf.tiles
  have hmem : b ∈ before ++ ⟨p, n, false⟩ :: ⟨p + n, m, true⟩ :: after := by
    simp only [List.mem_append, List.mem_cons] at hb ⊢
    tauto
  refine ⟨hmem, head_of_rim (hwf.proper b hmem) fun i hi => ?_⟩
  apply hg.outside i (rim_not_filing hwf.pool hwf.tiles hmem subset_rfl i hi)
  have hlow : b.addr ≤ i := hi.1
  have hhigh : i < b.addr + b.size := hi.2.1
  rcases List.mem_append.mp hb with hb | hb
  · have hbounds := hbefore.bounds hb
    simp only at hbounds
    omega
  · have hbounds := hafter.bounds hb
    simp only at hbounds
    omega

-- Where the object has taken all of the free chunk, the chunk behind it still says that the memory
-- in front of it is free.
theorem Grown.pinuse_behind {tot : Nat}
    (hwf : WellFormed h (before ++ ⟨p, n, false⟩ :: ⟨p + n, m, true⟩ :: after) file)
    (hlt : n < tot) (hle : tot ≤ n + m)
    (hg : Grown h (before ++ ⟨p, n, false⟩ :: ⟨p + n, m, true⟩ :: after) p n m tot h') :
    ∀ b ∈ before ++ ⟨p, tot, false⟩ :: (leftover p n m tot ++ after), b.free = false →
      b.addr = p + tot → h'.hmuGetPinuse b.addr = false := by
  intro b hb hused haddr
  obtain ⟨start, hbefore, rfl, -, hafter⟩ := tiles_append.mp hwf.tiles
  simp only at hbefore hafter
  simp only [leftover, List.mem_append, List.mem_cons, List.mem_ite_nil_right, List.not_mem_nil,
    or_false] at hb
  rcases hb with hb | rfl | ⟨-, rfl⟩ | hb
  · have hbounds := hbefore.bounds hb
    omega
  · simp only at haddr
    omega
  · cases hused
  obtain ⟨hmem, hhead⟩ := hg.head_kept hwf (List.mem_append_right before hb)
  have hranged := (ranged_append.mp hwf.ranged).2.2.2.2.2
  cases after with
  | nil => cases hb
  | cons d rest =>
      have hbounds := hafter.bounds hb
      have hbehind : b.addr = d.addr := by
        rw [hafter.1]
        omega
      obtain rfl : b = d := hwf.eq_of_addr hmem (by simp) hbehind
      exact (congrArg Header.pinuse hhead).trans hranged.2.1.1

theorem Grown.charted {tot : Nat}
    (hwf : WellFormed h (before ++ ⟨p, n, false⟩ :: ⟨p + n, m, true⟩ :: after) file)
    (hlt : n < tot) (hle : tot ≤ n + m)
    (hg : Grown h (before ++ ⟨p, n, false⟩ :: ⟨p + n, m, true⟩ :: after) p n m tot h') :
    Charted h' (before ++ ⟨p, tot, false⟩ :: (leftover p n m tot ++ after)) ∧
      h'.totalFreeSize =
        freeSize (before ++ ⟨p, tot, false⟩ :: (leftover p n m tot ++ after)) + (tot - n) := by
  have htotal := hwf.total
  obtain ⟨start, hbefore, rfl, -, hafter⟩ := tiles_append.mp hwf.tiles
  have hlabel := hwf.labelled (b := ⟨p, n, false⟩) (by simp)
  -- the other headers are as they were
  have hothers : ∀ b ∈ before ++ after, 0 < b.size ∧ Labelled h' b := by
    intro b hb
    obtain ⟨hmem, hhead⟩ := hg.head_kept hwf hb
    have hlarge := (hwf.proper b hmem).large
    exact ⟨by omega, labelled_of_head (hwf.labelled hmem) (by rw [hhead]) (by rw [hhead])
      (by rw [hhead])⟩
  have hobj : Labelled h' ⟨p, tot, false⟩ :=
    ⟨(congrArg Header.ut hg.head).trans hlabel.1, congrArg Header.size hg.head,
      fun _ => (congrArg Header.freed hg.head).trans (hlabel.2.2 rfl)⟩
  refine ⟨⟨?_, ?_, ?_⟩, ?_⟩
  · rw [hg.same.base, hg.same.current]
    refine tiles_append.mpr ⟨p, hbefore, rfl, ?_⟩
    rw [leftover]
    split
    case isTrue =>
      refine ⟨rfl, ?_⟩
      simp only
      rw [show p + tot + (n + m - tot) = p + n + m by omega]
      exact hafter
    case isFalse =>
      rw [List.nil_append, show p + tot = p + n + m by omega]
      exact hafter
  · intro b hb
    simp only [leftover, List.mem_append, List.mem_cons, List.mem_ite_nil_right, List.not_mem_nil,
      or_false] at hb
    rcases hb with hb | rfl | ⟨hrest, rfl⟩ | hb
    · exact (hothers b (by simp [hb])).1
    · simp only
      omega
    · simp only
      omega
    · exact (hothers b (by simp [hb])).1
  · intro b hb
    simp only [leftover, List.mem_append, List.mem_cons, List.mem_ite_nil_right, List.not_mem_nil,
      or_false] at hb
    rcases hb with hb | rfl | ⟨hrest, rfl⟩ | hb
    · exact (hothers b (by simp [hb])).2
    · exact hobj
    · exact ⟨(hg.rest hrest).1, (hg.rest hrest).2, fun hfree => nomatch hfree⟩
    · exact (hothers b (by simp [hb])).2
  · rw [hg.total, htotal, leftover]
    split
    case isTrue =>
      simp only [freeSize_append, freeSize_cons, freeSize_nil, Bool.false_eq_true, if_false,
        if_true]
      omega
    case isFalse =>
      simp only [freeSize_append, freeSize_cons, freeSize_nil, Bool.false_eq_true, if_false,
        if_true]
      omega

end Chart

section Realloc

variable {h : Heap} {blocks : List Block} {file : File} {p n m size : Nat}

theorem fitsNext_iff (hwf : WellFormed h blocks file) (hmem : ⟨p, n, false⟩ ∈ blocks) {tot : Nat} :
    fitsNext h p n tot = true ↔ ∃ m, (⟨p + n, m, true⟩ : Block) ∈ blocks ∧ tot ≤ n + m := by
  obtain ⟨before, after, rfl⟩ := List.append_of_mem hmem
  obtain ⟨start, hbefore, rfl, hafter⟩ := tiles_append.mp hwf.tiles
  simp only at hbefore hafter
  simp only [fitsNext, Bool.and_eq_true, decide_eq_true_iff]
  constructor
  · rintro ⟨⟨hin, hut⟩, hle⟩
    cases after with
    | nil =>
        rw [inHeap_iff] at hin
        rw [tiles_nil] at hafter
        omega
    | cons d after =>
        obtain ⟨hd, -⟩ := hafter
        have hlabel := hwf.labelled (b := d) (by simp)
        rw [← hd, hlabel.1] at hut
        rw [← hd, hlabel.2.1] at hle
        obtain ⟨a, k, free⟩ := d
        simp only at hd hut hle
        subst hd
        cases free with
        | false => cases hut
        | true => exact ⟨k, by simp, hle⟩
  · rintro ⟨m, hnext, hle⟩
    have hbounds := hwf.tiles.bounds hnext
    have hlarge := (hwf.proper _ hnext).large
    have hlabel := hwf.labelled hnext
    simp only at hbounds hlarge
    refine ⟨⟨inHeap_iff.mpr ⟨hbounds.1, by omega⟩, hlabel.1⟩, ?_⟩
    have hsize : h.hmuGetSize (p + n) = m := hlabel.2.1
    rwa [hsize]

theorem grown_resized (hwf : WellFormed h blocks file) (hmem : ⟨p, n, false⟩ ∈ blocks)
    (hnext : ⟨p + n, m, true⟩ ∈ blocks) {tot : Nat} (hsize : size + 4 ≤ tot) (hle : tot ≤ n + m)
    {h' : Heap} (hg : Grown h blocks p n m tot h') : Resized h blocks p n size (p + 4) h' := by
  have hbounds := hwf.tiles.bounds hmem
  have hbounds' := hwf.tiles.bounds hnext
  simp only at hbounds hbounds'
  -- the other objects are apart from the chunk and from the one behind it
  have hothers : ∀ b ∈ blocks, b.free = false → b.addr ≠ p →
      Apart p n b.addr b.size ∧ Apart (p + n) m b.addr b.size := by
    intro b hb hused hne
    refine ⟨hwf.tiles.apart hmem hb fun heq => hne (by rw [← heq]),
      hwf.tiles.apart hnext hb fun heq => ?_⟩
    rw [← heq] at hused
    cases hused
  refine ⟨hg.same, ⟨by omega, by omega⟩, ?_, ?_, ?_⟩
  · intro b hb hused hne
    have hlarge := (hwf.proper b hb).large
    obtain ⟨hobj, hfree⟩ := hothers b hb hused hne
    rcases hobj with hobj | hobj <;> rcases hfree with hfree | hfree
    · exact .inl (by omega)
    · exact .inl (by omega)
    · exact .inr (by omega)
    · exact .inr (by omega)
  · intro i hi
    refine hg.outside _ ?_ (.inr (.inl ⟨by omega, by omega⟩))
    exact payload_not_filing hwf.pool hwf.tiles hmem rfl subset_rfl _ ⟨by simp only; omega,
      by simp only; omega⟩
  · intro b hb hused hne i hi
    refine hg.outside i (payload_not_filing hwf.pool hwf.tiles hb hused subset_rfl i hi) ?_
    have hlow : b.addr + 4 ≤ i := hi.1
    have hhigh : i < b.addr + b.size := hi.2
    obtain ⟨hobj, hfree⟩ := hothers b hb hused hne
    rcases hobj with hobj | hobj <;> rcases hfree with hfree | hfree <;> omega

-- `realloc` fails only where no free chunk has room. It keeps the heap well formed, except where
-- the object grows into the free chunk behind it: there the free memory is not counted down.
inductive Reallocated (h : Heap) (blocks : List Block) (p n size : Nat) : Nat → Heap → Prop where
  | none (hsmall : ∀ e ∈ freed blocks, e.2 < size + 4) (hnot : ¬GrowsInPlace blocks p n size) :
      Reallocated h blocks p n size 0 h
  | moved {obj : Nat} {h' : Heap} {blocks' : List Block} {file' : File} (hpos : obj ≠ 0)
      (hresized : Resized h blocks p n size obj h') (hnot : ¬GrowsInPlace blocks p n size)
      (hwf' : WellFormed h' blocks' file') : Reallocated h blocks p n size obj h'
  | grown {h' : Heap} {blocks' : List Block} (hresized : Resized h blocks p n size (p + 4) h')
      (hgrows : GrowsInPlace blocks p n size) (hcharted : Charted h' blocks')
      (htotal : h'.totalFreeSize = freeSize blocks' + (totSize size - n))
      (hbehind : ∀ b ∈ blocks', b.free = false → b.addr = p + totSize size →
        h'.hmuGetPinuse b.addr = false) :
      Reallocated h blocks p n size (p + 4) h'

theorem gcReallocVo_eq (hwf : WellFormed h blocks file) (hmem : ⟨p, n, false⟩ ∈ blocks)
    (hsize : size < 2 ^ 32) :
    ∃ obj h', gcReallocVo h (p + 4) size = some (obj, h') ∧
      Reallocated h blocks p n size obj h' := by
  have hold : h.hmuGetSize p = n := (hwf.labelled hmem).2.1
  have hbounds := hwf.tiles.bounds hmem
  have hsmall := hwf.pool.small
  have hlarge : 16 ≤ n := (hwf.proper _ hmem).large
  simp only at hbounds
  simp only [gcReallocVo, show HMU_SIZE = 4 from rfl, Nat.add_sub_cancel, hold, hwf.intact,
    if_neg (show ¬p + 4 = 0 by omega), Bool.false_eq_true, if_false]
  by_cases hfits : size + 11 < 2 ^ 32
  case neg =>
    refine ⟨0, h, by rw [if_pos (totSize_of_wraps hsize (by omega))], .none (fun e he => ?_) ?_⟩
    · have hbounds' := (scattered_of_tiles hwf.tiles hwf.proper).bounds he
      omega
    · rintro ⟨hlt, -⟩
      rw [totSize, totSizeUnaligned, GC_ALIGN_8, show HMU_SIZE = 4 from rfl] at hlt
      omega
  have htot := (totSize_of_fits hfits).2
  have h8 := dvd_totSize size
  rw [if_neg (show ¬totSize size < size by omega)]
  by_cases hle : totSize size ≤ n
  · refine ⟨p + 4, h, by rw [if_pos hle], .moved (by omega) ?_ ?_ hwf⟩
    · exact resized_self hwf hmem (by omega)
    exact fun hgrows => absurd hgrows.1 (by omega)
  rw [if_neg hle]
  by_cases hgrows : fitsNext h p n (totSize size) = true
  · obtain ⟨m, hnext, hroom⟩ := (fitsNext_iff hwf hmem).mp hgrows
    obtain ⟨h', hrun, hg⟩ := growInPlace_eq hwf hmem hnext h8 (by omega) hroom
    have hresized := grown_resized hwf hmem hnext (show size + 4 ≤ totSize size by omega) hroom hg
    refine ⟨p + 4, h', by rw [if_pos hgrows]; exact hrun, ?_⟩
    obtain ⟨before, after, rfl⟩ := List.append_of_mem hmem
    -- the free chunk is the next one
    obtain ⟨rest, rfl⟩ : ∃ rest, after = ⟨p + n, m, true⟩ :: rest := by
      obtain ⟨start, hbefore, rfl, hafter⟩ := tiles_append.mp hwf.tiles
      have hend := hwf.tiles.bounds hnext
      have hpos : 16 ≤ m := (hwf.proper _ hnext).large
      simp only at hend hafter
      cases after with
      | nil =>
          rw [tiles_nil] at hafter
          omega
      | cons d rest =>
          have hd := hwf.eq_of_addr (b := d) (by simp) hnext hafter.1
          exact ⟨rest, by rw [hd]⟩
    obtain ⟨hcharted, htotal⟩ := hg.charted hwf (by omega) hroom
    exact .grown hresized ⟨by omega, m, hnext, hroom⟩ hcharted htotal
      (hg.pinuse_behind hwf (by omega) hroom)
  · rw [if_neg hgrows]
    have hnot : ¬GrowsInPlace blocks p n size := fun hg =>
      hgrows ((fitsNext_iff hwf hmem).mpr hg.2)
    rcases moveObject_resized hwf hmem hfits (by omega) with ⟨hrun, hnone⟩ | ⟨obj, h', blocks',
      file', hrun, hpos, hresized, hwf'⟩
    · exact ⟨0, h, hrun, .none hnone hnot⟩
    · exact ⟨obj, h', hrun, .moved hpos hresized hnot hwf'⟩

end Realloc

end Watz.Ems
