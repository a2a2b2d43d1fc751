import Mathlib.Algebra.BigOperators.Ring.List
import Watz.Ems.Alloc

namespace Watz.Ems

open Base.Layout Base.Words Base.Arena
open Base.LinkedTree
open Base.LinkedList (Chain)

section Merge

variable {h h1 : Heap} {before mid after : List Block} {file file1 : File} {low size : Nat}

-- The chunk behind it is told that it is free.
def unmarked (h : Heap) (next : Nat) : Heap :=
  if h.hmuIsInHeap next then h.hmuUnmarkPinuse next else h

theorem unmarked_outside {next i : Nat} (hi : i < next ∨ next + 4 ≤ i) :
    (unmarked h next).mem i = h.mem i := by
  rw [unmarked]
  split
  · exact Heap.setHeader_outside _ hi
  · rfl

theorem same_unmarked {next : Nat} :
    unmarked h next = { h with mem := (unmarked h next).mem } := by
  rw [unmarked]
  split <;> rfl

theorem samePool_unmarked (next : Nat) : SamePool h (unmarked h next) := by
  rw [same_unmarked]
  exact ⟨rfl, rfl, rfl, rfl⟩

-- The chunks of `mid` are in no list any more; they are to become one chunk.
structure Gathered (h h1 : Heap) (before mid after : List Block) (low size : Nat)
    (file : File) : Prop where
  tiles : Tiles low mid (low + size)
  ne_nil : mid ≠ []
  filed : Filed h1 file (freed (before ++ after))
  refiled : Refiled (filing h (freed (before ++ mid ++ after)))
    { h with totalFreeSize := h1.totalFreeSize } h1
  total : h1.totalFreeSize = freeSize before + size + freeSize after

section Gathered

variable (hwf : WellFormed h (before ++ mid ++ after) file)
  (hg : Gathered h h1 before mid after low size file1)
  (hfront : ∀ b ∈ before.getLast?, b.free = false) (hback : ∀ b ∈ after.head?, b.free = false)

theorem sum_proper {blocks : List Block} (hproper : ∀ b ∈ blocks, Proper b) (hne : blocks ≠ []) :
    16 ≤ (blocks.map Block.size).sum ∧ 8 ∣ (blocks.map Block.size).sum := by
  constructor
  · cases blocks with
    | nil => exact absurd rfl hne
    | cons b blocks =>
        have hlarge := (hproper b List.mem_cons_self).large
        rw [List.map_cons, List.sum_cons]
        omega
  · apply List.dvd_sum
    intro n hn
    obtain ⟨b, hb, rfl⟩ := List.mem_map.mp hn
    exact (hproper b hb).2

include hwf hg hfront hback in
-- The chunks after the merge.
theorem Gathered.merge :
    Tiles h.baseAddr before low ∧ Tiles (low + size) after (h.baseAddr + h.currentSize) ∧
      Tiles h.baseAddr (before ++ [⟨low, size, true⟩] ++ after) (h.baseAddr + h.currentSize) ∧
      (∀ b ∈ before ++ [⟨low, size, true⟩] ++ after, Proper b) ∧
      Merged (before ++ [⟨low, size, true⟩] ++ after) := by
  obtain ⟨start, stop, hbefore, hmid, hafter⟩ := tiles_sides hwf.tiles
  have hsum := hg.tiles.sum
  obtain ⟨hlarge, h8⟩ := sum_proper (fun b hb => hwf.proper b (by simp [hb])) hg.ne_nil
  obtain rfl : start = low := by
    cases mid with
    | nil => exact absurd rfl hg.ne_nil
    | cons b mid => exact hmid.1.symm.trans hg.tiles.1
  obtain rfl : start + size = stop := hsum.symm.trans hmid.sum
  rw [show (mid.map Block.size).sum = size by omega] at hlarge h8
  have hmerged := hwf.merged
  rw [merged_append, merged_append] at hmerged
  refine ⟨hbefore, hafter, ?_, ?_, ?_⟩
  · rw [List.append_assoc]
    exact tiles_append.mpr ⟨start, hbefore, rfl, hafter⟩
  · intro b hb
    simp only [List.append_assoc, List.mem_append, List.mem_singleton] at hb
    rcases hb with hb | rfl | hb
    · exact hwf.proper b (by simp [hb])
    · exact ⟨hlarge, h8⟩
    · exact hwf.proper b (by simp [hb])
  · rw [List.append_assoc, List.singleton_append, merged_append, merged_cons]
    refine ⟨hmerged.1.1, ⟨?_, hmerged.2.1⟩, ?_⟩
    · rintro b hb ⟨-, hfree⟩
      rw [hback b hb] at hfree
      cases hfree
    · rintro b hb c - ⟨hfree, -⟩
      rw [hfront b hb] at hfree
      cases hfree

theorem freed_mid : freed (before ++ [⟨low, size, true⟩] ++ after) =
    insert (low, size) (freed (before ++ after)) := by
  rw [List.append_assoc, List.singleton_append, freed_append, freed_cons_free, freed_append,
    Set.union_insert]

include hg in
theorem Gathered.samePool : SamePool h h1 :=
  have hsame := hg.refiled.samePool
  ⟨hsame.base, hsame.current, hsame.root, hsame.intact⟩

-- The merged chunk is filed; its header is that of its first chunk, with the new size.
structure Coalesced (h h2 : Heap) (before mid after : List Block) (low size : Nat)
    (file2 : File) : Prop where
  filed : Filed h2 file2 (insert (low, size) (freed (before ++ after)))
  samePool : SamePool h h2
  head : h2.head low = { h.head low with ut := .fc, size := size }
  footer : load h2.mem (low + size - 4) 4 = size
  total : h2.totalFreeSize = freeSize before + size + freeSize after
  outside : ∀ i ∉ filing h (freed (before ++ mid ++ after)), i < low ∨ low + size ≤ i →
    h2.mem i = h.mem i

include hwf hg hfront hback in
theorem Gathered.add :
    ∃ h2 file2, gciAddFc h1 low size = some (true, h2) ∧
      Coalesced h h2 before mid after low size file2 := by
  obtain ⟨-, -, htiles', hproper', -⟩ := hg.merge hwf hfront hback
  have hlarge : 16 ≤ size := (hproper' ⟨low, size, true⟩ (by simp)).large
  have hscattered := scattered_of_tiles htiles' hproper'
  rw [freed_mid] at hscattered
  have hnew : (low, size) ∉ freed (before ++ after) := by
    rw [List.append_assoc, List.singleton_append] at htiles'
    exact not_mem_sides htiles' (by simp only; omega)
  have hpools : SamePool h h1 := hg.samePool
  obtain ⟨h2, file2, hrun, hf2, hadd⟩ := gciAddFc_filed (hpools.pool hwf.pool)
    (hpools.scattered hscattered) hg.filed hnew
  obtain ⟨first, rest, hmid⟩ := List.exists_cons_of_ne_nil hg.ne_nil
  have hfirst : first.addr = low := by
    have htiles := hg.tiles
    rw [hmid] at htiles
    exact htiles.1
  have hhead : h1.head low = h.head low := by
    rw [← hfirst]
    refine head_of_rim (hwf.proper first (by simp [hmid])) fun i hi => ?_
    exact hg.refiled.outside i
      (rim_not_filing hwf.pool hwf.tiles (by simp [hmid]) subset_rfl i hi)
  refine ⟨h2, file2, hrun, hf2, hpools.trans hadd.refiled.samePool, ?_, hadd.footer, ?_, ?_⟩
  · rw [hadd.head, hhead]
  · rw [hadd.refiled.totalFreeSize, hg.total]
  · intro i hi hout
    exact (hadd.kept hpools (freed_sides mid) hi hout).trans (hg.refiled.outside i hi)

variable {h2 : Heap} {file2 : File} (hfin : Coalesced h h2 before mid after low size file2)

include hfin in
theorem Coalesced.unmarked_outside : ∀ i ∉ filing h (freed (before ++ mid ++ after)),
    i < low ∨ low + size + 4 ≤ i → (unmarked h2 (low + size)).mem i = h.mem i := by
  intro i hi hout
  rw [Ems.unmarked_outside (by omega), hfin.outside i hi (by omega)]

include hfin hwf in
-- The chunk behind the merged one has its header but for the bit.
theorem Coalesced.next_head (hafter : Tiles (low + size) after (h.baseAddr + h.currentSize))
    {d : Block} (hd : d ∈ after.head?) :
    (unmarked h2 (low + size)).head d.addr = { h.head d.addr with pinuse := false } := by
  have hmem := List.mem_of_mem_head? hd
  have hlarge := (hwf.proper d (by simp [hmem])).large
  have hbounds := hwf.tiles.bounds (b := d) (by simp [hmem])
  have haddr : d.addr = low + size := by
    cases after with
    | nil => cases hd
    | cons c rest =>
        obtain rfl : c = d := Option.some.inj hd
        exact hafter.1
  have hin : h2.hmuIsInHeap d.addr = true := by
    rw [hfin.samePool.inHeap]
    exact inHeap_iff.mpr ⟨hbounds.1, by omega⟩
  have hsame : h2.head d.addr = h.head d.addr := by
    refine head_of_rim (hwf.proper d (by simp [hmem])) fun i hi => ?_
    have hlow := hi.1
    exact hfin.outside i (rim_not_filing hwf.pool hwf.tiles (by simp [hmem]) subset_rfl i hi)
      (.inr (by omega))
  rw [← haddr, unmarked, if_pos hin, Heap.head_hmuUnmarkPinuse, hsame]

include hwf hg hfront hback hfin in
theorem Coalesced.ranged :
    Ranged (unmarked h2 (low + size)) none (before ++ [⟨low, size, true⟩] ++ after) := by
  obtain ⟨hbefore, hafter, -, hproper', -⟩ := hg.merge hwf hfront hback
  have hlarge : 16 ≤ size := (hproper' ⟨low, size, true⟩ (by simp)).large
  have hframe := hfin.unmarked_outside
  have hhead : (unmarked h2 (low + size)).head low =
      { h.head low with ut := .fc, size := size } :=
    (Heap.head_congr fun i _ _ => Ems.unmarked_outside (by omega)).trans hfin.head
  obtain ⟨last, hlast⟩ := Option.isSome_iff_exists.mp
    (show mid.getLast?.isSome by simpa using hg.ne_nil)
  have hranged := ranged_append.mp hwf.ranged
  have hranged' := ranged_append.mp hranged.1
  rw [List.getLast?_append, hlast, Option.some_or, Option.some_or] at hranged
  rw [List.append_assoc, ranged_append]
  refine ⟨ranged_front hwf.pool hwf.tiles hwf.proper hbefore hframe hranged'.1,
    ⟨congrArg Header.ut hhead, congrArg Header.size hhead, fun hfree => nomatch hfree⟩, ?_, ?_⟩
  · -- the chunk in front is in use
    obtain ⟨first, rest, hmid⟩ := List.exists_cons_of_ne_nil hg.ne_nil
    have hborder := hranged'.2
    have htiles := hg.tiles
    rw [hmid] at hborder htiles
    replace hborder := hborder.2.1
    have hpin : (unmarked h2 (low + size)).hmuGetPinuse low = h.hmuGetPinuse first.addr := by
      rw [htiles.1]
      exact congrArg Header.pinuse hhead
    cases hprev : before.getLast? with
    | none =>
        rw [hprev] at hborder
        exact hpin.trans hborder
    | some q =>
        rw [hprev] at hborder
        refine ⟨hpin.trans hborder.1, fun hq => ?_⟩
        rw [hfront q hprev] at hq
        cases hq
  · refine ranged_back hwf.pool hwf.tiles hwf.proper hafter hframe hranged.2
      (fun d hd => hfin.next_head hwf hafter hd) fun _ => ?_
    refine (load_congr fun i hlow hhigh => ?_).trans hfin.footer
    exact Ems.unmarked_outside (by simp only at hhigh; omega)

include hwf hg hfront hback hfin in
theorem Coalesced.filed_unmarked :
    Filed (unmarked h2 (low + size)) file2 (freed (before ++ [⟨low, size, true⟩] ++ after)) := by
  obtain ⟨hbefore, hafter, htiles', hproper', -⟩ := hg.merge hwf hfront hback
  have hlarge : 16 ≤ size := (hproper' ⟨low, size, true⟩ (by simp)).large
  have hscattered := scattered_of_tiles htiles' hproper'
  rw [freed_mid] at hscattered ⊢
  refine hfin.filed.congr (hfin.samePool.scattered hscattered) (by rw [same_unmarked])
    (samePool_unmarked _).root fun i hi => Ems.unmarked_outside ?_
  rw [hfin.samePool.filing] at hi
  rcases hi with hroot | ⟨e, he, hlow, hhigh⟩
  · have hout := filing_sides hwf.pool hbefore hafter i (.inl hroot)
    omega
  · rcases Set.mem_insert_iff.mp he with rfl | he
    · exact .inl (by simp only at hhigh; omega)
    · have hout := filing_sides hwf.pool hbefore hafter i (.inr ⟨e, he, hlow, hhigh⟩)
      omega

include hwf hg hfront hback in
theorem Gathered.finish :
    ∃ h2 file2, gciAddFc h1 low size = some (true, h2) ∧
      WellFormed (unmarked h2 (low + size)) (before ++ [⟨low, size, true⟩] ++ after) file2 ∧
      SamePool h (unmarked h2 (low + size)) ∧
      ∀ b ∈ before ++ after, b.free = false →
        ∀ i ∈ payload b, (unmarked h2 (low + size)).mem i = h.mem i := by
  obtain ⟨hbefore, hafter, htiles', hproper', hmerged'⟩ := hg.merge hwf hfront hback
  obtain ⟨h2, file2, hrun, hfin⟩ := hg.add hwf hfront hback
  have hpools := hfin.samePool.trans (samePool_unmarked (low + size))
  refine ⟨h2, file2, hrun, ⟨hpools.pool hwf.pool, ?_, hproper',
    hfin.ranged hwf hg hfront hback, hmerged', hfin.filed_unmarked hwf hg hfront hback, ?_, ?_⟩,
    hpools, ?_⟩
  · rwa [hpools.base, hpools.current]
  · rw [show (unmarked h2 (low + size)).totalFreeSize = h2.totalFreeSize by rw [same_unmarked],
      hfin.total]
    simp [Nat.add_assoc]
  · rw [hpools.intact]
    exact hwf.intact
  · intro b hb hused
    exact payload_kept hwf.pool hwf.tiles hbefore hafter hfin.unmarked_outside hb hused

end Gathered

-- A free chunk at either end is taken out of its list or of the tree.
theorem Gathered.unlink (before' mid' after' : List Block) (low' : Nat) (b : Block)
    (hwf : WellFormed h (before ++ mid ++ after) file)
    (hg : Gathered h h1 before mid after low size file1)
    (hblocks : before' ++ mid' ++ after' = before ++ mid ++ after) (hfree : b.free = true)
    (hb : b ∈ before ++ after)
    (hfreed : freed (before ++ after) \ {(b.addr, b.size)} = freed (before' ++ after'))
    (htiles : Tiles low' mid' (low' + (size + b.size))) (hne : mid' ≠ [])
    (htotal : freeSize before + freeSize after = freeSize before' + b.size + freeSize after') :
    ∃ h2 file2, unlinkHmu h1 b.addr = some (true, h2) ∧ h1.hmuGetSize b.addr = b.size ∧
      Gathered h h2 before' mid' after' low' (size + b.size) file2 := by
  have hmem : b ∈ before ++ mid ++ after := by
    simp only [List.mem_append] at hb ⊢
    tauto
  have hs := (scattered_of_tiles hwf.tiles hwf.proper).subset (freed_sides mid)
  have hpools := hg.samePool
  have hhead : h1.head b.addr = h.head b.addr :=
    head_of_rim (hwf.proper b hmem) fun i hi =>
      hg.refiled.outside i (rim_not_filing hwf.pool hwf.tiles hmem subset_rfl i hi)
  have hlabel := hwf.labelled hmem
  have hut : h1.hmuGetUt b.addr = .fc := by
    refine (congrArg Header.ut hhead).trans (hlabel.1.trans ?_)
    rw [hfree]
    rfl
  have hsize : h1.hmuGetSize b.addr = b.size := (congrArg Header.size hhead).trans hlabel.2.1
  have he : (b.addr, b.size) ∈ freed (before ++ after) := by
    rw [mem_freed, ← hfree]
    exact hb
  obtain ⟨h2, file2, hrun, hf2, hr⟩ := unlinkHmu_filed (hpools.pool hwf.pool)
    (hpools.scattered hs) hg.filed he hut hsize
  rw [hfreed] at hf2
  refine ⟨h2, file2, hrun, hsize, htiles, hne, hf2, ?_, ?_⟩
  · rw [hblocks, show h2.totalFreeSize = h1.totalFreeSize from hr.totalFreeSize]
    refine hg.refiled.trans (hr.mono ?_)
    rw [hpools.filing]
    exact fun i hi => hi.imp_right fun ⟨e, he, hrest⟩ => ⟨e, freed_sides mid he, hrest⟩
  · rw [hr.totalFreeSize, hg.total]
    omega

theorem Gathered.take_front {q : Block}
    (hwf : WellFormed h (before ++ [q] ++ mid ++ after) file)
    (hg : Gathered h h1 (before ++ [q]) mid after low size file1) (hfree : q.free = true) :
    ∃ h2 file2, unlinkHmu h1 q.addr = some (true, h2) ∧ h1.hmuGetSize q.addr = q.size ∧
      q.addr + q.size = low ∧
      Gathered h h2 before (q :: mid) after q.addr (size + q.size) file2 := by
  have hlarge := (hwf.proper q (by simp)).large
  have htiles := hwf.tiles
  rw [List.append_assoc, List.append_assoc, List.singleton_append] at htiles
  have hnot := not_mem_sides htiles (by omega)
  obtain ⟨start, -, hq, hrest⟩ := tiles_append.mp htiles
  have hlow : q.addr + q.size = low := by
    obtain ⟨first, rest, hmid⟩ := List.exists_cons_of_ne_nil hg.ne_nil
    have hmid' := hg.tiles
    rw [hmid] at hmid' hrest
    rw [hq]
    exact hrest.1.symm.trans hmid'.1
  obtain ⟨a, n, free⟩ := q
  simp only at hfree
  subst hfree
  obtain ⟨h2, file2, hrun, hsize, hg2⟩ := hg.unlink before (⟨a, n, true⟩ :: mid) after a
    ⟨a, n, true⟩ hwf (by simp) rfl (by simp)
    (freed_erase fun hmem => hnot (by
      simp only [List.mem_append] at hmem ⊢
      tauto))
    ⟨rfl, by
      simp only at hlow ⊢
      rw [hlow, show a + (size + n) = low + size by omega]
      exact hg.tiles⟩ (by simp)
    (by simp)
  exact ⟨h2, file2, hrun, hsize, hlow, hg2⟩

theorem Gathered.take_back {d : Block}
    (hwf : WellFormed h (before ++ mid ++ d :: after) file)
    (hg : Gathered h h1 before mid (d :: after) low size file1) (hfree : d.free = true)
    (hd : d.addr = low + size) :
    ∃ h2 file2, unlinkHmu h1 d.addr = some (true, h2) ∧ h1.hmuGetSize d.addr = d.size ∧
      Gathered h h2 before (mid ++ [d]) after low (size + d.size) file2 := by
  have hlarge := (hwf.proper d (by simp)).large
  have hnot := not_mem_sides hwf.tiles (by omega)
  obtain ⟨a, n, free⟩ := d
  simp only at hfree
  subst hfree
  obtain ⟨h2, file2, hrun, hsize, hg2⟩ := hg.unlink before (mid ++ [⟨a, n, true⟩]) after low
    ⟨a, n, true⟩ hwf (by simp) rfl (by simp)
    (by
      rw [← List.singleton_append, ← List.append_assoc]
      refine freed_erase fun hmem => hnot ?_
      simp only [List.mem_append] at hmem ⊢
      tauto)
    (tiles_append.mpr ⟨_, hg.tiles, hd, by simp [Nat.add_assoc]⟩) (by simp)
    (by simp only [freeSize_cons, if_true]; omega)
  exact ⟨h2, file2, hrun, hsize, hg2⟩

end Merge

section Free

variable {h : Heap} {blocks before after : List Block} {file : File} {p n : Nat}

theorem gcFreeVo_eq_of_phases {h1 h2 h3 : Heap} {low size1 size2 : Nat}
    (hintact : h.isHeapCorrupted = false) (hin : h.hmuIsInHeap p = true)
    (hut : h.hmuGetUt p = .vo) (hfreed : h.hmuIsVoFreed p = false) (hsize : h.hmuGetSize p = n)
    (hfront : mergeFront (h.give n) p n = some (true, low, size1, h1))
    (hback : mergeBack h1 low size1 = some (true, size2, h2))
    (hadd : gciAddFc h2 low size2 = some (true, h3)) :
    gcFreeVo h (p + 4) = some (true, unmarked h3 (low + size2)) := by
  simp only [gcFreeVo, show HMU_SIZE = 4 from rfl, Nat.add_sub_cancel, hintact, hin, hut, hfreed,
    hsize, hfront, hback, hadd, unmarked]
  simp

theorem prevOf_eq {a : Nat} (hload : load h.mem (p - 4) 4 = n) (hn : n < 2 ^ 31) (hp : a + n = p)
    (hsmall : p < 2 ^ 64) : prevOf h p = a := by
  have hint : (BitVec.ofNat 32 n).toInt = n := by
    rw [BitVec.toInt_ofNat', Int.bmod_def]
    omega
  rw [prevOf, hload, hint]
  omega

variable (hwf : WellFormed h (before ++ [⟨p, n, false⟩] ++ after) file)

include hwf in
-- The chunk of the object, alone.
theorem gathered_self : Gathered h (h.give n) before [⟨p, n, false⟩] after p n file := by
  have htotal := hwf.total
  have hle := hwf.tiles.sum
  have hsmall := hwf.pool.small
  have hb := freeSize_le_sum before
  have ha := freeSize_le_sum after
  have hfreed : freed (before ++ [⟨p, n, false⟩] ++ after) = freed (before ++ after) := by
    rw [List.append_assoc, List.singleton_append, freed_append, freed_cons_used, freed_append]
  simp only [List.map_append, List.sum_append, List.map_cons, List.map_nil, List.sum_cons,
    List.sum_nil] at hle
  simp only [freeSize_append, freeSize_cons, freeSize_nil] at htotal
  refine ⟨⟨rfl, rfl⟩, by simp, ?_, .refl _ _, ?_⟩
  · rw [← hfreed]
    refine hwf.filed.congr ?_ rfl rfl fun _ _ => rfl
    exact scattered_of_tiles hwf.tiles hwf.proper
  · simp only [Bool.false_eq_true, if_false] at htotal
    rw [Heap.give]
    simp only
    omega

theorem mergeFront_of_pinuse {h : Heap} (hpin : h.hmuGetPinuse p = true) :
    mergeFront h p n = some (true, p, n, h) := by
  rw [mergeFront, if_neg (by simp [hpin])]

include hwf in
theorem mergeFront_eq :
    ∃ h1 before1 mid1 low size1 file1,
      mergeFront (h.give n) p n = some (true, low, size1, h1) ∧
      before1 ++ mid1 ++ after = before ++ [⟨p, n, false⟩] ++ after ∧
      Gathered h h1 before1 mid1 after low size1 file1 ∧
      (∀ b ∈ before1.getLast?, b.free = false) ∧
      (∀ b ∈ before, b.free = false → b ∈ before1) ∧ ⟨p, n, false⟩ ∈ mid1 := by
  have hg := gathered_self hwf
  have hranged := (ranged_append.mp (ranged_append.mp hwf.ranged).1).2.2.1
  rcases List.eq_nil_or_concat before with rfl | ⟨init, q, hconcat⟩
  · -- nothing is in front
    have hpin : (h.give n).hmuGetPinuse p = true := hranged
    exact ⟨_, [], [⟨p, n, false⟩], p, n, file, mergeFront_of_pinuse hpin, rfl, hg, by simp,
      by simp, by simp⟩
  · rw [List.concat_eq_append] at hconcat
    subst hconcat
    rw [List.getLast?_append, List.getLast?_singleton, Option.some_or, Option.some_or] at hranged
    obtain ⟨hpin, hfooter⟩ := hranged
    cases hfree : q.free with
    | false =>
        rw [hfree] at hpin
        exact ⟨_, init ++ [q], [⟨p, n, false⟩], p, n, file, mergeFront_of_pinuse hpin, rfl, hg,
          by simp [hfree], fun b hb _ => hb, by simp⟩
    | true =>
        obtain ⟨h2, file2, hrun, hsize, hlow, hg2⟩ := hg.take_front (by simpa using hwf) hfree
        have hbounds := hwf.tiles.bounds (b := q) (by simp)
        have hbounds' := hwf.tiles.bounds (b := ⟨p, n, false⟩) (by simp)
        have hlarge' := (hwf.proper ⟨p, n, false⟩ (by simp)).large
        have hfits := hwf.pool.fits
        have hsmall := hwf.pool.small
        have hlarge := (hwf.proper q (by simp)).large
        simp only at hbounds' hlarge'
        have hprev : prevOf (h.give n) p = q.addr := by
          refine prevOf_eq (n := q.size) ?_ (by omega) hlow (by omega)
          rw [← hlow]
          exact hfooter hfree
        have hin : (h.give n).hmuIsInHeap q.addr = true := inHeap_iff.mpr ⟨hbounds.1, by
          rw [show (h.give n).baseAddr = h.baseAddr from rfl,
            show (h.give n).currentSize = h.currentSize from rfl]
          omega⟩
        have hut : (h.give n).hmuGetUt q.addr = .fc := by
          have hlabel := (hwf.labelled (b := q) (by simp)).1
          rw [hfree] at hlabel
          exact hlabel
        have hmerged := (merged_append.mp (merged_append.mp (merged_append.mp hwf.merged).1).1).2.2
        refine ⟨h2, init, [q, ⟨p, n, false⟩], q.addr, n + q.size, file2, ?_, by simp, hg2, ?_, ?_,
          by simp⟩
        · rw [hfree] at hpin
          rw [mergeFront, hprev, if_pos ⟨by simp [show (h.give n).hmuGetPinuse p = false from hpin],
            hin, hut⟩, hrun, hsize]
          rfl
        · intro b hb
          by_contra hne
          exact hmerged b hb q rfl ⟨by simpa using hne, hfree⟩
        · intro b hb hused
          rcases List.mem_append.mp hb with hb | hb
          · exact hb
          · rw [List.mem_singleton.mp hb, hfree] at hused
            cases hused

theorem mergeBack_eq {h1 : Heap} {mid : List Block} {low size : Nat} {file1 : File}
    (hwf : WellFormed h (before ++ mid ++ after) file)
    (hg : Gathered h h1 before mid after low size file1) :
    ∃ h2 mid2 after2 size2 file2, mergeBack h1 low size = some (true, size2, h2) ∧
      before ++ mid2 ++ after2 = before ++ mid ++ after ∧
      Gathered h h2 before mid2 after2 low size2 file2 ∧
      (∀ b ∈ after2.head?, b.free = false) ∧ (∀ b ∈ after, b.free = false → b ∈ after2) ∧
      mid ⊆ mid2 := by
  obtain ⟨start, stop, -, hmid, hafter⟩ := tiles_sides hwf.tiles
  have hstop : low + size = stop := by
    have hsum := hg.tiles.sum
    have hsum' := hmid.sum
    obtain ⟨first, rest, hcons⟩ := List.exists_cons_of_ne_nil hg.ne_nil
    have htiles := hg.tiles
    rw [hcons] at htiles hmid
    have hlow := htiles.1.symm.trans hmid.1
    omega
  subst hstop
  have hpools := hg.samePool
  cases after with
  | nil =>
      replace hafter : low + size = h.baseAddr + h.currentSize := hafter
      refine ⟨h1, mid, [], size, file1, ?_, rfl, hg, by simp, by simp, List.Subset.refl _⟩
      rw [mergeBack, if_neg]
      rintro ⟨hin, -⟩
      rw [hpools.inHeap, inHeap_iff] at hin
      omega
  | cons d rest =>
      obtain ⟨hd, -⟩ := hafter
      have hbounds := hwf.tiles.bounds (b := d) (by simp)
      have hlarge := (hwf.proper d (by simp)).large
      have hin : h1.hmuIsInHeap (low + size) = true := by
        rw [hpools.inHeap, ← hd]
        exact inHeap_iff.mpr ⟨hbounds.1, by omega⟩
      have hhead : h1.head d.addr = h.head d.addr :=
        head_of_rim (hwf.proper d (by simp)) fun i hi =>
          hg.refiled.outside i (rim_not_filing hwf.pool hwf.tiles (by simp) subset_rfl i hi)
      have hut : h1.hmuGetUt d.addr = if d.free then .fc else .vo :=
        (congrArg Header.ut hhead).trans (ranged_append.mp hwf.ranged).2.1.1
      cases hfree : d.free with
      | false =>
          refine ⟨h1, mid, d :: rest, size, file1, ?_, rfl, hg, by simp [hfree], fun b hb _ => hb,
            List.Subset.refl _⟩
          rw [mergeBack, if_neg]
          rintro ⟨-, hfc⟩
          rw [← hd, hut, hfree] at hfc
          cases hfc
      | true =>
          obtain ⟨h2, file2, hrun, hsize, hg2⟩ := hg.take_back hwf hfree hd
          rw [hfree] at hut
          refine ⟨h2, mid ++ [d], rest, size + d.size, file2, ?_, by simp, hg2, ?_, ?_,
            List.subset_append_left _ _⟩
          · rw [mergeBack, if_pos ⟨hin, by rw [← hd]; exact hut⟩, ← hd, hrun, hsize]
            rfl
          · have hmerged := (merged_cons.mp (merged_append.mp hwf.merged).2.1).1
            intro b hb
            by_contra hne
            exact hmerged b hb ⟨hfree, by simpa using hne⟩
          · intro b hb hused
            rcases List.mem_cons.mp hb with rfl | hb
            · rw [hfree] at hused
              cases hused
            · exact hb

-- The heap after `free`: the chunk of the object is free, merged with its free neighbours, and no
-- other object has changed.
structure Released (h : Heap) (blocks : List Block) (p : Nat) (h' : Heap) (blocks' : List Block)
    (file' : File) : Prop where
  wellFormed : WellFormed h' blocks' file'
  same : SamePool h h'
  used : ∀ b : Block, b.free = false → (b ∈ blocks' ↔ b ∈ blocks ∧ b.addr ≠ p)
  kept : ∀ b ∈ blocks, b.free = false → b.addr ≠ p → ∀ i ∈ payload b, h'.mem i = h.mem i

theorem gcFreeVo_eq (hwf : WellFormed h blocks file) (hmem : ⟨p, n, false⟩ ∈ blocks) :
    ∃ h' blocks' file', gcFreeVo h (p + 4) = some (true, h') ∧
      Released h blocks p h' blocks' file' := by
  obtain ⟨before, after, hsplit⟩ := List.append_of_mem hmem
  rw [← List.singleton_append, ← List.append_assoc] at hsplit
  subst hsplit
  have hlarge := (hwf.proper _ hmem).large
  have hbounds := hwf.tiles.bounds hmem
  simp only at hlarge hbounds
  have hlabel := hwf.labelled hmem
  obtain ⟨h1, before1, mid1, low, size1, file1, hfront, hblocks1, hg1, hlast, hsub1,
    hself1⟩ :=
    mergeFront_eq hwf
  have hwf1 := hwf
  rw [← hblocks1] at hwf1
  obtain ⟨h2, mid2, after2, size2, file2, hback, hblocks2, hg2, hhead, hsub2,
    hself2⟩ :=
    mergeBack_eq hwf1 hg1
  have hwf2 := hwf1
  rw [← hblocks2] at hwf2
  obtain ⟨h3, file3, hadd, hwf3, hpools, hkept⟩ := hg2.finish hwf2 hlast hhead
  have hblocks := hblocks2.trans hblocks1
  obtain ⟨start, stop, hstart, hstop, hend⟩ := tiles_sides hwf2.tiles
  -- the other objects are in front of the merged chunk or behind it
  have hothers : ∀ b ∈ before ++ [⟨p, n, false⟩] ++ after, b.free = false → b.addr ≠ p →
      b ∈ before1 ++ after2 := by
    intro b hb hused hne
    simp only [List.append_assoc, List.mem_append, List.mem_singleton] at hb ⊢
    rcases hb with hb | rfl | hb
    · exact .inl (hsub1 b hb hused)
    · exact absurd rfl hne
    · exact .inr (hsub2 b hb hused)
  refine ⟨_, _, file3, gcFreeVo_eq_of_phases hwf.intact ?_ hlabel.1 (hlabel.2.2 rfl) hlabel.2.1
    hfront hback hadd, hwf3, hpools, ?_, ?_⟩
  · exact inHeap_iff.mpr ⟨hbounds.1, by omega⟩
  · intro b hused
    constructor
    · intro hb
      have hb' : b ∈ before1 ++ after2 := by
        simp only [List.append_assoc, List.mem_append, List.mem_singleton] at hb ⊢
        rcases hb with hb | rfl | hb
        · exact .inl hb
        · cases hused
        · exact .inr hb
      refine ⟨?_, ?_⟩
      · rw [← hblocks]
        simp only [List.mem_append] at hb' ⊢
        tauto
      · have hproper := hwf3.proper b hb
        have hplace := hstop.bounds (hself2 hself1)
        have hlarge' := hproper.large
        simp only at hplace
        rcases List.mem_append.mp hb' with hb' | hb'
        · have hb'' := hstart.bounds hb'
          omega
        · have hb'' := hend.bounds hb'
          omega
    · rintro ⟨hb, hne⟩
      have hb' := hothers b hb hused hne
      simp only [List.append_assoc, List.mem_append] at hb' ⊢
      tauto
  · intro b hb hused hne
    exact hkept b (hothers b hb hused hne) hused

end Free

end Watz.Ems
