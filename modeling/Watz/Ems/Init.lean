import Watz.Ems.Chunks

namespace Watz.Ems

open Base.Layout Base.Words Base.Arena
open Base.LinkedTree
open Base.LinkedList (Chain)

section Init

variable {h : Heap} {root base size : Nat} {mem : Mem}

-- The first chunk, in the tree by itself.
def firstFile (base size : Nat) : File := ⟨fun _ => [], .node .leaf base size .leaf⟩

-- The heap before its two nodes are linked: zeros, the header and the size of the root node, and
-- the header of the first chunk.
def unlinkedInit (root base size : Nat) (mem : Mem) : Heap :=
  let h : Heap :=
    { baseAddr := base
      currentSize := size
      kfcNormalList := fun _ => 0
      kfcTreeRoot := root
      isHeapCorrupted := false
      highmarkSize := 0
      totalFreeSize := size
      mem := clear (clear mem root TREE_NODE_SIZE) base size }
  let h := ((h.setSize root TREE_NODE_SIZE).hmuSetUt root .fc).hmuSetSize root TREE_NODE_SIZE
  ((h.hmuSetUt base .fc).hmuSetSize base size).hmuMarkPinuse base

theorem gcInitInternal_eq :
    gcInitInternal root base size mem =
      (((unlinkedInit root base size mem).setRight root base).setParent base root).setSize base
        size := rfl

section Nodes

variable (hapart : Apart root 32 base size) (hlarge : 248 ≤ size) (hsmall : size < 2 ^ 30)
  (h8 : 8 ∣ size)

include hapart hlarge in
theorem load_unlinkedInit {a width : Nat} (hlow : base + 4 ≤ a) (hhigh : a + width ≤ base + 32) :
    load (unlinkedInit root base size mem).mem a width = 0 := by
  have houtside : ∀ i, base + 4 ≤ i → i < base + 32 → (unlinkedInit root base size mem).mem i =
      clear (clear mem root TREE_NODE_SIZE) base size i := by
    intro i hi hi'
    have hroot : i < root ∨ root + 32 ≤ i := by rcases hapart with hapart | hapart <;> omega
    refine (Heap.setHeader_outside _ (by omega)).trans ?_
    refine (Heap.setHeader_outside _ (by omega)).trans ?_
    refine (Heap.setHeader_outside _ (by omega)).trans ?_
    refine (Heap.setHeader_outside _ (by omega)).trans ?_
    exact (Heap.setHeader_outside _ (by omega)).trans (store_outside (by omega))
  rw [load_congr fun i hi hi' => houtside i (by omega) (by omega)]
  exact load_clear (by omega) (by omega)

include hapart in
theorem size_root_unlinkedInit (hlarge : 248 ≤ size) :
    (unlinkedInit root base size mem).size root = TREE_NODE_SIZE := by
  have hsame : (unlinkedInit root base size mem).size root =
      load (store (clear (clear mem root TREE_NODE_SIZE) base size) (root + 28) 4 TREE_NODE_SIZE)
        (root + 28) 4 := by
    apply load_congr
    intro i hi hi'
    have hbase : i < base ∨ base + 4 ≤ i := by rcases hapart with hapart | hapart <;> omega
    refine (Heap.setHeader_outside _ hbase).trans ((Heap.setHeader_outside _ hbase).trans ?_)
    refine (Heap.setHeader_outside _ hbase).trans ?_
    exact (Heap.setHeader_outside _ (by omega)).trans (Heap.setHeader_outside _ (by omega))
  rw [hsame]
  exact load_store (by decide)

include hsmall h8 in
theorem head_unlinkedInit (root base : Nat) (mem : Mem) :
    ((unlinkedInit root base size mem).head base).ut = .fc ∧
      ((unlinkedInit root base size mem).head base).pinuse = true ∧
      ((unlinkedInit root base size mem).head base).size = size := by
  simp only [unlinkedInit, Heap.head_hmuMarkPinuse, Heap.head_hmuSetSize hsmall h8,
    Heap.head_hmuSetUt, and_self]

end Nodes

-- The tree has the first chunk, and the lists are empty.
theorem filed_init (hapart : Apart root 32 base size) (hbase : 0 < base)
    (hfits : base + size ≤ 2 ^ 64) (hroot : root + 32 ≤ 2 ^ 64) (hlarge : 248 ≤ size)
    (hsmall : size < 2 ^ 30) :
    Filed (gcInitInternal root base size mem) (firstFile base size) {(base, size)} := by
  have hzero : ∀ a, base + 4 ≤ a → a + 8 ≤ base + 20 →
      load (gcInitInternal root base size mem).mem a 8 = 0 := by
    intro a hlow hhigh
    rw [gcInitInternal_eq]
    refine (load_store_apart (.inr (by omega))).trans ((load_store_apart (.inr (by omega))).trans ?_)
    refine (load_store_apart ?_).trans (load_unlinkedInit hapart hlarge hlow (by omega))
    rcases hapart with hapart | hapart
    · exact .inl (by omega)
    · exact .inr (by omega)
  have hright : (gcInitInternal root base size mem).right root = base := by
    rw [gcInitInternal_eq]
    refine (load_store_apart ?_).trans ((load_store_apart ?_).trans (load_store (by omega)))
    · rcases hapart with hapart | hapart
      · exact .inr (by omega)
      · exact .inl (by omega)
    · rcases hapart with hapart | hapart
      · exact .inr (by omega)
      · exact .inl (by omega)
  have hrootSize : (gcInitInternal root base size mem).size root = TREE_NODE_SIZE := by
    rw [gcInitInternal_eq]
    refine (load_store_apart ?_).trans ((load_store_apart ?_).trans ((load_store_apart
      (.inl (by omega))).trans (size_root_unlinkedInit hapart hlarge)))
    · rcases hapart with hapart | hapart
      · exact .inr (by omega)
      · exact .inl (by omega)
    · rcases hapart with hapart | hapart
      · exact .inr (by omega)
      · exact .inl (by omega)
  refine ⟨fun _ => rfl, fun _ => List.nodup_nil, ?_, ?_, ?_, hrootSize, ?_, ?_⟩
  · refine ⟨hright, by omega, ?_, ?_, ?_, ?_⟩
    · rw [gcInitInternal_eq]
      exact (load_store_apart (.inr (by omega))).trans (load_store (by omega))
    · rw [gcInitInternal_eq]
      exact load_store (by omega)
    · exact hzero (base + 4) (by omega) (by omega)
    · exact hzero (base + 12) (by omega) (by omega)
  · simp [firstFile]
  · simp [firstFile, KeyTree.Ordered]
  · intro i a
    rw [firstFile, show HMU_FC_NORMAL_MAX_SIZE = 248 from rfl, Set.mem_singleton_iff, Prod.mk.injEq]
    simp only [List.not_mem_nil, false_iff]
    omega
  · intro e
    rw [firstFile, show HMU_FC_NORMAL_MAX_SIZE = 248 from rfl]
    simp only [KeyTree.entries_node, KeyTree.entries_leaf, List.nil_append, List.mem_singleton,
      Set.mem_singleton_iff]
    constructor
    · rintro rfl
      exact ⟨rfl, hlarge⟩
    · exact And.left

theorem gcInitInternal_wellFormed (hpool : Pool (gcInitInternal root base size mem))
    (hlarge : HMU_FC_NORMAL_MAX_SIZE ≤ size) :
    WellFormed (gcInitInternal root base size mem) [⟨base, size, true⟩] (firstFile base size) := by
  have hapart : Apart root 32 base size := hpool.root_apart
  have hbase : 0 < base := hpool.base_pos
  have hfits : base + size ≤ 2 ^ 64 := hpool.fits
  have hroot : root + 32 ≤ 2 ^ 64 := hpool.root_fits
  have hsmall : size < 2 ^ 30 := hpool.small
  have h8 : 8 ∣ size := hpool.units
  replace hlarge : 248 ≤ size := hlarge
  obtain ⟨hut, hpin, hsize⟩ := head_unlinkedInit hsmall h8 root base mem
  have hhead : (gcInitInternal root base size mem).head base =
      (unlinkedInit root base size mem).head base := by
    rw [gcInitInternal_eq]
    refine Heap.head_congr fun i hi hi' => ?_
    refine (store_outside (by omega)).trans ((store_outside (by omega)).trans ?_)
    exact store_outside (by rcases hapart with hapart | hapart <;> omega)
  refine ⟨hpool, ⟨rfl, rfl⟩, ?_, ⟨⟨?_, ?_, fun hfree => nomatch hfree⟩, ?_, trivial⟩, ?_, ?_, ?_, rfl⟩
  · simp only [List.mem_singleton, forall_eq]
    exact ⟨le_trans (by decide) hlarge, h8⟩
  · exact (congrArg Header.ut hhead).trans hut
  · exact (congrArg Header.size hhead).trans hsize
  · exact (congrArg Header.pinuse hhead).trans hpin
  · exact List.isChain_singleton _
  · have hfree : freed [⟨base, size, true⟩] = {(base, size)} := by
      rw [freed_cons_free]
      ext e
      simp [freed]
    rw [hfree]
    exact filed_init hapart hbase hfits hroot hlarge hsmall
  · rw [freeSize_cons, freeSize_nil]
    rfl

-- The buffers that the runtime hands to `gc_init_with_struct_and_pool`.
structure Buffers (rootOffset structBuf poolBuf poolBufSize : Nat) : Prop where
  pool_pos : 0 < poolBuf
  pool_max : poolBufSize ≤ APP_HEAP_SIZE_MAX
  pool_fits : poolBuf + poolBufSize ≤ 2 ^ 64
  root_pos : 0 < structBuf + rootOffset
  root_fits : structBuf + rootOffset + TREE_NODE_SIZE ≤ 2 ^ 64
  apart : Apart (structBuf + rootOffset) TREE_NODE_SIZE poolBuf poolBufSize

theorem gcInitWithStructAndPool_wellFormed {rootOffset structBuf structBufSize poolBuf
    poolBufSize : Nat} (hbuffers : Buffers rootOffset structBuf poolBuf poolBufSize)
    (hinit : gcInitWithStructAndPool rootOffset structBuf structBufSize poolBuf poolBufSize mem =
      some h) :
    WellFormed h [⟨h.baseAddr, h.currentSize, true⟩] (firstFile h.baseAddr h.currentSize) := by
  rw [gcInitWithStructAndPool] at hinit
  split at hinit
  · cases hinit
  split at hinit
  · cases hinit
  split at hinit
  · cases hinit
  split at hinit
  · cases hinit
  rename_i _ _ haligned hmin
  obtain rfl := Option.some.inj hinit
  have hmax : poolBufSize ≤ 2 ^ 30 := hbuffers.pool_max
  have hpos := hbuffers.pool_pos
  have hfits := hbuffers.pool_fits
  have hapart : Apart (structBuf + rootOffset) 32 poolBuf poolBufSize := hbuffers.apart
  rw [show APP_HEAP_SIZE_MIN = 256 from rfl] at hmin
  simp only [show GC_HEAD_PADDING = 4 from rfl]
  apply gcInitInternal_wellFormed
  · refine ⟨by change 0 < poolBuf + 4; omega, ?_, ?_, ?_, ?_, hbuffers.root_pos, hbuffers.root_fits,
      ?_⟩
    · change poolBuf + 4 + (poolBufSize - 4) / 8 * 8 ≤ 2 ^ 64
      omega
    · change (poolBufSize - 4) / 8 * 8 < 2 ^ 30
      omega
    · change (poolBuf + 4) % 8 = 4
      omega
    · exact Dvd.intro_left _ rfl
    · change Apart (structBuf + rootOffset) 32 (poolBuf + 4) ((poolBufSize - 4) / 8 * 8)
      rcases hapart with hapart | hapart
      · exact .inl (by omega)
      · exact .inr (by omega)
  · change 248 ≤ (poolBufSize - 4) / 8 * 8
    omega

end Init

end Watz.Ems
