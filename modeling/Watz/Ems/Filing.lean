import Mathlib.Order.Interval.Finset.Nat
import Watz.Base.Arena
import Watz.Base.LinkedList
import Watz.Ems.Tree

namespace Watz.Ems

open Base.Layout Base.Words
open Base.LinkedTree
open Base.LinkedList (Chain)

-- The pool and the root node, which lies outside of it.
structure Pool (h : Heap) : Prop where
  base_pos : 0 < h.baseAddr
  fits : h.baseAddr + h.currentSize ≤ 2 ^ 64
  small : h.currentSize < 2 ^ 30
  aligned : h.baseAddr % 8 = 4
  units : 8 ∣ h.currentSize
  root_pos : 0 < h.kfcTreeRoot
  root_fits : h.kfcTreeRoot + TREE_NODE_SIZE ≤ 2 ^ 64
  root_apart : Apart h.kfcTreeRoot TREE_NODE_SIZE h.baseAddr h.currentSize

-- Where free chunks may lie. The free chunks are given by their addresses and sizes.
structure Scattered (h : Heap) (free : Set (Nat × Nat)) : Prop where
  inside : ∀ e ∈ free, h.baseAddr ≤ e.1 ∧ e.1 + e.2 ≤ h.baseAddr + h.currentSize
  large : ∀ e ∈ free, GC_SMALLEST_SIZE ≤ e.2 ∧ 8 ∣ e.2
  apart : ∀ e ∈ free, ∀ e' ∈ free, e ≠ e' → Apart e.1 e.2 e'.1 e'.2

-- The nodes of the lists and of the tree.
structure File where
  lists : Nat → List Nat
  tree : KeyTree Nat Nat

-- Each free chunk is in the list of its size or, where it is large, in the tree; and nothing
-- else is there.
structure Filed (h : Heap) (file : File) (free : Set (Nat × Nat)) : Prop where
  chain : ∀ i, Chain h.getHmuNormalNodeNext (file.lists i) (h.kfcNormalList i)
  nodup : ∀ i, (file.lists i).Nodup
  tree : TreeAt h file.tree
  distinct : file.tree.addresses.Nodup
  ordered : file.tree.Ordered
  root : h.size h.kfcTreeRoot = TREE_NODE_SIZE
  mem_list : ∀ i a, a ∈ file.lists i ↔ (a, 8 * i) ∈ free ∧ 8 * i < HMU_FC_NORMAL_MAX_SIZE
  mem_tree : ∀ e, e ∈ file.tree.entries ↔ e ∈ free ∧ HMU_FC_NORMAL_MAX_SIZE ≤ e.2

-- The bytes that hold the lists and the tree: the root node, and the inner part of each free
-- chunk, between the header and the size in its last word.
def filing (h : Heap) (free : Set (Nat × Nat)) : Set Nat :=
  {i | (h.kfcTreeRoot + 4 ≤ i ∧ i < h.kfcTreeRoot + TREE_NODE_SIZE) ∨
    ∃ e ∈ free, e.1 + 4 ≤ i ∧ i + 4 < e.1 + e.2}

section Next

variable {h h' : Heap} {node next : Nat}

@[simp] theorem Heap.head_setNormalHead (index : Nat) :
    (h.setNormalHead index node).kfcNormalList index = node :=
  Function.update_self ..

theorem next_congr (hsame : ∀ i, node + 4 ≤ i → i < node + 8 → h'.mem i = h.mem i) :
    h'.getHmuNormalNodeNext node = h.getHmuNormalNodeNext node := by
  have hoffset : h'.nextOffset node = h.nextOffset node := by
    rw [Heap.nextOffset, Heap.nextOffset, load_congr hsame]
  rw [Heap.getHmuNormalNodeNext, Heap.getHmuNormalNodeNext, hoffset]

-- The distance to the next node fits in 32 bits.
theorem next_setNext (hne : next ≠ node) (hnear : next = 0 ∨ next < node + 2 ^ 31)
    (hnear' : next = 0 ∨ node ≤ next + 2 ^ 31) (hsmall : next < 2 ^ 64) :
    (h.setHmuNormalNodeNext node next).getHmuNormalNodeNext node = next := by
  by_cases hzero : next = 0
  · have hload : load (h.setHmuNormalNodeNext node next).mem (node + 4) 4 = 0 := by
      simp only [Heap.setHmuNormalNodeNext, if_pos hzero]
      exact load_store (by omega)
    rw [Heap.getHmuNormalNodeNext, if_pos (by rw [Heap.nextOffset, hload]; rfl), hzero]
  · have hload : load (h.setHmuNormalNodeNext node next).mem (node + 4) 4 =
        (((next : Int) - node) % 2 ^ 32).toNat := by
      simp only [Heap.setHmuNormalNodeNext, if_neg hzero]
      exact load_store (by omega)
    have hoffset : (h.setHmuNormalNodeNext node next).nextOffset node = (next : Int) - node := by
      rw [Heap.nextOffset, hload, BitVec.toInt_ofNat', Int.toNat_of_nonneg (by omega)]
      rw [Int.bmod_def]
      omega
    rw [Heap.getHmuNormalNodeNext, hoffset, if_neg (by omega)]
    omega

end Next

section Filed

variable {h h' : Heap} {file : File} {free : Set (Nat × Nat)}

theorem Scattered.subset {free' : Set (Nat × Nat)} (hs : Scattered h free) (hsub : free' ⊆ free) :
    Scattered h free' :=
  ⟨fun e he => hs.inside e (hsub he), fun e he => hs.large e (hsub he),
    fun e he e' he' => hs.apart e (hsub he) e' (hsub he')⟩

theorem Scattered.bounds (hs : Scattered h free) {a n : Nat} (he : (a, n) ∈ free) :
    h.baseAddr ≤ a ∧ a + n ≤ h.baseAddr + h.currentSize ∧ 16 ≤ n :=
  ⟨(hs.inside _ he).1, (hs.inside _ he).2, (hs.large _ he).1⟩

theorem Scattered.eq_of_addr (hs : Scattered h free) {a n n' : Nat} (he : (a, n) ∈ free)
    (he' : (a, n') ∈ free) : n = n' := by
  by_contra hne
  have hbounds := hs.bounds he
  have hbounds' := hs.bounds he'
  have hapart : Apart a n a n' := hs.apart _ he _ he' (by simp [hne])
  rcases hapart with hapart | hapart <;> omega

theorem inHeap_iff {a : Nat} :
    h.hmuIsInHeap a = true ↔ h.baseAddr ≤ a ∧ a < h.baseAddr + h.currentSize := by
  simp [Heap.hmuIsInHeap]

theorem Scattered.inHeap (hs : Scattered h free) {a n : Nat} (he : (a, n) ∈ free) :
    h.hmuIsInHeap a = true := by
  have hbounds := hs.bounds he
  exact inHeap_iff.mpr ⟨hbounds.1, by omega⟩

theorem Scattered.length_le {nodes : List Nat} (hs : Scattered h free) (hnodup : nodes.Nodup)
    (hmem : ∀ a ∈ nodes, ∃ n, (a, n) ∈ free) : nodes.length ≤ h.currentSize := by
  have hsub : nodes.toFinset ⊆ Finset.Ico h.baseAddr (h.baseAddr + h.currentSize) := by
    intro a ha
    obtain ⟨n, hn⟩ := hmem a (List.mem_toFinset.mp ha)
    exact Finset.mem_Ico.mpr (inHeap_iff.mp (hs.inHeap hn))
  have hcard := Finset.card_le_card hsub
  rw [List.toFinset_card_of_nodup hnodup, Nat.card_Ico] at hcard
  omega

theorem Filed.mem_addresses (hf : Filed h file free) {a : Nat} (ha : a ∈ file.tree.addresses) :
    ∃ n, (a, n) ∈ free ∧ 248 ≤ n := by
  obtain ⟨⟨b, n⟩, he, rfl⟩ := List.mem_map.mp ha
  exact ⟨n, (hf.mem_tree _).mp he⟩

-- The root node and a chunk of the tree.
theorem Pool.node_bounds (hpool : Pool h) (hs : Scattered h free) {a n : Nat} (he : (a, n) ∈ free)
    (hn : 248 ≤ n) : a ≠ 0 ∧ a < 2 ^ 64 ∧ Apart h.kfcTreeRoot 32 a 32 := by
  have hbounds := hs.bounds he
  have hpos := hpool.base_pos
  have hfits := hpool.fits
  have hapart : Apart h.kfcTreeRoot 32 h.baseAddr h.currentSize := hpool.root_apart
  refine ⟨by omega, by omega, ?_⟩
  rcases hapart with hapart | hapart
  · exact .inl (by omega)
  · exact .inr (by omega)

theorem Filed.sited (hf : Filed h file free) (hpool : Pool h) (hs : Scattered h free) :
    Sited h file.tree := by
  have hroot : 0 < h.kfcTreeRoot ∧ h.kfcTreeRoot + 32 ≤ 2 ^ 64 := ⟨hpool.root_pos, hpool.root_fits⟩
  refine ⟨List.pairwise_cons.mpr ⟨?_, ?_⟩, ?_, ?_, ?_⟩
  · intro a ha
    obtain ⟨n, he, hn⟩ := hf.mem_addresses ha
    exact (hpool.node_bounds hs he hn).2.2
  · apply hf.distinct.pairwise_of_forall_ne
    intro a ha b hb hne
    obtain ⟨n, hea, hn⟩ := hf.mem_addresses ha
    obtain ⟨m, heb, hm⟩ := hf.mem_addresses hb
    have hapart : Apart a n b m := hs.apart _ hea _ heb (by simp [hne])
    rcases hapart with hapart | hapart
    · exact .inl (by omega)
    · exact .inr (by omega)
  · intro a ha
    obtain ⟨n, he, -⟩ := hf.mem_addresses ha
    exact hs.inHeap he
  · intro a ha
    rcases List.mem_cons.mp ha with rfl | ha
    · omega
    · obtain ⟨n, he, hn⟩ := hf.mem_addresses ha
      exact (hpool.node_bounds hs he hn).1
  · intro a ha
    rcases List.mem_cons.mp ha with rfl | ha
    · omega
    · obtain ⟨n, he, hn⟩ := hf.mem_addresses ha
      exact (hpool.node_bounds hs he hn).2.1

-- Stores outside of these bytes leave the files as they are.
theorem Filed.congr (hf : Filed h file free) (hs : Scattered h free)
    (hlists : h'.kfcNormalList = h.kfcNormalList) (hroot : h'.kfcTreeRoot = h.kfcTreeRoot)
    (hsame : ∀ i ∈ filing h free, h'.mem i = h.mem i) : Filed h' file free := by
  have hrootBytes : ∀ i, h.kfcTreeRoot + 4 ≤ i → i < h.kfcTreeRoot + 32 → h'.mem i = h.mem i :=
    fun i hlow hhigh => hsame i (.inl ⟨hlow, hhigh⟩)
  refine ⟨?_, hf.nodup, ?_, hf.distinct, hf.ordered, ?_, hf.mem_list, hf.mem_tree⟩
  · intro i
    rw [hlists]
    apply (hf.chain i).congr
    intro x hx
    obtain ⟨he, -⟩ := (hf.mem_list i x).mp hx
    have hbounds := hs.bounds he
    apply next_congr
    intro j hlow hhigh
    exact hsame j (.inr ⟨_, he, by simp only; omega, by simp only; omega⟩)
  · have hright : h'.right h.kfcTreeRoot = h.right h.kfcTreeRoot :=
      load_congr fun i hlow hhigh => hrootBytes i (by omega) (by omega)
    rw [TreeAt, hroot, hright]
    apply hf.tree.congr
    intro a ha
    obtain ⟨n, he, hn⟩ := hf.mem_addresses ha
    apply Heap.agree_links
    intro i hlow hhigh
    exact hsame i (.inr ⟨_, he, hlow, by simp only; omega⟩)
  · rw [hroot, ← hf.root]
    exact load_congr fun i hlow hhigh => hrootBytes i (by omega) (by omega)

end Filed

-- The pool is the same, and it is intact if it was.
structure SamePool (h h' : Heap) : Prop where
  base : h'.baseAddr = h.baseAddr
  current : h'.currentSize = h.currentSize
  root : h'.kfcTreeRoot = h.kfcTreeRoot
  intact : h'.isHeapCorrupted = h.isHeapCorrupted

namespace SamePool

variable {h h' h'' : Heap}

theorem trans (hs : SamePool h h') (hs' : SamePool h' h'') : SamePool h h'' :=
  ⟨hs'.base.trans hs.base, hs'.current.trans hs.current, hs'.root.trans hs.root,
    hs'.intact.trans hs.intact⟩

theorem pool (hs : SamePool h h') (hpool : Pool h) : Pool h' := by
  constructor
  · exact hs.base ▸ hpool.base_pos
  · rw [hs.base, hs.current]
    exact hpool.fits
  · exact hs.current ▸ hpool.small
  · exact hs.base ▸ hpool.aligned
  · exact hs.current ▸ hpool.units
  · exact hs.root ▸ hpool.root_pos
  · exact hs.root ▸ hpool.root_fits
  · rw [hs.base, hs.current, hs.root]
    exact hpool.root_apart

theorem scattered (hsame : SamePool h h') {free : Set (Nat × Nat)} (hs : Scattered h free) :
    Scattered h' free := by
  refine ⟨?_, hs.large, hs.apart⟩
  rw [hsame.base, hsame.current]
  exact hs.inside

theorem inHeap (hs : SamePool h h') (a : Nat) : h'.hmuIsInHeap a = h.hmuIsInHeap a := by
  rw [Heap.hmuIsInHeap, Heap.hmuIsInHeap, hs.base, hs.current]

theorem filing (hs : SamePool h h') (free : Set (Nat × Nat)) : filing h' free = filing h free := by
  rw [Ems.filing, Ems.filing, hs.root]

end SamePool

-- The lists and the tree change, in these bytes only.
structure Refiled (bytes : Set Nat) (h h' : Heap) : Prop where
  same : h' = { h with mem := h'.mem, kfcNormalList := h'.kfcNormalList }
  outside : ∀ i ∉ bytes, h'.mem i = h.mem i

namespace Refiled

variable {bytes bytes' : Set Nat} {h h' h'' : Heap}

theorem refl (bytes : Set Nat) (h : Heap) : Refiled bytes h h := ⟨rfl, fun _ _ => rfl⟩

theorem trans (hr : Refiled bytes h h') (hr' : Refiled bytes h' h'') : Refiled bytes h h'' := by
  constructor
  · rw [hr'.same, hr.same]
  · exact fun i hi => (hr'.outside i hi).trans (hr.outside i hi)

theorem mono (hr : Refiled bytes h h') (hsub : bytes ⊆ bytes') : Refiled bytes' h h' :=
  ⟨hr.same, fun i hi => hr.outside i fun hmem => hi (hsub hmem)⟩

theorem of_within (hw : Within bytes h h') : Refiled bytes h h' := by
  refine ⟨?_, hw.outside⟩
  rw [hw.same]

theorem samePool (hr : Refiled bytes h h') : SamePool h h' := by
  rw [hr.same]
  exact ⟨rfl, rfl, rfl, rfl⟩

theorem totalFreeSize (hr : Refiled bytes h h') : h'.totalFreeSize = h.totalFreeSize := by
  rw [hr.same]

end Refiled

section Unlink

variable {h : Heap} {file : File} {free : Set (Nat × Nat)} {a n : Nat}

theorem unlinkLoop_eq (index prev : Nat) {fuel p : Nat} {before after : List Nat}
    (hchain : Chain h.getHmuNormalNodeNext (before ++ a :: after) p) (hnot : a ∉ before)
    (hin : ∀ x ∈ before ++ a :: after, h.hmuIsInHeap x = true) (hfuel : before.length < fuel) :
    unlinkLoop h index a fuel prev p = some (true,
      if before.getLastD prev = 0 then h.setNormalHead index (h.getHmuNormalNodeNext a)
      else h.setHmuNormalNodeNext (before.getLastD prev) (h.getHmuNormalNodeNext a)) := by
  induction before generalizing prev p fuel with
  | nil =>
      obtain ⟨rfl, hne, -⟩ := hchain
      obtain ⟨fuel, rfl⟩ : ∃ k, fuel = k + 1 := ⟨fuel - 1, by simp at hfuel; omega⟩
      rw [unlinkLoop, if_neg hne, hin p (by simp), if_neg (by simp), if_pos rfl, List.getLastD_nil]
      split <;> rfl
  | cons y before ih =>
      obtain ⟨rfl, hne, hrest⟩ := hchain
      obtain ⟨hpa, hnot⟩ := List.ne_and_not_mem_of_not_mem_cons hnot
      obtain ⟨fuel, rfl⟩ : ∃ k, fuel = k + 1 := ⟨fuel - 1, by simp at hfuel; omega⟩
      rw [unlinkLoop, if_neg hne, hin p (by simp), if_neg (by simp), if_neg hpa.symm,
        List.getLastD_cons]
      exact ih p hrest hnot (fun x hx => hin x (List.mem_cons_of_mem _ hx))
        (by simp at hfuel; omega)

def File.setList (file : File) (index : Nat) (nodes : List Nat) : File :=
  { file with lists := Function.update file.lists index nodes }

@[simp] theorem File.lists_setList_self (index : Nat) (nodes : List Nat) :
    (file.setList index nodes).lists index = nodes :=
  Function.update_self ..

theorem File.lists_setList_ne {index i : Nat} (nodes : List Nat) (hi : i ≠ index) :
    (file.setList index nodes).lists i = file.lists i :=
  Function.update_of_ne hi ..

-- One list changes, and in memory the pointer of one node.
theorem Filed.relist {h' : Heap} {q index : Nat} {nodes : List Nat} {free' : Set (Nat × Nat)}
    (hf : Filed h file free) (hs : Scattered h free) (hroot : h'.kfcTreeRoot = h.kfcTreeRoot)
    (hheads : ∀ i ≠ index, h'.kfcNormalList i = h.kfcNormalList i)
    (hsame : ∀ j, j < q + 4 ∨ q + 8 ≤ j → h'.mem j = h.mem j)
    (hq : ∀ e ∈ free, e.2 ≠ 8 * index → Apart q 8 e.1 e.2) (hqroot : Apart h.kfcTreeRoot 32 q 8)
    (hsmall : 8 * index < 248)
    (hchain : Chain h'.getHmuNormalNodeNext nodes (h'.kfcNormalList index))
    (hnodup : nodes.Nodup) (hmem : ∀ x, x ∈ nodes ↔ (x, 8 * index) ∈ free')
    (hother : ∀ e : Nat × Nat, e.2 ≠ 8 * index → (e ∈ free' ↔ e ∈ free)) :
    Filed h' (file.setList index nodes) free' := by
  -- what the chunks of other sizes hold
  have hkept : ∀ e ∈ free, e.2 ≠ 8 * index → ∀ j, e.1 ≤ j → j < e.1 + e.2 →
      h'.mem j = h.mem j := by
    intro e he hne j hlow hhigh
    apply hsame
    rcases hq e he hne with hapart | hapart <;> omega
  have hkeptRoot : ∀ j, h.kfcTreeRoot ≤ j → j < h.kfcTreeRoot + 32 → h'.mem j = h.mem j := by
    intro j hlow hhigh
    apply hsame
    rcases hqroot with hapart | hapart <;> omega
  refine ⟨?_, ?_, ?_, hf.distinct, hf.ordered, ?_, ?_, ?_⟩
  · intro i
    by_cases hi : i = index
    · subst hi
      rwa [File.lists_setList_self]
    · rw [File.lists_setList_ne nodes hi, hheads i hi]
      apply (hf.chain i).congr
      intro x hx
      obtain ⟨he, -⟩ := (hf.mem_list i x).mp hx
      have hbounds := hs.bounds he
      apply next_congr
      intro j hlow hhigh
      exact hkept _ he (by simp only; omega) j (by simp only; omega) (by simp only; omega)
  · intro i
    by_cases hi : i = index
    · subst hi
      rwa [File.lists_setList_self]
    · rw [File.lists_setList_ne nodes hi]
      exact hf.nodup i
  · have hright : h'.right h.kfcTreeRoot = h.right h.kfcTreeRoot :=
      load_congr fun i hlow hhigh => hkeptRoot i (by omega) (by omega)
    rw [TreeAt, hroot, hright]
    apply hf.tree.congr
    intro b hb
    obtain ⟨m, he, hm⟩ := hf.mem_addresses hb
    apply Heap.agree_links
    intro i hlow hhigh
    exact hkept _ he (by simp only; omega) i (by simp only; omega) (by simp only; omega)
  · rw [hroot, ← hf.root]
    exact load_congr fun i hlow hhigh => hkeptRoot i (by omega) (by omega)
  · intro i x
    by_cases hi : i = index
    · subst hi
      rw [File.lists_setList_self, hmem]
      exact ⟨fun h => ⟨h, hsmall⟩, fun h => h.1⟩
    · rw [File.lists_setList_ne nodes hi, hf.mem_list, hother _ (by simp only; omega)]
  · intro e
    rw [File.setList, hf.mem_tree]
    constructor
    · rintro ⟨he, hn⟩
      rw [show HMU_FC_NORMAL_MAX_SIZE = 248 from rfl] at hn
      exact ⟨(hother e (by omega)).mpr he, hn⟩
    · rintro ⟨he, hn⟩
      exact ⟨(hother e (by rw [show HMU_FC_NORMAL_MAX_SIZE = 248 from rfl] at hn; omega)).mp he, hn⟩

theorem Pool.root_chunk (hpool : Pool h) (hs : Scattered h free) (he : (a, n) ∈ free) :
    Apart h.kfcTreeRoot 32 a n := by
  have hbounds := hs.bounds he
  have hapart : Apart h.kfcTreeRoot 32 h.baseAddr h.currentSize := hpool.root_apart
  rcases hapart with hapart | hapart
  · exact .inl (by omega)
  · exact .inr (by omega)

-- The first bytes of a chunk are apart from the root node and from the chunks of other sizes.
theorem Pool.root_node (hpool : Pool h) (hs : Scattered h free) (he : (a, n) ∈ free) :
    Apart h.kfcTreeRoot 32 a 8 := by
  have hbounds := hs.bounds he
  rcases hpool.root_chunk hs he with hapart | hapart
  · exact .inl (by omega)
  · exact .inr (by omega)

theorem Scattered.node_apart (hs : Scattered h free) (he : (a, n) ∈ free) :
    ∀ e ∈ free, e.2 ≠ n → Apart a 8 e.1 e.2 := by
  intro e he' hne
  have hbounds := hs.bounds he
  have hapart : Apart a n e.1 e.2 := by
    apply hs.apart _ he _ he'
    rintro rfl
    exact hne rfl
  rcases hapart with hapart | hapart
  · exact .inl (by omega)
  · exact .inr (by omega)

section Unlist

variable {index : Nat} {before after : List Nat}

theorem Filed.mem_rest (hf : Filed h file free) (hlist : file.lists index = before ++ a :: after)
    (hsmall : 8 * index < 248) (x : Nat) :
    x ∈ before ++ after ↔ (x, 8 * index) ∈ free \ {(a, 8 * index)} := by
  have hmem := hf.mem_list index x
  have hnot := (List.nodup_cons.mp (List.nodup_middle.mp (hlist ▸ hf.nodup index))).1
  rw [hlist] at hmem
  simp only [List.mem_append, List.mem_cons] at hmem ⊢
  simp only [Set.mem_sdiff, Set.mem_singleton_iff, Prod.mk.injEq, and_true]
  constructor
  · intro hor
    refine ⟨(hmem.mp (hor.imp_right .inr)).1, ?_⟩
    rintro rfl
    exact hnot (List.mem_append.mpr hor)
  · rintro ⟨hxe, hne⟩
    have hor := hmem.mpr ⟨hxe, hsmall⟩
    tauto

theorem mem_rest_of_ne (e : Nat × Nat) (hne : e.2 ≠ n) : e ∈ free \ {(a, n)} ↔ e ∈ free := by
  simp only [Set.mem_sdiff, Set.mem_singleton_iff, and_iff_left_iff_imp]
  rintro - rfl
  exact hne rfl

-- The first node: the head of the list moves on.
theorem Filed.unlist_head (hf : Filed h file free) (hpool : Pool h) (hs : Scattered h free)
    (hlist : file.lists index = a :: after) (hsmall : 8 * index < 248) :
    Filed (h.setNormalHead index (h.getHmuNormalNodeNext a)) (file.setList index after)
      (free \ {(a, 8 * index)}) := by
  obtain ⟨he, -⟩ := (hf.mem_list index a).mp (by simp [hlist])
  have hchain := hf.chain index
  have hnodup := hf.nodup index
  rw [hlist] at hchain hnodup
  refine hf.relist hs rfl (fun i hi => Function.update_of_ne hi _ _) (q := a) (fun j _ => rfl)
    (hs.node_apart he) (hpool.root_node hs he) hsmall ?_ (List.nodup_cons.mp hnodup).2
    (hf.mem_rest (show file.lists index = [] ++ a :: after from hlist) hsmall) mem_rest_of_ne
  rw [Heap.head_setNormalHead]
  exact hchain.2.2

-- The node before it leads to its successor.
theorem Filed.unlist_inner {q : Nat} (hf : Filed h file free) (hpool : Pool h)
    (hs : Scattered h free) (hlist : file.lists index = (before ++ [q]) ++ a :: after)
    (hsmall : 8 * index < 248) :
    Filed (h.setHmuNormalNodeNext q (h.getHmuNormalNodeNext a))
      (file.setList index (before ++ [q] ++ after)) (free \ {(a, 8 * index)}) := by
  have hfree : ∀ x ∈ (before ++ [q]) ++ a :: after, (x, 8 * index) ∈ free := by
    intro x hx
    exact ((hf.mem_list index x).mp (hlist ▸ hx)).1
  have hq := hfree q (by simp)
  have hbounds := hs.bounds hq
  have hpos := hpool.base_pos
  have hpool' := hpool.small
  have hfits := hpool.fits
  have hchain := hf.chain index
  have hnodup := hf.nodup index
  rw [hlist] at hchain hnodup
  have hrest := (List.nodup_cons.mp (List.nodup_middle.mp hnodup)).2
  have hnext : h.getHmuNormalNodeNext a = 0 ∨ h.getHmuNormalNodeNext a ∈ after := by
    have hdrop := hchain.drop
    cases after with
    | nil => exact .inl hdrop
    | cons y after =>
        rw [hdrop.1]
        exact .inr List.mem_cons_self
  have hqnot : ∀ y ∈ before ++ after, y ≠ q := by
    rintro y hy rfl
    rw [List.append_assoc, List.singleton_append, List.nodup_middle] at hrest
    exact (List.nodup_cons.mp hrest).1 hy
  refine hf.relist hs rfl (fun i _ => rfl) (q := q) ?_ (hs.node_apart hq) (hpool.root_node hs hq)
    hsmall ?_ hrest (hf.mem_rest hlist hsmall) mem_rest_of_ne
  · exact fun j hj => store_outside (by omega)
  · have hunlink := hchain.unlink
      (h.setHmuNormalNodeNext q (h.getHmuNormalNodeNext a)).getHmuNormalNodeNext (by
        simp only [List.getLast?_append, List.getLast?_singleton, Option.some_or,
          Option.mem_def, Option.some.injEq]
        rintro y rfl
        rcases hnext with hzero | hmem
        · exact next_setNext (by omega) (.inl hzero) (.inl hzero) (by omega)
        · have hnear := hs.bounds (hfree _ (List.mem_append_right _ (List.mem_cons_of_mem _ hmem)))
          have hne := hqnot _ (List.mem_append_right _ hmem)
          exact next_setNext hne (.inr (by omega)) (.inr (by omega)) (by omega)) (by
        intro y hy
        rw [List.dropLast_concat] at hy
        have hye := hfree y (by
          simp only [List.mem_append, List.mem_cons] at hy ⊢
          tauto)
        apply next_congr
        intro i hlow hhigh
        apply store_outside
        have hapart : Apart y (8 * index) q (8 * index) :=
          hs.apart _ hye _ hq (by simp [hqnot y hy])
        rcases hapart with hapart | hapart <;> omega)
    rw [if_neg (by simp)] at hunlink
    exact hunlink

theorem unlinkLoop_filed (hpool : Pool h) (hs : Scattered h free) (hf : Filed h file free)
    (he : (a, 8 * index) ∈ free) (hsmall : 8 * index < 248) :
    ∃ h' file', unlinkLoop h index a h.rounds 0 (h.kfcNormalList index) = some (true, h') ∧
      Filed h' file' (free \ {(a, 8 * index)}) ∧ Refiled (filing h free) h h' := by
  obtain ⟨before, after, hlist⟩ := List.append_of_mem ((hf.mem_list index a).mpr ⟨he, hsmall⟩)
  have hchain := hf.chain index
  have hnodup := hf.nodup index
  have hfree : ∀ x ∈ before ++ a :: after, (x, 8 * index) ∈ free := by
    intro x hx
    exact ((hf.mem_list index x).mp (hlist ▸ hx)).1
  rw [hlist] at hchain hnodup
  have hlen : before.length < h.rounds := by
    have hle := hs.length_le hnodup fun x hx => ⟨_, hfree x hx⟩
    rw [List.length_append, List.length_cons] at hle
    rw [Heap.rounds]
    omega
  have hnot := (List.nodup_cons.mp (List.nodup_middle.mp hnodup)).1
  have hrun := unlinkLoop_eq index 0 hchain
    (fun hx => hnot (List.mem_append_left _ hx)) (fun x hx => hs.inHeap (hfree x hx)) hlen
  rcases List.eq_nil_or_concat before with rfl | ⟨init, q, rfl⟩
  · rw [List.getLastD_nil, if_pos rfl] at hrun
    exact ⟨_, _, hrun, hf.unlist_head hpool hs hlist hsmall, rfl, fun i _ => rfl⟩
  · rw [List.concat_eq_append] at hlist hrun hfree
    have hq := hs.bounds (hfree q (by simp))
    have hpos := hpool.base_pos
    rw [show (init ++ [q]).getLastD 0 = q by simp, if_neg (by omega)] at hrun
    refine ⟨_, _, hrun, hf.unlist_inner hpool hs hlist hsmall, rfl, fun i hi => ?_⟩
    apply store_outside
    by_contra hin
    exact hi (.inr ⟨_, hfree q (by simp), by simp only; omega, by simp only; omega⟩)

end Unlist

-- The pointers of the tree lie in the root node and in the large free chunks.
theorem Filed.linkBytes_subset (hf : Filed h file free) :
    linkBytes (h.kfcTreeRoot :: file.tree.addresses) ⊆ filing h free := by
  rintro i ⟨b, hb, hlow, hhigh⟩
  rcases List.mem_cons.mp hb with rfl | hb
  · exact .inl ⟨hlow, by rw [show TREE_NODE_SIZE = 32 from rfl]; omega⟩
  · obtain ⟨m, he, hm⟩ := hf.mem_addresses hb
    exact .inr ⟨_, he, hlow, by simp only; omega⟩

-- The links of nodes of the tree change, and the lists do not.
theorem Filed.chain_within {h' : Heap} {free' : Set (Nat × Nat)} {nodes : List Nat}
    (hf : Filed h file free) (hpool : Pool h) (hs : Scattered h free') (hsub : free ⊆ free')
    (hnodes : ∀ b ∈ nodes, b = h.kfcTreeRoot ∨ ∃ m, (b, m) ∈ free' ∧ 248 ≤ m)
    (hw : Within (linkBytes nodes) h h') (i : Nat) :
    Chain h'.getHmuNormalNodeNext (file.lists i) (h'.kfcNormalList i) := by
  rw [show h'.kfcNormalList = h.kfcNormalList by rw [hw.same]]
  apply (hf.chain i).congr
  intro x hx
  obtain ⟨he, hsmall⟩ := (hf.mem_list i x).mp hx
  replace hsmall : 8 * i < 248 := hsmall
  replace he := hsub he
  have hbounds := hs.bounds he
  apply next_congr
  intro j hlow hhigh
  apply hw.outside
  rintro ⟨b, hb, hlow', hhigh'⟩
  rcases hnodes b hb with rfl | ⟨m, he', hm⟩
  · rcases hpool.root_node hs he with hapart | hapart <;> omega
  · have hapart : Apart x 8 b m := hs.node_apart he _ he' (by simp only; omega)
    rcases hapart with hapart | hapart <;> omega

theorem Filed.node_cases (hf : Filed h file free) :
    ∀ b ∈ h.kfcTreeRoot :: file.tree.addresses,
      b = h.kfcTreeRoot ∨ ∃ m, (b, m) ∈ free ∧ 248 ≤ m := by
  intro b hb
  exact (List.mem_cons.mp hb).imp_right hf.mem_addresses

theorem removeTreeNode_filed (hpool : Pool h) (hs : Scattered h free) (hf : Filed h file free)
    (he : (a, n) ∈ free) (hlarge : 248 ≤ n) :
    ∃ h' file', removeTreeNode h.rounds h a = some (true, h') ∧
      Filed h' file' (free \ {(a, n)}) ∧ Refiled (filing h free) h h' ∧ h'.size a = n := by
  obtain ⟨path, l, r, hplug⟩ := TreePath.exists_plug ((hf.mem_tree (a, n)).mpr ⟨he, hlarge⟩)
  simp only at hplug
  have hsited := hf.sited hpool hs
  have htree := hf.tree
  have hlen : file.tree.entries.length ≤ h.rounds := by
    have hle := hs.length_le hf.distinct fun b hb =>
      (hf.mem_addresses hb).imp fun m hm => hm.1
    rw [KeyTree.addresses, List.length_map] at hle
    rw [Heap.rounds]
    omega
  obtain ⟨h', hrun, htree', hw⟩ := removeTreeNode_eq (hplug ▸ htree) (hplug ▸ hsited)
    (hplug ▸ hlen)
  rw [← hplug] at hw
  have hentries : file.tree.entries = path.before ++ (l.entries ++ (a, n) :: r.entries) ++
      path.after := by
    rw [hplug, TreePath.entries_plug, KeyTree.entries_node]
  have hentries' : (path.plug (l.join r)).entries = path.before ++ (l.entries ++ r.entries) ++
      path.after := by
    rw [TreePath.entries_plug, KeyTree.entries_join]
  have hperm : file.tree.entries.Perm ((a, n) :: (path.plug (l.join r)).entries) := by
    rw [hentries, hentries']
    simp only [List.perm_iff_count, List.count_cons, List.count_append]
    intro e
    omega
  have hnodup := (hperm.map Prod.fst).nodup_iff.mp hf.distinct
  rw [List.map_cons, List.nodup_cons] at hnodup
  have hsize : h.size a = n := by
    rw [hplug] at htree
    exact ((TreePath.linked_plug _ _).mp htree).2.2.2.2.1
  have hmem : a ∈ h.kfcTreeRoot :: file.tree.addresses := by
    rw [hplug]
    exact List.mem_cons_of_mem _ (mem_plug.mpr (.inl (by simp)))
  refine ⟨h', { file with tree := path.plug (l.join r) }, hrun,
    ⟨hf.chain_within hpool hs subset_rfl hf.node_cases hw, hf.nodup, htree', hnodup.2, ?_, ?_, ?_,
      ?_⟩,
    (Refiled.of_within hw).mono hf.linkBytes_subset,
    (size_of_within hw hsited.spaced hmem).trans hsize⟩
  · apply TreePath.ordered_plug (hplug ▸ hf.ordered) KeyTree.ordered_join
    rw [KeyTree.entries_join, KeyTree.entries_node]
    intro e he
    simp only [List.mem_append, List.mem_cons] at he ⊢
    tauto
  · rw [hw.root, size_of_within hw hsited.spaced List.mem_cons_self]
    exact hf.root
  · intro i x
    rw [hf.mem_list i x]
    refine and_congr_left fun hi => (mem_rest_of_ne _ ?_).symm
    rw [show HMU_FC_NORMAL_MAX_SIZE = 248 from rfl] at hi
    simp only
    omega
  · intro e
    have hmem := hf.mem_tree e
    rw [hperm.mem_iff, List.mem_cons] at hmem
    simp only [Set.mem_sdiff, Set.mem_singleton_iff]
    constructor
    · intro hin
      refine ⟨⟨(hmem.mp (.inr hin)).1, ?_⟩, (hmem.mp (.inr hin)).2⟩
      rintro rfl
      exact hnodup.1 (List.mem_map_of_mem hin)
    · rintro ⟨⟨hin, hne⟩, hn⟩
      exact (hmem.mpr ⟨hin, hn⟩).resolve_left hne

theorem isFcNormal_iff : HMU_IS_FC_NORMAL n = true ↔ n < 248 := by
  rw [HMU_IS_FC_NORMAL, show HMU_FC_NORMAL_MAX_SIZE = 248 from rfl, decide_eq_true_iff]

-- A free chunk is taken out of its list or of the tree.
theorem unlinkHmu_filed (hpool : Pool h) (hs : Scattered h free) (hf : Filed h file free)
    (he : (a, n) ∈ free) (hut : h.hmuGetUt a = .fc) (hsize : h.hmuGetSize a = n) :
    ∃ h' file', unlinkHmu h a = some (true, h') ∧ Filed h' file' (free \ {(a, n)}) ∧
      Refiled (filing h free) h h' := by
  rw [unlinkHmu, if_neg (not_not.mpr hut), hsize]
  by_cases hsmall : n < 248
  · obtain ⟨k, hk⟩ := (hs.large _ he).2
    replace hk : n = 8 * k := hk
    have hindex : n >>> 3 = k := by
      rw [Nat.shiftRight_eq_div_pow]
      omega
    rw [if_pos (isFcNormal_iff.mpr hsmall), hindex]
    subst hk
    exact unlinkLoop_filed hpool hs hf he hsmall
  · rw [if_neg (mt isFcNormal_iff.mp hsmall)]
    obtain ⟨h', file', hrun, hf', hr, -⟩ := removeTreeNode_filed hpool hs hf he (by omega)
    exact ⟨h', file', hrun, hf', hr⟩

end Unlink

section Add

variable {h : Heap} {file : File} {free : Set (Nat × Nat)} {a n : Nat}

-- The header and the last word of a new free chunk.
def labelled (h : Heap) (a n : Nat) : Heap :=
  ((h.hmuSetUt a .fc).hmuSetSize a n).hmuSetFreeSize a

theorem labelled_eq (hlt : n < 2 ^ 30) (h8 : 8 ∣ n) :
    labelled h a n = { (h.hmuSetUt a .fc).hmuSetSize a n with
      mem := store ((h.hmuSetUt a .fc).hmuSetSize a n).mem (a + n - 4) 4 n } := by
  have hsize : ((h.hmuSetUt a .fc).hmuSetSize a n).hmuGetSize a = n :=
    congrArg Header.size (Heap.head_hmuSetSize hlt h8)
  rw [labelled, Heap.hmuSetFreeSize, hsize]

theorem labelled_outside (hlt : n < 2 ^ 30) (h8 : 8 ∣ n) {i : Nat} (hi : i < a ∨ a + 4 ≤ i)
    (hi' : i + 4 < a + n ∨ a + n ≤ i) : (labelled h a n).mem i = h.mem i := by
  rw [labelled_eq hlt h8]
  exact (store_outside (by omega)).trans
    ((Heap.setHeader_outside _ hi).trans (Heap.setHeader_outside _ hi))

theorem head_labelled (hlt : n < 2 ^ 30) (h8 : 8 ∣ n) (hlarge : 8 ≤ n) :
    (labelled h a n).head a = { h.head a with ut := .fc, size := n } := by
  rw [labelled_eq hlt h8, Heap.head_congr (h := (h.hmuSetUt a .fc).hmuSetSize a n),
    Heap.head_hmuSetSize hlt h8, Heap.head_hmuSetUt]
  intro i hlow hhigh
  exact store_outside (by omega)

theorem footer_labelled (hlt : n < 2 ^ 30) (h8 : 8 ∣ n) :
    load (labelled h a n).mem (a + n - 4) 4 = n := by
  rw [labelled_eq hlt h8]
  exact load_store (by omega)

-- The new chunk is apart from everything that is filed.
theorem Pool.filing_apart (hpool : Pool h) (hs : Scattered h (insert (a, n) free))
    (hnew : (a, n) ∉ free) : ∀ i ∈ filing h free, i < a ∨ a + n ≤ i := by
  rintro i (⟨hlow, hhigh⟩ | ⟨e, he, hlow, hhigh⟩)
  · replace hhigh : i < h.kfcTreeRoot + 32 := hhigh
    rcases hpool.root_chunk hs (Set.mem_insert _ _) with hapart | hapart <;> omega
  · have hapart : Apart a n e.1 e.2 := by
      apply hs.apart _ (Set.mem_insert _ _) _ (Set.mem_insert_of_mem _ he)
      rintro rfl
      exact hnew he
    rcases hapart with hapart | hapart <;> omega

theorem Filed.of_inside {h' : Heap} (hf : Filed h file free) (hpool : Pool h)
    (hs : Scattered h (insert (a, n) free)) (hnew : (a, n) ∉ free)
    (hw : Within (Set.Ico a (a + n)) h h') : Filed h' file free := by
  apply hf.congr (hs.subset (Set.subset_insert _ _))
  · rw [hw.same]
  · rw [hw.same]
  · intro i hi
    apply hw.outside
    have hapart := hpool.filing_apart hs hnew i hi
    simp only [Set.mem_Ico]
    omega

theorem Scattered.addr_ne (hs : Scattered h (insert (a, n) free)) (hnew : (a, n) ∉ free) {x m : Nat}
    (hx : (x, m) ∈ free) : x ≠ a := by
  rintro rfl
  have heq := hs.eq_of_addr (Set.mem_insert_of_mem _ hx) (Set.mem_insert _ _)
  rw [heq] at hx
  exact hnew hx

-- What is known of a free chunk that has been added.
structure Added (h h' : Heap) (a n : Nat) (free : Set (Nat × Nat)) : Prop where
  refiled : Refiled (filing h free ∪ Set.Ico a (a + n)) h h'
  head : h'.head a = { h.head a with ut := .fc, size := n }
  footer : load h'.mem (a + n - 4) 4 = n

-- What lies in none of the chunks that were free before is left alone.
theorem Added.kept {h1 h2 : Heap} {a n i : Nat} {free free' : Set (Nat × Nat)}
    (hadd : Added h1 h2 a n free') (hpools : SamePool h h1) (hsub : free' ⊆ free)
    (hi : i ∉ filing h free) (hout : i < a ∨ a + n ≤ i) : h2.mem i = h1.mem i := by
  apply hadd.refiled.outside
  rintro (hfiling | ⟨hlow, hhigh⟩)
  · rw [hpools.filing] at hfiling
    exact hi (hfiling.imp_right fun ⟨e, he, hrest⟩ => ⟨e, hsub he, hrest⟩)
  · omega

theorem addNormal_filed {index : Nat} (hpool : Pool h)
    (hs : Scattered h (insert (a, 8 * index) free)) (hf : Filed h file free)
    (hnew : (a, 8 * index) ∉ free) (hsmall : 8 * index < 248) :
    ∃ file', Filed ((h.setHmuNormalNodeNext a (h.kfcNormalList index)).setNormalHead index a) file'
      (insert (a, 8 * index) free) := by
  have hself : (a, 8 * index) ∈ insert (a, 8 * index) free := Set.mem_insert _ _
  have hbounds := hs.bounds hself
  have hpos := hpool.base_pos
  have hpool' := hpool.small
  have hfits := hpool.fits
  have hs' : Scattered h free := hs.subset (Set.subset_insert _ _)
  have hfree : ∀ x ∈ file.lists index, (x, 8 * index) ∈ free := fun x hx =>
    ((hf.mem_list index x).mp hx).1
  have hchain := hf.chain index
  -- the old head of the list is another chunk, or none
  have hnext : (h.setHmuNormalNodeNext a (h.kfcNormalList index)).getHmuNormalNodeNext a =
      h.kfcNormalList index := by
    by_cases hzero : h.kfcNormalList index = 0
    · exact next_setNext (by omega) (.inl hzero) (.inl hzero) (by omega)
    · obtain ⟨rest, hrest⟩ := hchain.head hzero
      have hx := hfree (h.kfcNormalList index) (by simp [hrest])
      have hbounds' := hs'.bounds hx
      exact next_setNext (hs.addr_ne hnew hx) (.inr (by omega)) (.inr (by omega)) (by omega)
  refine ⟨file.setList index (a :: file.lists index), hf.relist hs' rfl
    (fun i hi => Function.update_of_ne hi _ _) (q := a) (fun j hj => store_outside (by omega))
    (fun e he hne => hs.node_apart hself e (Set.mem_insert_of_mem _ he) hne)
    (hpool.root_node hs hself) hsmall ?_ ?_ ?_ ?_⟩
  · rw [Heap.head_setNormalHead]
    refine ⟨rfl, by omega, ?_⟩
    rw [show ((h.setHmuNormalNodeNext a (h.kfcNormalList index)).setNormalHead index
      a).getHmuNormalNodeNext = (h.setHmuNormalNodeNext a
      (h.kfcNormalList index)).getHmuNormalNodeNext from rfl, hnext]
    apply hchain.congr
    intro x hx
    apply next_congr
    intro i hlow hhigh
    apply store_outside
    have hbounds' := hs'.bounds (hfree x hx)
    have hapart : Apart a (8 * index) x (8 * index) := by
      apply hs.apart _ hself _ (Set.mem_insert_of_mem _ (hfree x hx))
      simp [(hs.addr_ne hnew (hfree x hx)).symm]
    rcases hapart with hapart | hapart <;> omega
  · rw [List.nodup_cons]
    exact ⟨fun hmem => hnew (hfree a hmem), hf.nodup index⟩
  · intro x
    rw [List.mem_cons, hf.mem_list, Set.mem_insert_iff, Prod.mk.injEq]
    constructor
    · rintro (rfl | ⟨hx, -⟩)
      · exact .inl ⟨rfl, rfl⟩
      · exact .inr hx
    · rintro (⟨rfl, -⟩ | hx)
      · exact .inl rfl
      · exact .inr ⟨hx, hsmall⟩
  · intro e hne
    rw [Set.mem_insert_iff]
    constructor
    · rintro (rfl | he)
      · exact absurd rfl hne
      · exact he
    · exact .inr

theorem linkLoop_filed (hpool : Pool h) (hs : Scattered h (insert (a, n) free))
    (hf : Filed h file free) (hnew : (a, n) ∉ free) (hlarge : 248 ≤ n) (hleft : h.left a = 0)
    (hright : h.right a = 0) (hsize : h.size a = n) :
    ∃ h' file', linkLoop h a n h.rounds h.kfcTreeRoot = some (true, h') ∧
      Filed h' file' (insert (a, n) free) ∧
      Within (linkBytes (h.kfcTreeRoot :: a :: file.tree.addresses)) h h' := by
  have hself : (a, n) ∈ insert (a, n) free := Set.mem_insert _ _
  have hs' : Scattered h free := hs.subset (Set.subset_insert _ _)
  have hsited := hf.sited hpool hs'
  obtain ⟨hroot, htree⟩ := List.pairwise_cons.mp hsited.spaced
  obtain ⟨hpos, hsmall, hapart⟩ := hpool.node_bounds hs hself hlarge
  have hne : ∀ b ∈ file.tree.addresses, ∃ m, (b, m) ∈ free ∧ 248 ≤ m ∧ b ≠ a := by
    intro b hb
    obtain ⟨m, he, hm⟩ := hf.mem_addresses hb
    exact ⟨m, he, hm, hs.addr_ne hnew he⟩
  have hspaced : Spaced (h.kfcTreeRoot :: a :: file.tree.addresses) := by
    refine List.pairwise_cons.mpr ⟨?_, List.pairwise_cons.mpr ⟨?_, htree⟩⟩
    · intro b hb
      rcases List.mem_cons.mp hb with rfl | hb
      · exact hapart
      · exact hroot b hb
    · intro b hb
      obtain ⟨m, he, hm, hba⟩ := hne b hb
      have hapart : Apart a n b m :=
        hs.apart _ hself _ (Set.mem_insert_of_mem _ he) (by simp [hba.symm])
      rcases hapart with hapart | hapart
      · exact .inl (by omega)
      · exact .inr (by omega)
  have hlen : file.tree.entries.length < h.rounds := by
    have hle := hs'.length_le hf.distinct fun b hb =>
      (hf.mem_addresses hb).imp fun m hm => hm.1
    rw [KeyTree.addresses, List.length_map] at hle
    rw [Heap.rounds]
    omega
  obtain ⟨h', hrun, htree', hw⟩ := linkLoop_eq hf.tree hsited hspaced hpos hsmall hleft hright hsize
    (by rw [hf.root, show TREE_NODE_SIZE = 32 from rfl]; omega) hlen
  have hperm := KeyTree.entries_insert a n file.tree
  have hnodes : ∀ b ∈ h.kfcTreeRoot :: a :: file.tree.addresses,
      b = h.kfcTreeRoot ∨ ∃ m, (b, m) ∈ insert (a, n) free ∧ 248 ≤ m := by
    intro b hb
    rcases List.mem_cons.mp hb with rfl | hb
    · exact .inl rfl
    rcases List.mem_cons.mp hb with rfl | hb
    · exact .inr ⟨n, hself, hlarge⟩
    · obtain ⟨m, he, hm, -⟩ := hne b hb
      exact .inr ⟨m, Set.mem_insert_of_mem _ he, hm⟩
  refine ⟨h', { file with tree := file.tree.insert a n }, hrun,
    ⟨hf.chain_within hpool hs (Set.subset_insert _ _) hnodes hw, hf.nodup, htree', ?_,
      KeyTree.ordered_insert hf.ordered, ?_, ?_, ?_⟩, hw⟩
  · rw [KeyTree.addresses, (hperm.map Prod.fst).nodup_iff, List.map_cons, List.nodup_cons]
    refine ⟨fun hmem => ?_, hf.distinct⟩
    obtain ⟨m, -, -, hba⟩ := hne a hmem
    exact hba rfl
  · rw [hw.root, size_of_within hw hspaced List.mem_cons_self]
    exact hf.root
  · intro i x
    rw [hf.mem_list i x]
    refine and_congr_left fun hi => ?_
    rw [show HMU_FC_NORMAL_MAX_SIZE = 248 from rfl] at hi
    rw [Set.mem_insert_iff, Prod.mk.injEq]
    constructor
    · exact .inr
    · rintro (⟨-, heq⟩ | he)
      · omega
      · exact he
  · intro e
    rw [hperm.mem_iff, List.mem_cons, hf.mem_tree, Set.mem_insert_iff]
    constructor
    · rintro (rfl | ⟨he, hn⟩)
      · exact ⟨.inl rfl, hlarge⟩
      · exact ⟨.inr he, hn⟩
    · rintro ⟨rfl | he, hn⟩
      · exact .inl rfl
      · exact .inr ⟨he, hn⟩

-- The node of a new chunk, with no links.
def unlinked (h : Heap) (a n : Nat) : Heap := (h.setSize a n).clearLinks a

theorem unlinked_outside {i : Nat} (hi : i < a + 4 ∨ a + 32 ≤ i) :
    (unlinked h a n).mem i = h.mem i :=
  (store_outside (by omega)).trans ((store_outside (by omega)).trans
    ((store_outside (by omega)).trans (store_outside (by omega))))

theorem unlinked_fields (hn : n < 2 ^ 32) :
    (unlinked h a n).left a = 0 ∧ (unlinked h a n).right a = 0 ∧ (unlinked h a n).size a = n := by
  refine ⟨load_store (by omega), ?_, ?_⟩
  · exact (load_store_apart (.inl (by omega))).trans (load_store (by omega))
  · refine (load_store_apart (.inl (by omega))).trans ?_
    refine (load_store_apart (.inl (by omega))).trans ?_
    exact (load_store_apart (.inl (by omega))).trans (load_store (by omega))

section Label

variable (hpool : Pool h) (hs : Scattered h (insert (a, n) free))

include hpool hs in
theorem Scattered.lt_and_dvd : n < 2 ^ 30 ∧ 8 ∣ n ∧ 16 ≤ n := by
  have hself : (a, n) ∈ insert (a, n) free := Set.mem_insert _ _
  have hbounds := hs.bounds hself
  have hsmall := hpool.small
  exact ⟨by omega, (hs.large _ hself).2, hbounds.2.2⟩

include hpool hs in
theorem within_labelled : Within (Set.Ico a (a + n)) h (labelled h a n) := by
  obtain ⟨hlt, h8, hlarge⟩ := hs.lt_and_dvd hpool
  refine ⟨rfl, fun i hi => labelled_outside hlt h8 ?_ ?_⟩
  · simp only [Set.mem_Ico] at hi
    omega
  · simp only [Set.mem_Ico] at hi
    omega

include hpool hs in
-- The files change afterwards, and the header and the last word do not.
theorem added_of_labelled {h' : Heap}
    (hr : Refiled (filing h free ∪ Set.Ico a (a + n)) (labelled h a n) h')
    (hkeep : ∀ i, a ≤ i → i < a + n → i < a + 4 ∨ a + n ≤ i + 4 →
      h'.mem i = (labelled h a n).mem i) : Added h h' a n free := by
  obtain ⟨hlt, h8, hlarge⟩ := hs.lt_and_dvd hpool
  have hw := (Refiled.of_within (within_labelled hpool hs)).mono
    (Set.subset_union_right (s := filing h free))
  refine ⟨hw.trans hr, ?_, ?_⟩
  · exact (Heap.head_congr fun i hlow hhigh => hkeep i hlow (by omega) (.inl hhigh)).trans
      (head_labelled hlt h8 (by omega))
  · exact (load_congr fun i hlow hhigh => hkeep i (by omega) (by omega) (.inr (by omega))).trans
      (footer_labelled hlt h8)

include hpool hs in
theorem addTree_filed (hf : Filed h file free) (hnew : (a, n) ∉ free) (hlarge : 248 ≤ n) :
    ∃ h' file', linkLoop (unlinked (labelled h a n) a n) a n (unlinked (labelled h a n) a n).rounds
        (unlinked (labelled h a n) a n).kfcTreeRoot = some (true, h') ∧
      Filed h' file' (insert (a, n) free) ∧ Added h h' a n free := by
  obtain ⟨hlt, -, -⟩ := hs.lt_and_dvd hpool
  have hw' : Within (Set.Ico a (a + n)) (labelled h a n) (unlinked (labelled h a n) a n) := by
    refine ⟨rfl, fun i hi => unlinked_outside ?_⟩
    simp only [Set.mem_Ico] at hi
    omega
  have hw := (within_labelled hpool hs).trans hw'
  have hr := Refiled.of_within hw
  have hr' := (Refiled.of_within hw').mono (Set.subset_union_right (s := filing h free))
  obtain ⟨hleft, hright, hsize⟩ := unlinked_fields (h := labelled h a n) (a := a) (n := n) (by omega)
  obtain ⟨h', file', hrun, hf', hlink⟩ := linkLoop_filed (hr.samePool.pool hpool)
    (hr.samePool.scattered hs)
    (hf.of_inside hpool hs hnew hw) hnew hlarge hleft hright hsize
  rw [hr.samePool.root] at hlink
  have hbytes : ∀ i ∈ linkBytes (h.kfcTreeRoot :: a :: file.tree.addresses),
      i ∈ filing h free ∨ a + 4 ≤ i ∧ i < a + 28 := by
    rintro i ⟨b, hb, hlow, hhigh⟩
    rcases List.mem_cons.mp hb with rfl | hb
    · exact .inl (.inl ⟨hlow, lt_of_lt_of_le hhigh (Nat.add_le_add_left (by decide) _)⟩)
    rcases List.mem_cons.mp hb with rfl | hb
    · exact .inr ⟨hlow, hhigh⟩
    · exact .inl (hf.linkBytes_subset ⟨b, List.mem_cons_of_mem _ hb, hlow, hhigh⟩)
  refine ⟨h', file', hrun, hf', added_of_labelled hpool hs
    (hr'.trans ((Refiled.of_within hlink).mono ?_)) ?_⟩
  · intro i hi
    rcases hbytes i hi with hfiling | hnode
    · exact .inl hfiling
    · exact .inr ⟨by omega, by omega⟩
  · intro i hlow hhigh hout
    rw [hlink.outside i, unlinked_outside (by omega)]
    intro hmem
    rcases hbytes i hmem with hfiling | hnode
    · have hapart := hpool.filing_apart hs hnew i hfiling
      omega
    · omega

include hpool hs in
-- A free chunk is filed.
theorem gciAddFc_filed (hf : Filed h file free) (hnew : (a, n) ∉ free) :
    ∃ h' file', gciAddFc h a n = some (true, h') ∧ Filed h' file' (insert (a, n) free) ∧
      Added h h' a n free := by
  obtain ⟨hlt, h8, hlarge⟩ := hs.lt_and_dvd hpool
  have hw := within_labelled hpool hs
  have hr := Refiled.of_within hw
  have hin : (labelled h a n).hmuIsInHeap a = true := by
    rw [hw.inHeap]
    exact hs.inHeap (Set.mem_insert _ _)
  simp only [gciAddFc]
  rw [show ((h.hmuSetUt a .fc).hmuSetSize a n).hmuSetFreeSize a = labelled h a n from rfl]
  by_cases hsmall : n < 248
  · rw [if_pos (isFcNormal_iff.mpr hsmall), hin, if_neg (by simp)]
    obtain ⟨k, rfl⟩ := h8
    rw [show (8 * k) >>> 3 = k by rw [Nat.shiftRight_eq_div_pow]; omega]
    obtain ⟨file', hf'⟩ := addNormal_filed (hr.samePool.pool hpool) (hr.samePool.scattered hs)
      (hf.of_inside hpool hs hnew hw) hnew hsmall
    refine ⟨_, file', rfl, hf', added_of_labelled hpool hs ⟨rfl, fun i hi => store_outside ?_⟩
      fun i hlow hhigh hout => store_outside (by omega)⟩
    simp only [Set.mem_union, Set.mem_Ico, not_or] at hi
    omega
  · rw [if_neg (mt isFcNormal_iff.mp hsmall)]
    exact addTree_filed hpool hs hf hnew (by omega)

end Label

end Add

end Watz.Ems
