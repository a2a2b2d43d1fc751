import Watz.Ems.Realloc

namespace Watz.Ems

open Base.Layout Base.Words Base.Arena
open Base.LinkedTree
open Base.LinkedList (Chain)

section Loop

variable {h h' : Heap} {rest : List Block} {offset : Int} {a p : Nat}

theorem adjustPtr_lt (p : Nat) (offset : Int) : adjustPtr p offset < 2 ^ 64 := by
  rw [adjustPtr]
  split <;> omega

-- The pointers of the large free chunks.
def nodeBytes (blocks : List Block) : Set Nat :=
  {i | ∃ b ∈ blocks, b.free = true ∧ 248 ≤ b.size ∧ b.addr + 4 ≤ i ∧ i < b.addr + 28}

theorem adjustNode_eq (h : Heap) (a : Nat) (offset : Int) :
    adjustNode h a offset = { h with mem := (adjustNode h a offset).mem } ∧
      ∀ i, i < a + 4 ∨ a + 28 ≤ i → (adjustNode h a offset).mem i = h.mem i := by
  simp only [adjustNode]
  split
  · refine ⟨rfl, fun i hi => ?_⟩
    exact (store_outside (by omega)).trans
      ((store_outside (by omega)).trans (store_outside (by omega)))
  · exact ⟨rfl, fun i hi => (store_outside (by omega)).trans (store_outside (by omega))⟩

-- Where a node is after the move, its links are where their nodes are.
structure NodeMoved (h h' : Heap) (offset : Int) (a a' : Nat) : Prop where
  left : h'.left a' = adjustPtr (h.left a) offset
  right : h'.right a' = adjustPtr (h.right a) offset
  parent : h'.parent a' = if h.parent a = h.kfcTreeRoot then h.parent a
    else adjustPtr (h.parent a) offset

theorem adjustNode_moved : NodeMoved h (adjustNode h a offset) offset a a := by
  have hlt : ∀ {p}, adjustPtr p offset < 256 ^ 8 := fun {p} => by
    have hbound := adjustPtr_lt p offset
    omega
  -- the stores before each of the three, and those behind it
  have hright : (h.setLeft a (adjustPtr (h.left a) offset)).right a = h.right a :=
    load_store_apart (.inl (by omega))
  have hparent : ((h.setLeft a (adjustPtr (h.left a) offset)).setRight a
      (adjustPtr (h.right a) offset)).parent a = h.parent a :=
    (load_store_apart (.inl (by omega))).trans (load_store_apart (.inl (by omega)))
  have hleft : ((h.setLeft a (adjustPtr (h.left a) offset)).setRight a
      (adjustPtr (h.right a) offset)).left a = adjustPtr (h.left a) offset :=
    (load_store_apart (.inr (by omega))).trans (load_store hlt)
  have hright' : ((h.setLeft a (adjustPtr (h.left a) offset)).setRight a
      (adjustPtr (h.right a) offset)).right a = adjustPtr (h.right a) offset := load_store hlt
  simp only [adjustNode, hright, hparent]
  split
  case isTrue hne =>
    refine ⟨(load_store_apart (.inr (by omega))).trans hleft,
      (load_store_apart (.inr (by omega))).trans hright', ?_⟩
    exact (load_store hlt).trans (if_neg hne).symm
  case isFalse heq => exact ⟨hleft, hright', hparent.trans (if_pos (not_not.mp heq)).symm⟩

-- The large free chunks are adjusted and nothing else.
structure Adjusted (h h' : Heap) (rest : List Block) (offset : Int) : Prop where
  same : h' = { h with mem := h'.mem }
  outside : ∀ i ∉ nodeBytes rest, h'.mem i = h.mem i
  node : ∀ b ∈ rest, b.free = true → 248 ≤ b.size → NodeMoved h h' offset b.addr b.addr

theorem NodeMoved.congr_left {h1 : Heap} {a1 a' : Nat} (hm : NodeMoved h1 h' offset a1 a')
    (hroot : h1.kfcTreeRoot = h.kfcTreeRoot)
    (hload : ∀ j, j + 8 ≤ 28 → 4 ≤ j → load h1.mem (a1 + j) 8 = load h.mem (a + j) 8) :
    NodeMoved h h' offset a a' := by
  have hleft : h1.left a1 = h.left a := hload 4 (by omega) (by omega)
  have hright : h1.right a1 = h.right a := hload 12 (by omega) (by omega)
  have hparent : h1.parent a1 = h.parent a := hload 20 (by omega) (by omega)
  exact ⟨by rw [hm.left, hleft], by rw [hm.right, hright], by rw [hm.parent, hparent, hroot]⟩

theorem NodeMoved.congr_right {h1 : Heap} {a' : Nat} (hm : NodeMoved h h1 offset a a')
    (hsame : ∀ i, a' + 4 ≤ i → i < a' + 28 → h'.mem i = h1.mem i) :
    NodeMoved h h' offset a a' := by
  have hleft : h'.left a' = h1.left a' := load_congr fun i hlow hhigh => hsame i hlow (by omega)
  have hright : h'.right a' = h1.right a' :=
    load_congr fun i hlow hhigh => hsame i (by omega) (by omega)
  have hparent : h'.parent a' = h1.parent a' :=
    load_congr fun i hlow hhigh => hsame i (by omega) (by omega)
  exact ⟨hleft.trans hm.left, hright.trans hm.right, hparent.trans hm.parent⟩

theorem migrateLoop_eq (offset : Int) (h : Heap) (cur fuel : Nat)
    (htiles : Tiles cur rest (h.baseAddr + h.currentSize)) (hlow : h.baseAddr ≤ cur)
    (hsmall : h.currentSize < 2 ^ 30) (hlabels : ∀ b ∈ rest, Labelled h b)
    (hproper : ∀ b ∈ rest, Proper b) (hfuel : rest.length < fuel) :
    ∃ h', migrateLoop offset fuel h cur = some (true, h') ∧ Adjusted h h' rest offset := by
  induction rest generalizing h cur fuel with
  | nil =>
      obtain ⟨fuel, rfl⟩ := Nat.exists_eq_add_of_lt hfuel
      rw [tiles_nil] at htiles
      refine ⟨h, ?_, rfl, fun _ _ => rfl, by simp⟩
      simp only [List.length_nil, Nat.zero_add, migrateLoop]
      rw [if_neg (by omega), if_neg (by omega)]
  | cons b rest ih =>
      obtain ⟨fuel, rfl⟩ : ∃ k, fuel = k + 1 := ⟨fuel - 1, by simp at hfuel; omega⟩
      obtain ⟨rfl, hrest⟩ := htiles
      have hlabel := hlabels b List.mem_cons_self
      have hlarge := (hproper b List.mem_cons_self).large
      have hsum := hrest.sum
      simp only [migrateLoop]
      rw [if_pos (by omega), hlabel.2.1, if_neg (by omega)]
      by_cases hnode : b.free = true ∧ 248 ≤ b.size
      · obtain ⟨hfree, h248⟩ := hnode
        have hut : h.hmuGetUt b.addr = .fc := by
          rw [hlabel.1, hfree]
          rfl
        obtain ⟨hsame, hout⟩ := adjustNode_eq h b.addr offset
        rw [if_pos ⟨hut, by
          rw [Bool.not_eq_true', Bool.eq_false_iff, ne_eq, isFcNormal_iff]
          omega⟩]
        -- the headers behind the node stay
        have hlabels' : ∀ c ∈ rest, Labelled (adjustNode h b.addr offset) c := by
          intro c hc
          have hbounds := hrest.bounds hc
          have hhead : (adjustNode h b.addr offset).head c.addr = h.head c.addr :=
            Heap.head_congr fun i hlow hhigh => hout i (.inr (by omega))
          exact labelled_of_head (hlabels c (List.mem_cons_of_mem _ hc)) (by rw [hhead])
            (by rw [hhead]) (by rw [hhead])
        obtain ⟨h', hrun, hadj⟩ := ih (adjustNode h b.addr offset) (b.addr + b.size)
          fuel (by rw [hsame]; exact hrest) (by rw [hsame]; simp only; omega)
          (by rw [hsame]; exact hsmall) hlabels' (fun c hc => hproper c (List.mem_cons_of_mem _ hc))
          (by simpa using hfuel)
        refine ⟨h', hrun, ?_, fun i hi => ?_, ?_⟩
        · rw [hadj.same, hsame]
        · rw [hadj.outside i fun ⟨c, hc, hin⟩ => hi ⟨c, List.mem_cons_of_mem _ hc, hin⟩]
          refine hout i ?_
          by_contra hin
          exact hi ⟨b, List.mem_cons_self, hfree, h248, by omega, by omega⟩
        · intro c hc hfree' h248'
          rcases List.mem_cons.mp hc with rfl | hc
          · refine adjustNode_moved.congr_right fun i hlow hhigh => hadj.outside i ?_
            rintro ⟨d, hd, -, -, hlow', -⟩
            have hbounds := hrest.bounds hd
            omega
          · refine (hadj.node c hc hfree' h248').congr_left (by rw [hsame]) fun j _ hj =>
              load_congr fun i hlow hhigh => ?_
            have hbounds := hrest.bounds hc
            exact hout i (.inr (by omega))
      · rw [if_neg]
        · obtain ⟨h', hrun, hadj⟩ := ih h (b.addr + b.size) fuel hrest
            (by omega) hsmall (fun c hc => hlabels c (List.mem_cons_of_mem _ hc))
            (fun c hc => hproper c (List.mem_cons_of_mem _ hc)) (by simpa using hfuel)
          refine ⟨h', hrun, hadj.same, fun i hi => hadj.outside i fun ⟨c, hc, hin⟩ =>
            hi ⟨c, List.mem_cons_of_mem _ hc, hin⟩, fun c hc hfree h248 => ?_⟩
          rcases List.mem_cons.mp hc with rfl | hc
          · exact absurd ⟨hfree, h248⟩ hnode
          · exact hadj.node c hc hfree h248
        · rintro ⟨hut, hnormal⟩
          rw [Bool.not_eq_true', Bool.eq_false_iff, ne_eq, isFcNormal_iff] at hnormal
          rw [hlabel.1] at hut
          refine hnode ⟨?_, by omega⟩
          by_contra hused
          rw [if_neg hused] at hut
          cases hut

end Loop

-- The pool has been copied to another place. The root node is not a part of it.
structure Moved (h : Heap) (mem : Mem) (base : Nat) : Prop where
  pos : 0 < base
  fits : base + h.currentSize ≤ 2 ^ 64
  apart : Apart h.kfcTreeRoot TREE_NODE_SIZE base h.currentSize
  copied : ∀ i < h.currentSize, mem (base + i) = h.mem (h.baseAddr + i)
  root : ∀ i, h.kfcTreeRoot ≤ i → i < h.kfcTreeRoot + TREE_NODE_SIZE → mem i = h.mem i

-- The heap after the move.
structure Migrated (h : Heap) (blocks : List Block) (base : Nat) (h' : Heap) : Prop where
  same : h' = { h with baseAddr := base, mem := h'.mem }
  right : h'.right h.kfcTreeRoot = adjustPtr (h.right h.kfcTreeRoot) ((base : Int) - h.baseAddr)
  size : h'.size h.kfcTreeRoot = h.size h.kfcTreeRoot
  outside : ∀ i < h.currentSize, h.baseAddr + i ∉ nodeBytes blocks →
    h'.mem (base + i) = h.mem (h.baseAddr + i)
  node : ∀ b ∈ blocks, b.free = true → 248 ≤ b.size →
    NodeMoved h h' ((base : Int) - h.baseAddr) b.addr (b.addr - h.baseAddr + base) ∧
      h'.size (b.addr - h.baseAddr + base) = h.size b.addr

section Migrate

variable {h h' : Heap} {blocks : List Block} {file : File} {mem : Mem} {base a : Nat}

theorem adjustPtr_eq (hpool : Pool h) (hfits : base + h.currentSize ≤ 2 ^ 64)
    (hlow : h.baseAddr ≤ a) (hhigh : a < h.baseAddr + h.currentSize) :
    adjustPtr a ((base : Int) - h.baseAddr) = a - h.baseAddr + base := by
  have hpos := hpool.base_pos
  rw [adjustPtr, if_neg (by omega)]
  omega

theorem Moved.mem_eq (hmoved : Moved h mem base) {i : Nat} (hlow : base ≤ i)
    (hhigh : i < base + h.currentSize) : mem i = h.mem (i - base + h.baseAddr) := by
  have hcopied := hmoved.copied (i - base) (by omega)
  rwa [Nat.add_sub_cancel' hlow, Nat.add_comm h.baseAddr] at hcopied

theorem Moved.load_eq (hmoved : Moved h mem base) {width : Nat} (hlow : h.baseAddr ≤ a)
    (hhigh : a + width ≤ h.baseAddr + h.currentSize) :
    load mem (a - h.baseAddr + base) width = load h.mem a width := by
  rw [load, load, (slice_eq_iff _ _ _ _ _).mpr]
  intro i hi
  rw [hmoved.mem_eq (by omega) (by omega)]
  congr 1
  omega

-- The links of the root node are adjusted first.
def adjustRoot (h : Heap) (offset : Int) : Heap :=
  let root := h.kfcTreeRoot
  let h := h.setLeft root (adjustPtr (h.left root) offset)
  let h := h.setRight root (adjustPtr (h.right root) offset)
  h.setParent root (adjustPtr (h.parent root) offset)

theorem adjustRoot_eq {offset : Int} :
    adjustRoot h offset = { h with mem := (adjustRoot h offset).mem } ∧
      ∀ i, i < h.kfcTreeRoot + 4 ∨ h.kfcTreeRoot + 28 ≤ i →
        (adjustRoot h offset).mem i = h.mem i := by
  refine ⟨rfl, fun i hi => ?_⟩
  exact (store_outside (by omega)).trans
    ((store_outside (by omega)).trans (store_outside (by omega)))

theorem adjustRoot_right (h : Heap) (offset : Int) :
    (adjustRoot h offset).right h.kfcTreeRoot = adjustPtr (h.right h.kfcTreeRoot) offset := by
  have hlt : adjustPtr (h.right h.kfcTreeRoot) offset < 256 ^ 8 := by
    have hbound := adjustPtr_lt (h.right h.kfcTreeRoot) offset
    omega
  have hright : (h.setLeft h.kfcTreeRoot (adjustPtr (h.left h.kfcTreeRoot) offset)).right
      h.kfcTreeRoot = h.right h.kfcTreeRoot := load_store_apart (.inl (by omega))
  simp only [adjustRoot, hright]
  exact (load_store_apart (.inr (by omega))).trans (load_store hlt)

-- The heap in its new place, before any link is adjusted.
def rebased (h : Heap) (mem : Mem) (base : Nat) : Heap := { h with mem := mem, baseAddr := base }

theorem migrate_header (hwf : WellFormed h blocks file) (hmoved : Moved h mem base) {b : Block}
    (hb : b ∈ blocks) {offset : Int} :
    (adjustRoot (rebased h mem base) offset).head (b.addr - h.baseAddr + base) = h.head b.addr := by
  have hbounds := hwf.tiles.bounds hb
  have hlarge := (hwf.proper b hb).large
  have hroot : Apart h.kfcTreeRoot 32 base h.currentSize := hmoved.apart
  have hload : load (adjustRoot (rebased h mem base) offset).mem (b.addr - h.baseAddr + base) 4 =
      load h.mem b.addr 4 := by
    rw [← hmoved.load_eq hbounds.1 (by omega)]
    refine load_congr fun i hlow hhigh => adjustRoot_eq.2 i ?_
    rw [show (rebased h mem base).kfcTreeRoot = h.kfcTreeRoot from rfl]
    rcases hroot with hroot | hroot <;> omega
  have hheader : (adjustRoot (rebased h mem base) offset).header (b.addr - h.baseAddr + base) =
      h.header b.addr := by
    rw [Heap.header, Heap.header, hload]
  simp only [Heap.head, Heap.hmuGetUt, Heap.hmuGetPinuse, Heap.hmuIsVoFreed, Heap.hmuGetSize,
    hheader]

theorem relocate_labelled (hwf : WellFormed h blocks file) {b : Block} (hb : b ∈ blocks)
    (hhead : h'.head (b.addr - h.baseAddr + base) = h.head b.addr) :
    Labelled h' (b.relocate h.baseAddr base) := by
  obtain ⟨hut, hsize, hfreed⟩ := hwf.labelled hb
  exact ⟨(congrArg Header.ut hhead).trans hut, (congrArg Header.size hhead).trans hsize,
    fun hused => (congrArg Header.freed hhead).trans (hfreed hused)⟩

theorem WellFormed.length_le (hwf : WellFormed h blocks file) : blocks.length ≤ h.currentSize := by
  have hsum := hwf.tiles.sum
  have hle : blocks.length ≤ (blocks.map Block.size).sum := by
    rw [← List.length_map Block.size]
    refine List.length_le_sum_of_one_le _ fun n hn => ?_
    obtain ⟨b, hb, rfl⟩ := List.mem_map.mp hn
    have hlarge := (hwf.proper b hb).large
    omega
  omega

theorem adjustRoot_mem (hmoved : Moved h mem base) {offset : Int} {i : Nat} (hlow : base ≤ i)
    (hhigh : i < base + h.currentSize) :
    (adjustRoot (rebased h mem base) offset).mem i = h.mem (i - base + h.baseAddr) := by
  have hroot : Apart h.kfcTreeRoot 32 base h.currentSize := hmoved.apart
  rw [← hmoved.mem_eq hlow hhigh]
  refine adjustRoot_eq.2 i ?_
  rw [show (rebased h mem base).kfcTreeRoot = h.kfcTreeRoot from rfl]
  rcases hroot with hroot | hroot <;> omega

-- The pointers of the moved nodes lie in the moved pool.
theorem nodeBytes_relocate (hwf : WellFormed h blocks file) {i : Nat}
    (hi : i ∈ nodeBytes (blocks.map (Block.relocate h.baseAddr base))) :
    base ≤ i ∧ i < base + h.currentSize ∧ i - base + h.baseAddr ∈ nodeBytes blocks := by
  obtain ⟨b, hb, hfree, hlarge, hlow, hhigh⟩ := hi
  obtain ⟨c, hc, rfl⟩ := List.mem_map.mp hb
  have hbounds := hwf.tiles.bounds hc
  simp only [Block.relocate] at hfree hlarge hlow hhigh
  exact ⟨by omega, by omega, c, hc, hfree, hlarge, by omega, by omega⟩

-- The loop runs over the moved chunks.
theorem gcMigrate_adjusted (hwf : WellFormed h blocks file) {poolBuf poolBufSize : Nat}
    (hmoved : Moved h mem (poolBuf + 4)) (haligned : poolBuf % 8 = 0)
    (hsize : h.currentSize + 4 ≤ poolBufSize) (hsmall : poolBufSize < 2 ^ 32)
    (hne : poolBuf + 4 ≠ h.baseAddr) {offset : Int}
    (hoffset : ((poolBuf + 4 : Nat) : Int) - h.baseAddr = offset) :
    ∃ h', gcMigrate { h with mem := mem } poolBuf poolBufSize = some (true, h') ∧
      Adjusted (adjustRoot (rebased h mem (poolBuf + 4)) offset) h'
        (blocks.map (Block.relocate h.baseAddr (poolBuf + 4))) offset := by
  have hsmall' := hwf.pool.small
  obtain ⟨k, hunits⟩ := hwf.pool.units
  have hstart : gcMigrate { h with mem := mem } poolBuf poolBufSize =
      migrateLoop offset h.rounds (adjustRoot (rebased h mem (poolBuf + 4)) offset)
        (poolBuf + 4) := by
    simp only [gcMigrate, show GC_HEAD_PADDING = 4 from rfl]
    rw [if_neg (by omega), if_neg (by omega), if_neg (by omega), if_neg (by simp [hwf.intact]),
      hoffset]
    rfl
  have hbase : (adjustRoot (rebased h mem (poolBuf + 4)) offset).baseAddr = poolBuf + 4 := rfl
  have hcurrent : (adjustRoot (rebased h mem (poolBuf + 4)) offset).currentSize =
      h.currentSize := rfl
  have htiles := hwf.tiles.relocate (poolBuf + 4) le_rfl
  rw [Nat.sub_self, Nat.zero_add, Nat.add_sub_cancel_left, Nat.add_comm h.currentSize] at htiles
  rw [hstart]
  refine migrateLoop_eq offset _ _ _ ?_ ?_ ?_ ?_ ?_ ?_
  · rwa [hbase, hcurrent]
  · rw [hbase]
  · rwa [hcurrent]
  · intro b hb
    obtain ⟨c, hc, rfl⟩ := List.mem_map.mp hb
    exact relocate_labelled hwf hc (migrate_header hwf hmoved hc)
  · intro b hb
    obtain ⟨c, hc, rfl⟩ := List.mem_map.mp hb
    exact hwf.proper c hc
  · have hlength := hwf.length_le
    rw [List.length_map, Heap.rounds]
    omega

-- The size field of a node is no pointer of a node.
theorem size_not_mem_nodeBytes (hwf : WellFormed h blocks file) {b : Block} (hb : b ∈ blocks)
    (hlarge : 248 ≤ b.size) {i : Nat} (hlow : b.addr - h.baseAddr + base + 28 ≤ i)
    (hhigh : i < b.addr - h.baseAddr + base + 32) :
    i ∉ nodeBytes (blocks.map (Block.relocate h.baseAddr base)) := by
  rintro ⟨c, hc, -, hlarge', hlow', hhigh'⟩
  obtain ⟨d, hd, rfl⟩ := List.mem_map.mp hc
  have hbounds := hwf.tiles.bounds hb
  have hbounds' := hwf.tiles.bounds hd
  simp only [Block.relocate] at hlow' hhigh' hlarge'
  by_cases hbd : b = d
  · subst hbd
    omega
  · rcases hwf.tiles.apart hb hd hbd with hapart | hapart <;> omega

theorem Adjusted.node_relocate (hwf : WellFormed h blocks file) (hmoved : Moved h mem base)
    {offset : Int} (hadj : Adjusted (adjustRoot (rebased h mem base) offset) h'
      (blocks.map (Block.relocate h.baseAddr base)) offset) {b : Block} (hb : b ∈ blocks)
    (hfree : b.free = true) (hlarge : 248 ≤ b.size) :
    NodeMoved h h' offset b.addr (b.addr - h.baseAddr + base) ∧
      h'.size (b.addr - h.baseAddr + base) = h.size b.addr := by
  have hbounds := hwf.tiles.bounds hb
  have hfield : ∀ j width, j + width ≤ 32 →
      load (adjustRoot (rebased h mem base) offset).mem (b.addr - h.baseAddr + base + j) width =
        load h.mem (b.addr + j) width := by
    intro j width hwidth
    rw [load, load, (slice_eq_iff _ _ _ _ _).mpr]
    intro i hi
    rw [adjustRoot_mem hmoved (by omega) (by omega)]
    congr 1
    omega
  have hnode := hadj.node (b.relocate h.baseAddr base) (List.mem_map_of_mem hb) hfree hlarge
  refine ⟨hnode.congr_left rfl fun j hj _ => hfield j 8 (by omega), ?_⟩
  refine (load_congr fun i hlow hhigh => hadj.outside i ?_).trans (hfield 28 4 (by omega))
  exact size_not_mem_nodeBytes hwf hb hlarge hlow (by omega)

theorem gcMigrate_migrated (hwf : WellFormed h blocks file) {poolBuf poolBufSize : Nat}
    (hmoved : Moved h mem (poolBuf + 4)) (haligned : poolBuf % 8 = 0)
    (hsize : h.currentSize + 4 ≤ poolBufSize) (hsmall : poolBufSize < 2 ^ 32)
    (hne : poolBuf + 4 ≠ h.baseAddr) :
    ∃ h', gcMigrate { h with mem := mem } poolBuf poolBufSize = some (true, h') ∧
      Migrated h blocks (poolBuf + 4) h' := by
  have hroot : Apart h.kfcTreeRoot 32 (poolBuf + 4) h.currentSize := hmoved.apart
  generalize hoffset : ((poolBuf + 4 : Nat) : Int) - h.baseAddr = offset
  obtain ⟨h', hrun, hadj⟩ := gcMigrate_adjusted hwf hmoved haligned hsize hsmall hne hoffset
  -- the loop leaves the root node alone
  have hrootOut : ∀ i, h.kfcTreeRoot ≤ i → i < h.kfcTreeRoot + 32 → h'.mem i =
      (adjustRoot (rebased h mem (poolBuf + 4)) offset).mem i := by
    intro i hlow hhigh
    refine hadj.outside i fun hin => ?_
    have hin' := nodeBytes_relocate hwf hin
    rcases hroot with hroot | hroot <;> omega
  refine ⟨h', hrun, ?_, ?_, ?_, ?_, ?_⟩
  · rw [hadj.same]
    rfl
  · rw [hoffset]
    have hright := adjustRoot_right (rebased h mem (poolBuf + 4)) offset
    have hkept : (rebased h mem (poolBuf + 4)).right h.kfcTreeRoot = h.right h.kfcTreeRoot :=
      load_congr fun i hlow hhigh => hmoved.root i (by omega) (by
        change i < h.kfcTreeRoot + 32
        omega)
    rw [show (rebased h mem (poolBuf + 4)).kfcTreeRoot = h.kfcTreeRoot from rfl, hkept] at hright
    exact (load_congr fun i hlow hhigh => hrootOut i (by omega) (by omega)).trans hright
  · refine load_congr fun i hlow hhigh => ?_
    rw [hrootOut i (by omega) (by omega), adjustRoot_eq.2 i (.inr (by
      change h.kfcTreeRoot + 28 ≤ i
      omega))]
    refine hmoved.root i (by omega) ?_
    change i < h.kfcTreeRoot + 32
    omega
  · intro i hi hout
    rw [hadj.outside (poolBuf + 4 + i) fun hin => ?_, adjustRoot_mem hmoved (by omega) (by omega),
      Nat.add_sub_cancel_left, Nat.add_comm i]
    have hin' := (nodeBytes_relocate hwf hin).2.2
    rw [Nat.add_sub_cancel_left, Nat.add_comm i] at hin'
    exact hout hin'
  · intro b hb hfree hlarge
    rw [hoffset]
    exact hadj.node_relocate hwf hmoved hb hfree hlarge

end Migrate

section Arrived

variable {h h' : Heap} {blocks : List Block} {file : File} {mem : Mem} {base : Nat}

-- The headers, the sizes of the free chunks and the objects are no pointers of a node.
theorem WellFormed.not_mem_nodeBytes (hwf : WellFormed h blocks file) {b : Block} (hb : b ∈ blocks)
    {i : Nat} (hlow : b.addr ≤ i) (hhigh : i < b.addr + b.size)
    (hrim : b.free = false ∨ b.size < 248 ∨ i < b.addr + 4 ∨ b.addr + 28 ≤ i) :
    i ∉ nodeBytes blocks := by
  rintro ⟨c, hc, hfree, hlarge, hlow', hhigh'⟩
  by_cases hbc : b = c
  · subst hbc
    rw [hfree] at hrim
    simp only [Bool.true_eq_false, false_or] at hrim
    omega
  · rcases hwf.tiles.apart hb hc hbc with hapart | hapart <;> omega

theorem Ranged.relocate {start : Nat} {prev : Option Block} (hr : Ranged h prev blocks)
    (hhead : ∀ b ∈ blocks, h'.head (b.addr - start + base) = h.head b.addr)
    (hfooter : ∀ b ∈ blocks, b.free = true →
      load h'.mem (b.addr - start + base + b.size - 4) 4 = load h.mem (b.addr + b.size - 4) 4)
    (hprev : ∀ b ∈ prev, b.free = true →
      load h'.mem (b.addr - start + base + b.size - 4) 4 = load h.mem (b.addr + b.size - 4) 4) :
    Ranged h' (prev.map (Block.relocate start base)) (blocks.map (Block.relocate start base)) := by
  induction blocks generalizing prev with
  | nil => trivial
  | cons b blocks ih =>
      obtain ⟨⟨hut, hsize, hfreed⟩, hborder, hrest⟩ := hr
      have hb := hhead b List.mem_cons_self
      have hpin : h'.hmuGetPinuse (b.addr - start + base) = h.hmuGetPinuse b.addr :=
        congrArg Header.pinuse hb
      refine ⟨⟨(congrArg Header.ut hb).trans hut, (congrArg Header.size hb).trans hsize,
        fun hused => (congrArg Header.freed hb).trans (hfreed hused)⟩, ?_, ?_⟩
      · cases prev with
        | none => exact hpin.trans hborder
        | some p =>
            exact ⟨hpin.trans hborder.1, fun hfree => (hprev p rfl hfree).trans (hborder.2 hfree)⟩
      · refine ih hrest (fun c hc => hhead c (List.mem_cons_of_mem _ hc))
          (fun c hc => hfooter c (List.mem_cons_of_mem _ hc)) ?_
        rintro c hc
        obtain rfl : b = c := Option.some.inj hc
        exact hfooter b List.mem_cons_self

theorem mem_freed_relocate {start : Nat} {e : Nat × Nat} :
    e ∈ freed (blocks.map (Block.relocate start base)) ↔
      ∃ a, (a, e.2) ∈ freed blocks ∧ e.1 = a - start + base := by
  simp only [mem_freed, List.mem_map, Block.relocate, Block.mk.injEq]
  constructor
  · rintro ⟨⟨a, n, free⟩, hb, haddr, hsize, hfree⟩
    simp only at haddr hsize hfree
    subst hsize hfree
    exact ⟨a, hb, haddr.symm⟩
  · rintro ⟨a, ha, haddr⟩
    exact ⟨_, ha, haddr.symm, rfl, rfl⟩

theorem freeSize_relocate {start : Nat} :
    freeSize (blocks.map (Block.relocate start base)) = freeSize blocks := by
  induction blocks with
  | nil => rfl
  | cons b blocks ih => simp only [List.map_cons, freeSize_cons, ih, Block.relocate]

variable (hwf : WellFormed h blocks file) (hm : Migrated h blocks base h')

include hm in
theorem Migrated.load_eq {a width : Nat} (hlow : h.baseAddr ≤ a)
    (hhigh : a + width ≤ h.baseAddr + h.currentSize)
    (hout : ∀ i, a ≤ i → i < a + width → i ∉ nodeBytes blocks) :
    load h'.mem (a - h.baseAddr + base) width = load h.mem a width := by
  rw [load, load, (slice_eq_iff _ _ _ _ _).mpr]
  intro i hi
  have hmoved := hm.outside (a - h.baseAddr + i) (by omega) (by
    rw [show h.baseAddr + (a - h.baseAddr + i) = a + i by omega]
    exact hout _ (by omega) (by omega))
  rw [show h.baseAddr + (a - h.baseAddr + i) = a + i by omega] at hmoved
  rw [← hmoved]
  congr 1
  omega

include hwf hm in
theorem Migrated.head {b : Block} (hb : b ∈ blocks) :
    h'.head (b.addr - h.baseAddr + base) = h.head b.addr := by
  have hbounds := hwf.tiles.bounds hb
  have hlarge := (hwf.proper b hb).large
  have hheader : h'.header (b.addr - h.baseAddr + base) = h.header b.addr := by
    rw [Heap.header, Heap.header, hm.load_eq hbounds.1 (by omega)]
    exact fun i hlow hhigh =>
      hwf.not_mem_nodeBytes hb hlow (by omega) (.inr (.inr (.inl hhigh)))
  simp only [Heap.head, Heap.hmuGetUt, Heap.hmuGetPinuse, Heap.hmuIsVoFreed, Heap.hmuGetSize,
    hheader]

include hwf hm in
theorem Migrated.charted : Charted h' (blocks.map (Block.relocate h.baseAddr base)) := by
  have htiles := hwf.tiles.relocate base le_rfl
  rw [Nat.sub_self, Nat.zero_add, Nat.add_sub_cancel_left, Nat.add_comm h.currentSize] at htiles
  refine ⟨?_, ?_, ?_⟩
  · rw [hm.same]
    exact htiles
  · intro b hb
    obtain ⟨c, hc, rfl⟩ := List.mem_map.mp hb
    have hlarge := (hwf.proper c hc).large
    exact Nat.lt_of_lt_of_le (by omega) hlarge
  · intro b hb
    obtain ⟨c, hc, rfl⟩ := List.mem_map.mp hb
    exact relocate_labelled hwf hc (hm.head hwf hc)

include hwf in
theorem WellFormed.lists_nil (hlarge : ∀ b ∈ blocks, b.free = true → 248 ≤ b.size) (i : Nat) :
    file.lists i = [] := by
  by_contra hne
  obtain ⟨a, ha⟩ := List.exists_mem_of_ne_nil _ hne
  obtain ⟨he, hsmall⟩ := (hwf.filed.mem_list i a).mp ha
  have hsize := hlarge _ (mem_freed.mp he) rfl
  simp only [show HMU_FC_NORMAL_MAX_SIZE = 248 from rfl] at hsmall
  simp only at hsize
  omega

-- A node of the tree goes where the rest of its chunk goes.
include hwf in
theorem WellFormed.node_place (hfits : base + h.currentSize ≤ 2 ^ 64) {a : Nat}
    (ha : a ∈ file.tree.addresses) : ∃ n, (a, n) ∈ freed blocks ∧ 248 ≤ n ∧ h.baseAddr ≤ a ∧
      adjustPtr a ((base : Int) - h.baseAddr) = a - h.baseAddr + base := by
  obtain ⟨n, he, hn⟩ := hwf.filed.mem_addresses ha
  have hbounds := (scattered_of_tiles hwf.tiles hwf.proper).bounds he
  exact ⟨n, he, hn, hbounds.1, adjustPtr_eq hwf.pool hfits hbounds.1 (by omega)⟩

include hwf hm in
theorem Migrated.treeAt (hpos : 0 < base) (hfits : base + h.currentSize ≤ 2 ^ 64) :
    TreeAt h' (file.tree.relocate fun a => adjustPtr a ((base : Int) - h.baseAddr)) := by
  have hlinked : file.tree.Linked h.links h.kfcTreeRoot (h.right h.kfcTreeRoot) := hwf.filed.tree
  have hs := scattered_of_tiles hwf.tiles hwf.proper
  have hroot : h'.kfcTreeRoot = h.kfcTreeRoot := by rw [hm.same]
  -- the root node has stayed
  have hne : ∀ a ∈ file.tree.addresses, a ≠ h.kfcTreeRoot := by
    rintro a ha rfl
    exact (List.nodup_cons.mp (hwf.filed.sited hwf.pool hs).nodup).1 ha
  have hnode : ∀ a ∈ file.tree.addresses,
      NodeMoved h h' ((base : Int) - h.baseAddr) a (adjustPtr a ((base : Int) - h.baseAddr)) ∧
        h'.size (adjustPtr a ((base : Int) - h.baseAddr)) = h.size a := by
    intro a ha
    obtain ⟨n, he, hn, -, hplace⟩ := hwf.node_place hfits ha
    rw [hplace]
    exact hm.node ⟨a, n, true⟩ (mem_freed.mp he) rfl hn
  have hmove := hlinked.relocate (g := h'.links)
    (fun a => adjustPtr a ((base : Int) - h.baseAddr))
    (fun a => if a = h.kfcTreeRoot then a else adjustPtr a ((base : Int) - h.baseAddr))
    (if_pos rfl) (fun a ha => by
      obtain ⟨n, -, -, -, hplace⟩ := hwf.node_place hfits ha
      simp only [hplace]
      omega)
    (fun a ha => (hnode a ha).1.left) (fun a ha => (hnode a ha).1.right)
    (fun a ha => (hnode a ha).1.parent) (fun a ha => (hnode a ha).2)
    (fun a ha => if_neg (hne a ha))
  rw [TreeAt, hroot, hm.right]
  rwa [if_pos rfl] at hmove

-- The lists are empty and the tree has moved, so the free chunks are filed as before.
include hwf hm in
theorem Migrated.filed (hpos : 0 < base) (hfits : base + h.currentSize ≤ 2 ^ 64)
    (hlarge : ∀ b ∈ blocks, b.free = true → 248 ≤ b.size) :
    Filed h' ⟨fun _ => [], file.tree.relocate fun a => adjustPtr a ((base : Int) - h.baseAddr)⟩
      (freed (blocks.map (Block.relocate h.baseAddr base))) := by
  have hf := hwf.filed
  have hroot : h'.kfcTreeRoot = h.kfcTreeRoot := by rw [hm.same]
  refine ⟨fun i => ?_, fun _ => List.nodup_nil, hm.treeAt hwf hpos hfits, ?_,
    hf.ordered.relocate, ?_, ?_, ?_⟩
  · have hchain := hf.chain i
    rw [hwf.lists_nil hlarge i] at hchain
    have hzero : h.kfcNormalList i = 0 := hchain
    change h'.kfcNormalList i = 0
    rw [hm.same]
    exact hzero
  · rw [KeyTree.addresses_relocate]
    refine List.Nodup.map_on (fun a ha b hb heq => ?_) hf.distinct
    obtain ⟨n, -, -, hlow, hplace⟩ := hwf.node_place hfits ha
    obtain ⟨m, -, -, hlow', hplace'⟩ := hwf.node_place hfits hb
    rw [hplace, hplace'] at heq
    omega
  · rw [hroot, hm.size]
    exact hf.root
  · intro i a
    simp only [List.not_mem_nil, false_iff, not_and, not_lt, mem_freed_relocate]
    rintro ⟨b, hb, -⟩
    exact hlarge _ (mem_freed.mp hb) rfl
  · intro e
    rw [KeyTree.entries_relocate, mem_freed_relocate, List.mem_map]
    constructor
    · rintro ⟨⟨a, n⟩, he, rfl⟩
      obtain ⟨hfree, hn⟩ := (hf.mem_tree _).mp he
      obtain ⟨-, -, -, -, hplace⟩ := hwf.node_place hfits (List.mem_map.mpr ⟨_, he, rfl⟩)
      exact ⟨⟨a, hfree, hplace⟩, hn⟩
    · rintro ⟨⟨a, he, haddr⟩, hn⟩
      have hmem := (hf.mem_tree (a, e.2)).mpr ⟨he, hn⟩
      obtain ⟨-, -, -, -, hplace⟩ := hwf.node_place hfits (List.mem_map.mpr ⟨_, hmem, rfl⟩)
      exact ⟨_, hmem, Prod.ext (hplace.trans haddr.symm) rfl⟩

-- With the lists empty everything has moved.
include hwf hm in
theorem Migrated.wellFormed (hmoved : Moved h mem base) (haligned : base % 8 = 4)
    (hlarge : ∀ b ∈ blocks, b.free = true → 248 ≤ b.size) :
    ∃ file', WellFormed h' (blocks.map (Block.relocate h.baseAddr base)) file' := by
  have hpool := hwf.pool
  refine ⟨_, ?_, (hm.charted hwf).tiles, ?_, ?_, hwf.merged.relocate,
    hm.filed hwf hmoved.pos hmoved.fits hlarge, ?_, ?_⟩
  · rw [hm.same]
    exact ⟨hmoved.pos, hmoved.fits, hpool.small, haligned, hpool.units, hpool.root_pos,
      hpool.root_fits, hmoved.apart⟩
  · intro b hb
    obtain ⟨c, hc, rfl⟩ := List.mem_map.mp hb
    exact hwf.proper c hc
  · refine hwf.ranged.relocate (fun b hb => hm.head hwf hb) (fun b hb hfree => ?_) (by simp)
    have hbounds := hwf.tiles.bounds hb
    have hsize := (hwf.proper b hb).large
    have h248 := hlarge b hb hfree
    rw [show b.addr - h.baseAddr + base + b.size - 4 =
      b.addr + b.size - 4 - h.baseAddr + base by omega]
    refine hm.load_eq (by omega) (by omega) fun i hlow hhigh => ?_
    exact hwf.not_mem_nodeBytes hb (by omega) (by omega) (.inr (.inr (.inr (by omega))))
  · rw [freeSize_relocate, ← hwf.total, hm.same]
  · rw [hm.same]
    exact hwf.intact

-- A small free chunk leads on to the same one as before, at its new place.
include hwf hm in
theorem Migrated.nextOffset {a n : Nat} (he : (a, n) ∈ freed blocks) (hsmall : n < 248) :
    h'.nextOffset (a - h.baseAddr + base) = h.nextOffset a := by
  have hmem := mem_freed.mp he
  have hbounds := hwf.tiles.bounds hmem
  have hlarge := (hwf.proper _ hmem).large
  simp only at hbounds hlarge
  rw [Heap.nextOffset, Heap.nextOffset,
    show a - h.baseAddr + base + 4 = a + 4 - h.baseAddr + base by omega,
    hm.load_eq (by omega) (by omega)]
  exact fun i hlow hhigh =>
    hwf.not_mem_nodeBytes hmem (by simp only; omega) (by simp only; omega) (.inr (.inl hsmall))

theorem nextOffset_bounds {a : Nat} : -2 ^ 31 ≤ h.nextOffset a ∧ h.nextOffset a < 2 ^ 31 := by
  have hlow := BitVec.le_two_mul_toInt (x := BitVec.ofNat 32 (load h.mem (a + 4) 4))
  have hhigh := BitVec.two_mul_toInt_lt (x := BitVec.ofNat 32 (load h.mem (a + 4) 4))
  rw [Heap.nextOffset]
  omega

-- The distance to a node of the pool is the same as before.
theorem next_relocate {a z : Nat} (hpool : Pool h) (hfits : base + h.currentSize ≤ 2 ^ 64)
    (ha : h.hmuIsInHeap a = true) (hz : h.hmuIsInHeap z = true)
    (hoffset : h'.nextOffset (a - h.baseAddr + base) = h.nextOffset a)
    (hnext : h.getHmuNormalNodeNext a = z) :
    h'.getHmuNormalNodeNext (a - h.baseAddr + base) = z - h.baseAddr + base := by
  have hbounds := nextOffset_bounds (h := h) (a := a)
  have hpos := hpool.base_pos
  have hfits' := hpool.fits
  have hsmall := hpool.small
  rw [inHeap_iff] at ha hz
  rw [Heap.getHmuNormalNodeNext] at hnext ⊢
  rw [hoffset]
  split at hnext
  case isTrue => omega
  case isFalse hne =>
    rw [if_neg hne]
    omega

-- A node behind which there was none leads to none now.
theorem next_relocate_last {a z : Nat} (hpool : Pool h) (hpos : 0 < base)
    (ha : h.hmuIsInHeap a = true) (hz : base ≤ z ∧ z < base + h.currentSize)
    (hoffset : h'.nextOffset (a - h.baseAddr + base) = h.nextOffset a)
    (hnext : h.getHmuNormalNodeNext a = 0) :
    h'.getHmuNormalNodeNext (a - h.baseAddr + base) ≠ z := by
  have hpos' := hpool.base_pos
  have hfits' := hpool.fits
  rw [inHeap_iff] at ha
  rw [Heap.getHmuNormalNodeNext] at hnext ⊢
  rw [hoffset]
  split at hnext
  case isTrue hzero =>
    rw [if_pos hzero]
    omega
  case isFalse hne =>
    rw [if_neg hne]
    omega

-- The heads of the lists still lead to the old place.
include hwf hm in
theorem Migrated.not_wellFormed (hmoved : Moved h mem base) (hne : base ≠ h.baseAddr) {b : Block}
    (hb : b ∈ blocks) (hfree : b.free = true) (hsmall : b.size < 248) :
    ¬∃ blocks' file', WellFormed h' blocks' file' := by
  rintro ⟨blocks', file', hwf'⟩
  obtain rfl := hwf'.charted.unique (hm.charted hwf)
  have hs := scattered_of_tiles hwf.tiles hwf.proper
  have hf := hwf.filed
  have hf' := hwf'.filed
  have hlists : h'.kfcNormalList = h.kfcNormalList := by rw [hm.same]
  obtain ⟨k, hk⟩ := (hwf.proper b hb).2
  have he : (b.addr, 8 * k) ∈ freed blocks := by
    rw [mem_freed, ← hk, ← hfree]
    exact hb
  -- the list of its size, before and afterwards
  have hmem : ∀ a, a ∈ file.lists k ↔ (a, 8 * k) ∈ freed blocks := fun a => by
    rw [hf.mem_list]
    exact and_iff_left (show 8 * k < 248 by omega)
  have hmem' : ∀ a, a ∈ file'.lists k ↔
      ∃ z ∈ file.lists k, a = z - h.baseAddr + base := fun a => by
    rw [hf'.mem_list, mem_freed_relocate]
    simp only [hmem]
    exact and_iff_left (show 8 * k < 248 by omega)
  have hin : ∀ a ∈ file.lists k, h.hmuIsInHeap a = true := fun a ha => hs.inHeap ((hmem a).mp ha)
  have hchain := hf.chain k
  have hchain' := hf'.chain k
  rw [hlists] at hchain'
  have hhead : h.kfcNormalList k ≠ 0 := hf.head_ne he (by omega)
  obtain ⟨rest, hlist⟩ := hchain.head hhead
  obtain ⟨rest', hlist'⟩ := hchain'.head hhead
  generalize h.kfcNormalList k = x at *
  -- the new list starts inside of the old one
  obtain ⟨y, hy, rfl⟩ := (hmem' x).mp (by rw [hlist']; exact List.mem_cons_self)
  obtain ⟨before, after, hsplit⟩ := List.append_of_mem hy
  have hsub : ∀ z ∈ y :: after, z ∈ file.lists k := fun z hz => by
    rw [hsplit]
    exact List.mem_append_right _ hz
  have hoffset : ∀ z ∈ y :: after, h'.nextOffset (z - h.baseAddr + base) = h.nextOffset z :=
    fun z hz => hm.nextOffset hwf ((hmem z).mp (hsub z hz)) (by omega)
  have hpos : ∀ z ∈ file.lists k, h.baseAddr ≤ z ∧ z < h.baseAddr + h.currentSize := fun z hz =>
    inHeap_iff.mp (hin z hz)
  have hyne : y ≠ 0 := by
    have hlow := (hpos y hy).1
    have hbase := hwf.pool.base_pos
    omega
  have hstart : Chain h.getHmuNormalNodeNext (y :: after) y := by
    rw [hsplit] at hchain
    exact ⟨rfl, hyne, hchain.drop⟩
  have hmoves : file'.lists k = (y :: after).map fun a => a - h.baseAddr + base := by
    refine hstart.relocate (fun a => a - h.baseAddr + base) hchain' hyne (fun z hz => ?_)
      (fun z hz hz' => ?_) fun z hz hzero => ?_
    · have hbase := hmoved.pos
      omega
    · exact next_relocate hwf.pool hmoved.fits (hin z (hsub z hz)) (hin _ (hsub _ hz'))
        (hoffset z hz) rfl
    · intro hnew
      obtain ⟨w, hw, hplace⟩ := (hmem' _).mp hnew
      have hbounds := hpos w hw
      exact next_relocate_last hwf.pool hmoved.pos (hin z (hsub z hz))
        (z := w - h.baseAddr + base) ⟨by omega, by omega⟩ (hoffset z hz) hzero hplace
  -- both have the same length, so it starts where the old one did
  have hperm : (file'.lists k).Perm ((file.lists k).map fun a => a - h.baseAddr + base) := by
    refine (List.perm_ext_iff_of_nodup (hf'.nodup k) ?_).mpr fun a => ?_
    · refine List.Nodup.map_on (fun z hz w hw heq => ?_) (hf.nodup k)
      have hlow := (hpos z hz).1
      have hlow' := (hpos w hw).1
      omega
    · rw [hmem', List.mem_map]
      exact exists_congr fun z => and_congr_right fun _ => eq_comm
  have hlength := hperm.length_eq
  rw [hmoves, List.length_map, List.length_map, hsplit, List.length_append,
    List.length_cons] at hlength
  obtain rfl : before = [] := List.eq_nil_of_length_eq_zero (by omega)
  rw [hsplit, List.nil_append] at hlist
  have hsame := (List.cons.inj hlist).1
  have hlow := (hpos y hy).1
  omega

-- Nothing has changed in the pool.
theorem WellFormed.of_same (hwf : WellFormed h blocks file) (hmoved : Moved h mem h.baseAddr) :
    WellFormed { h with mem := mem } blocks file := by
  have hsame : ∀ i, h.baseAddr ≤ i → i < h.baseAddr + h.currentSize → mem i = h.mem i := by
    intro i hlow hhigh
    rw [hmoved.mem_eq hlow hhigh, Nat.sub_add_cancel hlow]
  have hs := scattered_of_tiles hwf.tiles hwf.proper
  have hpools : SamePool h { h with mem := mem } := ⟨rfl, rfl, rfl, rfl⟩
  refine ⟨hpools.pool hwf.pool, hwf.tiles, hwf.proper, ?_, hwf.merged, ?_, hwf.total, hwf.intact⟩
  · refine hwf.ranged.congr hwf.proper (fun q hq => nomatch hq) fun b hb i hi => ?_
    have hbounds := hwf.tiles.bounds hb
    exact hsame i (hbounds.1.trans hi.1) (lt_of_lt_of_le hi.2.1 hbounds.2)
  · refine hwf.filed.congr hs rfl rfl fun i hi => ?_
    rcases hi with ⟨hlow, hhigh⟩ | ⟨e, he, hlow, hhigh⟩
    · exact hmoved.root i (by omega) hhigh
    · have hbounds := hs.inside e he
      exact hsame i (by omega) (by omega)

theorem Holds.relocate {start : Nat} {live : List Object} (hholds : Holds blocks live)
    (hlow : ∀ b ∈ blocks, start ≤ b.addr) :
    Holds (blocks.map (Block.relocate start base))
      (live.map fun o => { o with addr := o.addr - start + base }) := by
  have haddr : ∀ o ∈ live, start ≤ o.addr := by
    intro o ho
    obtain ⟨b, hb, -, hplace, -⟩ := hholds.chunk o ho
    have hb' := hlow b hb
    omega
  refine ⟨?_, ?_, ?_⟩
  · have hnodup := hholds.nodup
    rw [List.map_map]
    refine List.pairwise_map.mpr ((List.pairwise_map.mp hnodup).imp_of_mem ?_)
    intro o o' ho ho' hne heq
    have h1 := haddr o ho
    have h2 := haddr o' ho'
    simp only [Function.comp_apply] at heq
    omega
  · rintro _ hmem
    obtain ⟨o, ho, rfl⟩ := List.mem_map.mp hmem
    obtain ⟨b, hb, hused, hplace, hsize⟩ := hholds.chunk o ho
    have hb' := hlow b hb
    refine ⟨_, List.mem_map_of_mem hb, hused, ?_, hsize⟩
    simp only [Block.relocate]
    omega
  · rintro _ hmem hused
    obtain ⟨b, hb, rfl⟩ := List.mem_map.mp hmem
    obtain ⟨o, ho, hplace⟩ := hholds.object b hb hused
    have hb' := hlow b hb
    refine ⟨_, List.mem_map_of_mem ho, ?_⟩
    simp only [Block.relocate]
    omega

end Arrived

section Client

variable {h : Heap} {blocks : List Block} {file : File} {live : List Object} {mem : Mem}

-- After the move the client can go on, with its objects at their new places, if and only if no
-- free chunk is in a list. Its data has moved in any case.
theorem gcMigrate_iff (hwf : WellFormed h blocks file) (hholds : Holds blocks live)
    {poolBuf poolBufSize : Nat} (hmoved : Moved h mem (poolBuf + 4)) (haligned : poolBuf % 8 = 0)
    (hsize : h.currentSize + 4 ≤ poolBufSize) (hsmall : poolBufSize < 2 ^ 32) :
    ∃ h', gcMigrate { h with mem := mem } poolBuf poolBufSize = some (true, h') ∧
      (Client.Inv ⟨h', live.map fun o => { o with addr := o.addr - h.baseAddr + (poolBuf + 4) }⟩ ↔
        poolBuf + 4 = h.baseAddr ∨
          ∀ b ∈ blocks, b.free = true → HMU_FC_NORMAL_MAX_SIZE ≤ b.size) ∧
      ∀ o ∈ live, ∀ i < o.size,
        h'.mem (o.addr - h.baseAddr + (poolBuf + 4) + i) = h.mem (o.addr + i) := by
  have hlow : ∀ b ∈ blocks, h.baseAddr ≤ b.addr := fun b hb => (hwf.tiles.bounds hb).1
  -- the bytes of an object, from the start of the pool on
  have hbytes : ∀ o ∈ live, ∀ i < o.size, ∃ b ∈ blocks, b.free = false ∧ b.addr + 4 ≤ o.addr + i ∧
      o.addr + i < b.addr + b.size ∧ h.baseAddr ≤ o.addr := by
    intro o ho i hi
    obtain ⟨b, hb, hused, haddr, hsub⟩ := hholds.payload_of_bytes ho
    have hin := hsub (show o.addr + i ∈ o.bytes from ⟨by omega, by omega⟩)
    have hb' := hlow b hb
    exact ⟨b, hb, hused, hin.1, hin.2, by omega⟩
  by_cases hsame : poolBuf + 4 = h.baseAddr
  · have hrun : gcMigrate { h with mem := mem } poolBuf poolBufSize =
        some (true, { h with mem := mem }) := by
      obtain ⟨k, hunits⟩ := hwf.pool.units
      have hsmall' := hwf.pool.small
      simp only [gcMigrate, show GC_HEAD_PADDING = 4 from rfl]
      rw [if_neg (by omega), if_neg (by omega), if_pos (by omega)]
    rw [hsame] at hmoved ⊢
    refine ⟨_, hrun, ⟨fun _ => .inl rfl, fun _ => ?_⟩, fun o ho i hi => ?_⟩
    · have hlive : (live.map fun o : Object =>
          { o with addr := o.addr - h.baseAddr + h.baseAddr }) = live := by
        rw [List.map_congr_left (g := id), List.map_id]
        intro o ho
        obtain ⟨b, hb, -, haddr, -⟩ := hholds.chunk o ho
        have hb' := hlow b hb
        simp only [id]
        rw [Nat.sub_add_cancel (by omega)]
      rw [hlive]
      exact ⟨blocks, file, hwf.of_same hmoved, hholds⟩
    · obtain ⟨b, hb, -, hlow', hhigh, hstart⟩ := hbytes o ho i hi
      have hbounds := hwf.tiles.bounds hb
      rw [Nat.sub_add_cancel hstart]
      simp only
      rw [hmoved.mem_eq (by omega) (by omega), Nat.sub_add_cancel (by omega)]
  · obtain ⟨h', hrun, hm⟩ := gcMigrate_migrated hwf hmoved haligned hsize hsmall hsame
    refine ⟨h', hrun, ⟨?_, ?_⟩, fun o ho i hi => ?_⟩
    · rintro ⟨blocks', file', hwf', -⟩
      refine .inr fun b hb hfree => ?_
      by_contra hlarge
      exact hm.not_wellFormed hwf hmoved hsame hb hfree
        (Nat.lt_of_not_le hlarge) ⟨blocks', file', hwf'⟩
    · rintro (heq | hlarge)
      · exact absurd heq hsame
      · obtain ⟨file', hwf'⟩ := hm.wellFormed hwf hmoved (by omega) hlarge
        exact ⟨_, file', hwf', hholds.relocate hlow⟩
    · obtain ⟨b, hb, hused, hlow', hhigh, hstart⟩ := hbytes o ho i hi
      have hbounds := hwf.tiles.bounds hb
      have hkept := hm.outside (o.addr + i - h.baseAddr) (by omega) (by
        rw [Nat.add_sub_cancel' (by omega)]
        exact hwf.not_mem_nodeBytes hb (by omega) hhigh (.inl hused))
      rw [Nat.add_sub_cancel' (by omega)] at hkept
      rw [← hkept]
      congr 1
      omega

end Client

end Watz.Ems
