import Watz.Base.LinkedTree
import Watz.Base.Words

namespace Watz.Ems

open Base.Layout Base.Words
open Base.LinkedTree (Side)

def HMU_SIZE : Nat := 4

def GC_HEAD_PADDING : Nat := 4

def APP_HEAP_SIZE_MIN : Nat := 256

-- The largest pool that the runtime makes.
def APP_HEAP_SIZE_MAX : Nat := 1024 * 1024 * 1024

-- `sizeof(hmu_tree_node_t)`: packed, with three pointers of eight bytes.
def TREE_NODE_SIZE : Nat := 32

def HMU_NORMAL_NODE_CNT : Nat := 32

def HMU_FC_NORMAL_MAX_SIZE : Nat := (HMU_NORMAL_NODE_CNT - 1) <<< 3

-- `(uint32)(s) + 7) & (uint32)~7`
def GC_ALIGN_8 (s : Nat) : Nat := (s + 7) % 2 ^ 32 / 8 * 8

def GC_SMALLEST_SIZE : Nat := GC_ALIGN_8 (HMU_SIZE + 8)

def HMU_IS_FC_NORMAL (size : Nat) : Bool := size < HMU_FC_NORMAL_MAX_SIZE

-- The type of a heap memory unit: a free chunk, an object of the runtime, an object of the
-- collector (no build of this platform has one), or none of these.
inductive HmuType where
  | fm
  | fc
  | vo
  | wo
  deriving DecidableEq

namespace HmuType

def toBits : HmuType → BitVec 32
  | fm => 0
  | fc => 1
  | vo => 2
  | wo => 3

def ofBits (v : BitVec 32) : HmuType :=
  if v = 0 then fm else if v = 1 then fc else if v = 2 then vo else wo

end HmuType

def HMU_UT_OFFSET : Nat := 30

def HMU_UT_SIZE : Nat := 2

def HMU_P_OFFSET : Nat := 29

def HMU_VO_FB_OFFSET : Nat := 28

def HMU_SIZE_OFFSET : Nat := 0

def HMU_SIZE_SIZE : Nat := 27

-- `gc_heap_t` and the memory that it manages. The root node of the tree lies in the structure,
-- at `kfcTreeRoot`; a pointer is an address, and zero is NULL.
structure Heap where
  baseAddr : Nat
  currentSize : Nat
  kfcNormalList : Nat → Nat
  kfcTreeRoot : Nat
  isHeapCorrupted : Bool
  highmarkSize : Nat
  totalFreeSize : Nat
  mem : Mem

namespace Heap

variable (h : Heap)

def header (hmu : Nat) : BitVec 32 := BitVec.ofNat 32 (load h.mem hmu 4)

def setHeader (hmu : Nat) (v : BitVec 32) : Heap := { h with mem := store h.mem hmu 4 v.toNat }

def hmuGetUt (hmu : Nat) : HmuType := .ofBits (getBits (h.header hmu) HMU_UT_OFFSET HMU_UT_SIZE)

def hmuSetUt (hmu : Nat) (type : HmuType) : Heap :=
  h.setHeader hmu (setBits (h.header hmu) HMU_UT_OFFSET HMU_UT_SIZE type.toBits)

def hmuGetPinuse (hmu : Nat) : Bool := getBit (h.header hmu) HMU_P_OFFSET

def hmuMarkPinuse (hmu : Nat) : Heap := h.setHeader hmu (setBit (h.header hmu) HMU_P_OFFSET)

def hmuUnmarkPinuse (hmu : Nat) : Heap := h.setHeader hmu (clearBit (h.header hmu) HMU_P_OFFSET)

def hmuIsVoFreed (hmu : Nat) : Bool := getBit (h.header hmu) HMU_VO_FB_OFFSET

def hmuUnfreeVo (hmu : Nat) : Heap := h.setHeader hmu (clearBit (h.header hmu) HMU_VO_FB_OFFSET)

-- The header has the size in units of eight bytes.
def hmuGetSize (hmu : Nat) : Nat :=
  (getBits (h.header hmu) HMU_SIZE_OFFSET HMU_SIZE_SIZE <<< 3).toNat

def hmuSetSize (hmu size : Nat) : Heap :=
  h.setHeader hmu
    (setBits (h.header hmu) HMU_SIZE_OFFSET HMU_SIZE_SIZE (BitVec.ofNat 32 (size >>> 3)))

-- The last word of a free chunk has its size.
def hmuSetFreeSize (hmu : Nat) : Heap :=
  { h with mem := store h.mem (hmu + h.hmuGetSize hmu - 4) 4 (h.hmuGetSize hmu) }

-- `hmu_normal_node_t`: the next node of a list, as a signed distance.
def nextOffset (node : Nat) : Int := (BitVec.ofNat 32 (load h.mem (node + 4) 4)).toInt

def getHmuNormalNodeNext (node : Nat) : Nat :=
  if h.nextOffset node = 0 then 0 else ((node + h.nextOffset node) % 2 ^ 64).toNat

def setHmuNormalNodeNext (node next : Nat) : Heap :=
  let offset := if next = 0 then 0 else (((next : Int) - node) % 2 ^ 32).toNat
  { h with mem := store h.mem (node + 4) 4 offset }

def setNormalHead (index node : Nat) : Heap :=
  { h with kfcNormalList := Function.update h.kfcNormalList index node }

-- `hmu_tree_node_t`
def left (node : Nat) : Nat := load h.mem (node + 4) 8

def right (node : Nat) : Nat := load h.mem (node + 12) 8

def parent (node : Nat) : Nat := load h.mem (node + 20) 8

def size (node : Nat) : Nat := load h.mem (node + 28) 4

def setLeft (node p : Nat) : Heap := { h with mem := store h.mem (node + 4) 8 p }

def setRight (node p : Nat) : Heap := { h with mem := store h.mem (node + 12) 8 p }

def setParent (node p : Nat) : Heap := { h with mem := store h.mem (node + 20) 8 p }

def setSize (node s : Nat) : Heap := { h with mem := store h.mem (node + 28) 4 s }

-- `p->left = p->right = p->parent = NULL`
def clearLinks (node : Nat) : Heap := ((h.setParent node 0).setRight node 0).setLeft node 0

def hmuIsInHeap (hmu : Nat) : Bool := h.baseAddr ≤ hmu && hmu < h.baseAddr + h.currentSize

def corrupted : Heap := { h with isHeapCorrupted := true }

-- No list and no path of the tree has as many nodes as the pool has bytes: this many rounds
-- are enough for every loop over them.
def rounds : Nat := h.currentSize + 2

end Heap

def Heap.setSlot (h : Heap) (parent : Nat) (side : Side) (p : Nat) : Heap :=
  match side with
  | .left => h.setLeft parent p
  | .right => h.setRight parent p

-- Which of its parent's pointers leads to a node.
def slotOf (h : Heap) (p : Nat) : Option Side :=
  if p = h.right (h.parent p) then some .right
  else if p = h.left (h.parent p) then some .left
  else none

-- `while (q->right) q = q->right`, with the check of each node.
def rightmost (h : Heap) : Nat → Nat → Option (Bool × Nat)
  | 0, _ => none
  | fuel + 1, q =>
      if h.right q = 0 then some (true, q)
      else if !h.hmuIsInHeap (h.right q) then some (false, h.right q)
      else rightmost h fuel (h.right q)

-- The node takes the place of `p` in the tree.
def replaceNode (h : Heap) (p q parent : Nat) (side : Side) : Bool × Heap :=
  let h := h.setSlot parent side q
  let h := h.setParent q (h.parent p)
  let h := h.setLeft q (h.left p)
  let h := h.setRight q (h.right p)
  if h.left q ≠ 0 ∧ !h.hmuIsInHeap (h.left q) then (false, h.corrupted)
  else
    let h := if h.left q ≠ 0 then h.setParent (h.left q) q else h
    if h.right q ≠ 0 ∧ !h.hmuIsInHeap (h.right q) then (false, h.corrupted)
    else
      let h := if h.right q ≠ 0 then h.setParent (h.right q) q else h
      (true, h.clearLinks p)

-- Remove a node from the tree. It is replaced by its only child, or else by its predecessor,
-- which is removed first.
def removeTreeNode : Nat → Heap → Nat → Option (Bool × Heap)
  | 0, _, _ => none
  | fuel + 1, h, p =>
      let parent := h.parent p
      if parent = 0 ∨ p = h.kfcTreeRoot ∨ !h.hmuIsInHeap p ∨
          (parent ≠ h.kfcTreeRoot ∧ !h.hmuIsInHeap parent) then
        some (false, h.corrupted)
      else
        match slotOf h p with
        | none => some (false, h.corrupted)
        | some side =>
            if h.left p = 0 then
              let h := h.setSlot parent side (h.right p)
              if h.right p ≠ 0 then
                if !h.hmuIsInHeap (h.right p) then some (false, h.corrupted)
                else some (true, (h.setParent (h.right p) (h.parent p)).clearLinks p)
              else some (true, h.clearLinks p)
            else if h.right p = 0 then
              let h := h.setSlot parent side (h.left p)
              if !h.hmuIsInHeap (h.left p) then some (false, h.corrupted)
              else some (true, (h.setParent (h.left p) (h.parent p)).clearLinks p)
            else if !h.hmuIsInHeap (h.left p) then some (false, h.corrupted)
            else
              match rightmost h fuel (h.left p) with
              | none => none
              | some (false, _) => some (false, h.corrupted)
              | some (true, q) =>
                  match removeTreeNode fuel h q with
                  | none => none
                  | some (false, h) => some (false, h)
                  | some (true, h) => some (replaceNode h p q parent side)

-- The search of a node in its list. A node that is not there is reported in the log only.
def unlinkLoop (h : Heap) (index hmu : Nat) : Nat → Nat → Nat → Option (Bool × Heap)
  | 0, _, _ => none
  | fuel + 1, prev, node =>
      if node = 0 then some (true, h)
      else if !h.hmuIsInHeap node then some (false, h.corrupted)
      else if node = hmu then
        if prev = 0 then some (true, h.setNormalHead index (h.getHmuNormalNodeNext node))
        else some (true, h.setHmuNormalNodeNext prev (h.getHmuNormalNodeNext node))
      else unlinkLoop h index hmu fuel node (h.getHmuNormalNodeNext node)

def unlinkHmu (h : Heap) (hmu : Nat) : Option (Bool × Heap) :=
  if h.hmuGetUt hmu ≠ .fc then some (false, h.corrupted)
  else if HMU_IS_FC_NORMAL (h.hmuGetSize hmu) then
    let index := h.hmuGetSize hmu >>> 3
    unlinkLoop h index hmu h.rounds 0 (h.kfcNormalList index)
  else removeTreeNode h.rounds h hmu

-- The descent to the place of a new node.
def linkLoop (h : Heap) (node size : Nat) : Nat → Nat → Option (Bool × Heap)
  | 0, _ => none
  | fuel + 1, tp =>
      if h.size tp < size then
        if h.right tp = 0 then some (true, (h.setRight tp node).setParent node tp)
        else if !h.hmuIsInHeap (h.right tp) then some (false, h.corrupted)
        else linkLoop h node size fuel (h.right tp)
      else if h.left tp = 0 then some (true, (h.setLeft tp node).setParent node tp)
      else if !h.hmuIsInHeap (h.left tp) then some (false, h.corrupted)
      else linkLoop h node size fuel (h.left tp)

-- Add a free chunk.
def gciAddFc (h : Heap) (hmu size : Nat) : Option (Bool × Heap) :=
  let h := ((h.hmuSetUt hmu .fc).hmuSetSize hmu size).hmuSetFreeSize hmu
  if HMU_IS_FC_NORMAL size then
    if !h.hmuIsInHeap hmu then some (false, h.corrupted)
    else
      let index := size >>> 3
      some (true, (h.setHmuNormalNodeNext hmu (h.kfcNormalList index)).setNormalHead index hmu)
  else
    let h := (h.setSize hmu size).clearLinks hmu
    linkLoop h hmu size h.rounds h.kfcTreeRoot

-- `heap->total_free_size -= size` and the high mark.
def Heap.take (h : Heap) (size : Nat) : Heap :=
  let free := (h.totalFreeSize + 2 ^ 32 - size) % 2 ^ 32
  let used := (h.currentSize + 2 ^ 32 - free) % 2 ^ 32
  { h with totalFreeSize := free, highmarkSize := max h.highmarkSize used }

-- The found chunk `p` of `chunkSize` bytes, taken out of its list or of the tree, is cut in two
-- or given away whole.
def cutChunk (h : Heap) (p chunkSize size : Nat) (cut : Bool) : Option (Nat × Heap) :=
  if cut then
    match gciAddFc h (p + size) (chunkSize - size) with
    | none => none
    | some (false, h) => some (0, h)
    | some (true, h) =>
        some (p, ((h.hmuMarkPinuse (p + size)).take size).hmuSetSize p size)
  else
    let next := p + chunkSize
    let h := if h.hmuIsInHeap next then h.hmuMarkPinuse next else h
    some (p, (h.take chunkSize).hmuSetSize p chunkSize)

-- The first list with a node, from this index on.
def firstList (h : Heap) (index : Nat) : Option Nat :=
  (List.range' index (HMU_NORMAL_NODE_CNT - index)).find? fun i => h.kfcNormalList i != 0

-- The smallest chunk of the tree that is large enough; zero is none.
def bestLoop (h : Heap) (size : Nat) : Nat → Nat → Nat → Option (Bool × Nat)
  | 0, _, _ => none
  | fuel + 1, last, tp =>
      if tp = 0 then some (true, last)
      else if !h.hmuIsInHeap tp then some (false, last)
      else if h.size tp < size then bestLoop h size fuel last (h.right tp)
      else bestLoop h size fuel tp (h.left tp)

def allocFromTree (h : Heap) (size : Nat) : Option (Nat × Heap) :=
  match bestLoop h size h.rounds 0 (h.right h.kfcTreeRoot) with
  | none => none
  | some (false, _) => some (0, h.corrupted)
  | some (true, last) =>
      if last = 0 then some (0, h)
      else
        match removeTreeNode h.rounds h last with
        | none => none
        | some (false, h) => some (0, h)
        | some (true, h) =>
            cutChunk h last (h.size last) size (size + GC_SMALLEST_SIZE ≤ h.size last)

def allocHmu (h : Heap) (size : Nat) : Option (Nat × Heap) :=
  let size := max size GC_SMALLEST_SIZE
  match if HMU_IS_FC_NORMAL size then firstList h (size >>> 3) else none with
  | none => allocFromTree h size
  | some index =>
      let p := h.kfcNormalList index
      if !h.hmuIsInHeap p then some (0, h.corrupted)
      else
        let h := h.setNormalHead index (h.getHmuNormalNodeNext p)
        if (p + HMU_SIZE) % 8 ≠ 0 then some (0, h.corrupted)
        else
          cutChunk h p (index <<< 3) size
            (index ≠ size >>> 3 && size + GC_SMALLEST_SIZE ≤ index <<< 3)

-- The bytes of an object with its header, before and after alignment.
def totSizeUnaligned (size : Nat) : Nat := (HMU_SIZE + size) % 2 ^ 32

def totSize (size : Nat) : Nat := GC_ALIGN_8 (totSizeUnaligned size)

-- The new object, or zero.
def gcAllocVo (h : Heap) (size : Nat) : Option (Nat × Heap) :=
  if totSize size < size then some (0, h)
  else if h.isHeapCorrupted then some (0, h)
  else
    match allocHmu h (totSize size) with
    | none => none
    | some (0, h) => some (0, h)
    | some (hmu, h) =>
        let tot := h.hmuGetSize hmu
        let h := (h.hmuSetUt hmu .vo).hmuUnfreeVo hmu
        let ret := hmu + HMU_SIZE
        if tot > totSizeUnaligned size then
          some (ret, { h with mem := clear h.mem (ret + size) (tot - totSizeUnaligned size) })
        else some (ret, h)

-- The free neighbour in front of a chunk, found by the size in the word before the header.
def prevOf (h : Heap) (hmu : Nat) : Nat :=
  ((hmu - (BitVec.ofNat 32 (load h.mem (hmu - 4) 4)).toInt) % 2 ^ 64).toNat

-- `heap->total_free_size += size`
def Heap.give (h : Heap) (size : Nat) : Heap :=
  { h with totalFreeSize := (h.totalFreeSize + size) % 2 ^ 32 }

-- The chunk in front is merged if it is free.
def mergeFront (h : Heap) (hmu size : Nat) : Option (Bool × Nat × Nat × Heap) :=
  if !h.hmuGetPinuse hmu ∧ h.hmuIsInHeap (prevOf h hmu) ∧ h.hmuGetUt (prevOf h hmu) = .fc then
    (unlinkHmu h (prevOf h hmu)).map fun r =>
      (r.1, prevOf h hmu, size + h.hmuGetSize (prevOf h hmu), r.2)
  else some (true, hmu, size, h)

-- The chunk behind is merged if it is free.
def mergeBack (h : Heap) (hmu size : Nat) : Option (Bool × Nat × Heap) :=
  if h.hmuIsInHeap (hmu + size) ∧ h.hmuGetUt (hmu + size) = .fc then
    (unlinkHmu h (hmu + size)).map fun r => (r.1, size + h.hmuGetSize (hmu + size), r.2)
  else some (true, size, h)

-- Whether the object was freed, and the heap afterwards.
def gcFreeVo (h : Heap) (obj : Nat) : Option (Bool × Heap) :=
  if obj = 0 then some (true, h)
  else if h.isHeapCorrupted then some (false, h)
  else
    let hmu := obj - HMU_SIZE
    if !h.hmuIsInHeap hmu then some (true, h)
    else if h.hmuGetUt hmu ≠ .vo then some (false, h)
    else if h.hmuIsVoFreed hmu then some (false, h)
    else
      let size := h.hmuGetSize hmu
      match mergeFront (h.give size) hmu size with
      | none => none
      | some (false, _, _, h) => some (false, h)
      | some (true, hmu, size, h) =>
          match mergeBack h hmu size with
          | none => none
          | some (false, _, h) => some (false, h)
          | some (true, size, h) =>
              match gciAddFc h hmu size with
              | none => none
              | some (false, h) => some (false, h)
              | some (true, h) =>
                  let next := hmu + size
                  some (true, if h.hmuIsInHeap next then h.hmuUnmarkPinuse next else h)

-- Whether an object can grow into the free chunk behind it.
def fitsNext (h : Heap) (hmuOld totSizeOld totSize : Nat) : Bool :=
  h.hmuIsInHeap (hmuOld + totSizeOld) && h.hmuGetUt (hmuOld + totSizeOld) = .fc &&
    totSize ≤ totSizeOld + h.hmuGetSize (hmuOld + totSizeOld)

-- Current node and next node meet the requirement.
def growInPlace (h : Heap) (hmuOld totSizeOld totSize : Nat) : Option (Nat × Heap) :=
  let totSizeNext := h.hmuGetSize (hmuOld + totSizeOld)
  match unlinkHmu h (hmuOld + totSizeOld) with
  | none => none
  | some (false, h) => some (0, h)
  | some (true, h) =>
      let h := h.hmuSetSize hmuOld totSize
      let h := { h with mem := clear h.mem (hmuOld + totSizeOld) (totSize - totSizeOld) }
      if totSize < totSizeOld + totSizeNext then
        match gciAddFc h (hmuOld + totSize) (totSizeOld + totSizeNext - totSize) with
        | none => none
        | some (false, h) => some (0, h)
        | some (true, h) => some (hmuOld + HMU_SIZE, h.hmuMarkPinuse (hmuOld + totSize))
      else some (hmuOld + HMU_SIZE, h)

-- A new object gets the bytes of the old one, which is freed.
def moveObject (h : Heap) (objOld totSizeOld totSize : Nat) : Option (Nat × Heap) :=
  match allocHmu h totSize with
  | none => none
  | some (0, h) => some (0, h)
  | some (hmu, h) =>
      let objSize := h.hmuGetSize hmu - HMU_SIZE
      let h := (h.hmuSetUt hmu .vo).hmuUnfreeVo hmu
      let ret := hmu + HMU_SIZE
      let h := { h with mem := clear h.mem ret objSize }
      if objOld = 0 then some (ret, h)
      else
        let objSizeOld := totSizeOld - HMU_SIZE
        let h :=
          if objSizeOld ≤ objSize then
            { h with mem := write h.mem ret (slice h.mem objOld objSizeOld) }
          else h
        match gcFreeVo h objOld with
        | none => none
        | some (_, h) => some (ret, h)

-- `gc_realloc_vo`
def gcReallocVo (h : Heap) (objOld size : Nat) : Option (Nat × Heap) :=
  let totSizeOld := h.hmuGetSize (objOld - HMU_SIZE)
  if totSize size < size then some (0, h)
  else if h.isHeapCorrupted then some (0, h)
  else if objOld = 0 then moveObject h 0 0 (totSize size)
  else if totSize size ≤ totSizeOld then some (objOld, h)
  else if fitsNext h (objOld - HMU_SIZE) totSizeOld (totSize size) then
    growInPlace h (objOld - HMU_SIZE) totSizeOld (totSize size)
  else moveObject h objOld totSizeOld (totSize size)

-- `adjust_ptr`
def adjustPtr (p : Nat) (offset : Int) : Nat :=
  if p = 0 then 0 else ((p + offset) % 2 ^ 64).toNat

-- The pointers of a node move with the pool. The root node does not.
def adjustNode (h : Heap) (node : Nat) (offset : Int) : Heap :=
  let h := h.setLeft node (adjustPtr (h.left node) offset)
  let h := h.setRight node (adjustPtr (h.right node) offset)
  if h.parent node ≠ h.kfcTreeRoot then h.setParent node (adjustPtr (h.parent node) offset) else h

-- The chunks of the pool, one after the other.
def migrateLoop (offset : Int) : Nat → Heap → Nat → Option (Bool × Heap)
  | 0, _, _ => none
  | fuel + 1, h, cur =>
      let stop := h.baseAddr + h.currentSize
      if cur < stop then
        let size := h.hmuGetSize cur
        if size = 0 ∨ size > (stop - cur) % 2 ^ 32 then some (false, h.corrupted)
        else if h.hmuGetUt cur = .fc ∧ !HMU_IS_FC_NORMAL size then
          migrateLoop offset fuel (adjustNode h cur offset) (cur + size)
        else migrateLoop offset fuel h (cur + size)
      else if cur ≠ stop then some (false, h.corrupted)
      else some (true, h)

-- `gc_migrate`: the caller has moved the pool to another place.
def gcMigrate (h : Heap) (poolBufNew poolBufSize : Nat) : Option (Bool × Heap) :=
  let baseAddrNew := poolBufNew + GC_HEAD_PADDING
  let offset : Int := baseAddrNew - h.baseAddr
  if poolBufNew % 8 ≠ 0 then some (false, h)
  else if poolBufNew + poolBufSize < baseAddrNew ∨
      (poolBufNew + poolBufSize - baseAddrNew) % 2 ^ 32 / 8 * 8 < h.currentSize then
    some (false, h)
  else if offset = 0 then some (true, h)
  else if h.isHeapCorrupted then some (false, h)
  else
    let h := { h with baseAddr := baseAddrNew }
    let root := h.kfcTreeRoot
    let h := h.setLeft root (adjustPtr (h.left root) offset)
    let h := h.setRight root (adjustPtr (h.right root) offset)
    let h := h.setParent root (adjustPtr (h.parent root) offset)
    migrateLoop offset h.rounds h h.baseAddr

-- `gc_init_internal`: the root node, and one free chunk to its right.
def gcInitInternal (kfcTreeRootBuf baseAddr heapMaxSize : Nat) (mem : Mem) : Heap :=
  let h : Heap :=
    { baseAddr := baseAddr
      currentSize := heapMaxSize
      kfcNormalList := fun _ => 0
      kfcTreeRoot := kfcTreeRootBuf
      isHeapCorrupted := false
      highmarkSize := 0
      totalFreeSize := heapMaxSize
      mem := clear (clear mem kfcTreeRootBuf TREE_NODE_SIZE) baseAddr heapMaxSize }
  let root := h.kfcTreeRoot
  let h := ((h.setSize root TREE_NODE_SIZE).hmuSetUt root .fc).hmuSetSize root TREE_NODE_SIZE
  let q := h.baseAddr
  let h := ((h.hmuSetUt q .fc).hmuSetSize q h.currentSize).hmuMarkPinuse q
  ((h.setRight root q).setParent q root).setSize q h.currentSize

-- `sizeof(gc_handle_t)`, a pointer: the size that the structure is checked against.
def GC_HANDLE_SIZE : Nat := 8

-- The root node lies at a fixed offset of the structure, which depends on the mutexes of the
-- platform.
def gcInitWithStructAndPool (rootOffset structBuf structBufSize poolBuf poolBufSize : Nat)
    (mem : Mem) : Option Heap :=
  if structBuf % 8 ≠ 0 then none
  else if structBufSize < GC_HANDLE_SIZE then none
  else if poolBuf % 8 ≠ 0 then none
  else if poolBufSize < APP_HEAP_SIZE_MIN then none
  else
    some (gcInitInternal (structBuf + rootOffset) (poolBuf + GC_HEAD_PADDING)
      ((poolBufSize - GC_HEAD_PADDING) / 8 * 8) mem)

end Watz.Ems
