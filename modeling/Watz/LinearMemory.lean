import Mathlib.Data.Nat.Notation
import Mathlib.Logic.Function.Basic
import Watz.Base.Run

namespace Watz.LinearMemory

def PAGE_SIZE : Nat := 4 * 1024

def UINT32_MAX : Nat := 0xFFFFFFFF

def DEFAULT_NUM_BYTES_PER_PAGE : Nat := 65536

def MMAP_PROT_NONE : Nat := 0

-- `(size + page_size - 1) & ~(page_size - 1)`, which three functions compute.
def pageAligned (size : Nat) : Nat := (size + PAGE_SIZE - 1) / PAGE_SIZE * PAGE_SIZE

structure Mapping where
  length : Nat
  bytes : Nat → UInt8

-- The mappings by their base address, and the arguments of every `tee_unmap` so far.
structure Platform where
  mappings : Nat → Option Mapping
  unmapCalls : List (Nat × Nat)

-- What the platform and the heap answer during one operation. `fresh` are the bytes of a new
-- mapping (or of the new part of an old one), `pool` the bytes of the heap once
-- `mem_allocator_migrate` has moved the links of its free chunks.
structure Outcomes where
  mapZi : Option Nat
  remap : Option Nat
  fresh : Nat → UInt8
  mprotect : Bool
  unmap : Bool
  heapCorrupted : Bool
  migrate : Bool
  pool : Nat → UInt8

-- A null pointer is the address 0.
structure MemoryInstance where
  memoryData : Nat
  memoryDataEnd : Nat
  memoryDataSize : Nat
  heapData : Nat
  heapDataEnd : Nat
  numBytesPerPage : Nat
  curPageCount : Nat
  maxPageCount : Nat
  deriving DecidableEq

section PlatformCalls

-- The platform grants a base that is not in use, or nothing.
def teeMapZi (outcomes : Outcomes) (length : Nat) (platform : Platform) :
    Option Nat × Platform :=
  match outcomes.mapZi with
  | none => (none, platform)
  | some base =>
      if base ≠ 0 ∧ (platform.mappings base).isNone then
        (some base, { platform with
          mappings := Function.update platform.mappings base (some ⟨length, outcomes.fresh⟩) })
      else (none, platform)

def teeRemap (outcomes : Outcomes) (newSize oldAddr : Nat) (platform : Platform) :
    Option Nat × Platform :=
  match platform.mappings oldAddr, outcomes.remap with
  | some old, some base =>
      if base ≠ 0 ∧ (base = oldAddr ∨ (platform.mappings base).isNone) then
        let moved : Mapping :=
          ⟨newSize, fun i => if i < old.length then old.bytes i else outcomes.fresh i⟩
        (some base, { platform with
          mappings := Function.update (Function.update platform.mappings oldAddr none) base
            (some moved) })
      else (none, platform)
  | _, _ => (none, platform)

-- Only a whole mapping can be taken away.
def teeUnmap (outcomes : Outcomes) (addr length : Nat) (platform : Platform) : Platform :=
  let called := { platform with unmapCalls := platform.unmapCalls ++ [(addr, length)] }
  match platform.mappings addr with
  | none => called
  | some mapping =>
      if outcomes.unmap ∧ mapping.length = length then
        { called with mappings := Function.update platform.mappings addr none }
      else called

def osMremap (outcomes : Outcomes) (oldAddr _oldSize newSize : Nat) (platform : Platform) :
    Option Nat × Platform :=
  teeRemap outcomes newSize oldAddr platform

def osMprotect (outcomes : Outcomes) : Bool := outcomes.mprotect

def osMmap (outcomes : Outcomes) (size prot : Nat) (platform : Platform) :
    Option Nat × Platform :=
  let alignedSize := pageAligned size
  if alignedSize ≥ UINT32_MAX then (none, platform)
  else
    match teeMapZi outcomes alignedSize platform with
    | (none, platform) => (none, platform)
    | (some base, platform) =>
        if prot ≠ 0 ∧ osMprotect outcomes = false then
          (none, teeUnmap outcomes base alignedSize platform)
        else (some base, platform)

-- A failure of `tee_unmap` is only printed.
def osMunmap (outcomes : Outcomes) (addr size : Nat) (platform : Platform) : Platform :=
  teeUnmap outcomes addr (pageAligned size) platform

end PlatformCalls

section Functions

def wasmMunmapLinearMemory (outcomes : Outcomes) (mappedMem _commitSize mapSize : Nat)
    (platform : Platform) : Platform :=
  osMunmap outcomes mappedMem mapSize platform

def wasmMremapLinearMemory (outcomes : Outcomes) (mappedMem oldSize newSize _commitSize : Nat)
    (platform : Platform) : Option Nat × Platform :=
  let mapped :=
    if mappedMem ≠ 0 then osMremap outcomes mappedMem oldSize newSize platform
    else osMmap outcomes newSize MMAP_PROT_NONE platform
  match mapped with
  | (none, platform) => (none, platform)
  | (some newMem, platform) =>
      if osMprotect outcomes = false then
        (none, wasmMunmapLinearMemory outcomes newMem newSize newSize platform)
      else (some newMem, platform)

def wasmMmapLinearMemory (outcomes : Outcomes) (mapSize commitSize : Nat) (platform : Platform) :
    Option Nat × Platform :=
  wasmMremapLinearMemory outcomes 0 0 mapSize commitSize platform

-- The address (0 when there is nothing to map) and `memory_data_size`, of a memory that is
-- not shared.
def wasmAllocateLinearMemory (outcomes : Outcomes) (numBytesPerPage initPageCount : Nat)
    (platform : Platform) : Option (Nat × Nat) × Platform :=
  let mapSize := initPageCount * numBytesPerPage
  let memoryDataSize := pageAligned (initPageCount * numBytesPerPage)
  if mapSize > 0 then
    match wasmMmapLinearMemory outcomes mapSize memoryDataSize platform with
    | (none, platform) => (none, platform)
    | (some data, platform) => (some (data, memoryDataSize), platform)
  else (some (0, memoryDataSize), platform)

-- `mem_allocator_migrate` moves the links between the free chunks of the heap along. A heap
-- that stays where it is keeps its bytes.
def memAllocatorMigrate (outcomes : Outcomes) (oldData newData heapOffset heapSize : Nat)
    (platform : Platform) : Platform :=
  match platform.mappings newData with
  | none => platform
  | some mapping =>
      if newData = oldData then platform
      else
        let rewritten : Mapping := { mapping with
          bytes := fun i =>
            if heapOffset ≤ i ∧ i < heapOffset + heapSize then outcomes.pool i
            else mapping.bytes i }
        { platform with
          mappings := Function.update platform.mappings newData (some rewritten) }

def MemoryInstance.heapSize (memory : MemoryInstance) : Nat :=
  (memory.heapDataEnd - memory.heapData) % (UINT32_MAX + 1)

def MemoryInstance.heapOffset (memory : MemoryInstance) : Nat :=
  memory.heapData - memory.memoryData

def MemoryInstance.totalPageCount (memory : MemoryInstance) (incPageCount : UInt32) : Nat :=
  (incPageCount.toNat + memory.curPageCount) % (UINT32_MAX + 1)

def MemoryInstance.totalSizeNew (memory : MemoryInstance) (incPageCount : UInt32) : Nat :=
  memory.numBytesPerPage * memory.totalPageCount incPageCount

-- The assignments at the end of `wasm_enlarge_memory_internal`.
def MemoryInstance.enlarged (memory : MemoryInstance) (incPageCount : UInt32)
    (memoryDataNew : Nat) : MemoryInstance :=
  { memory with
    heapData := memoryDataNew + memory.heapOffset
    heapDataEnd := memoryDataNew + memory.heapOffset + memory.heapSize
    memoryData := memoryDataNew
    curPageCount := memory.totalPageCount incPageCount
    memoryDataSize := memory.totalSizeNew incPageCount
    memoryDataEnd := memoryDataNew + memory.totalSizeNew incPageCount }

def wasmEnlargeMemoryInternal (outcomes : Outcomes) (memory : MemoryInstance)
    (incPageCount : UInt32) (platform : Platform) : Bool × MemoryInstance × Platform :=
  if incPageCount = 0 then (true, memory, platform)
  else if memory.totalPageCount incPageCount < memory.curPageCount then (false, memory, platform)
  else if memory.totalPageCount incPageCount > memory.maxPageCount then (false, memory, platform)
  else if memory.heapSize > 0 ∧ outcomes.heapCorrupted then (false, memory, platform)
  else
    match wasmMremapLinearMemory outcomes memory.memoryData memory.memoryDataSize
        (memory.totalSizeNew incPageCount) (memory.totalSizeNew incPageCount) platform with
    | (none, platform) => (false, memory, platform)
    | (some memoryDataNew, platform) =>
        -- A heap that cannot be moved does not end the function: the old address is obsolete.
        if memory.heapSize > 0 then
          (outcomes.migrate, memory.enlarged incPageCount memoryDataNew,
            memAllocatorMigrate outcomes memory.memoryData memoryDataNew memory.heapOffset
              memory.heapSize platform)
        else (true, memory.enlarged incPageCount memoryDataNew, platform)

def wasmDeallocateLinearMemory (outcomes : Outcomes) (memory : MemoryInstance)
    (platform : Platform) : Platform :=
  let mapSize := memory.numBytesPerPage * memory.curPageCount
  wasmMunmapLinearMemory outcomes memory.memoryData memory.memoryDataSize mapSize platform

end Functions

section Sessions

-- What `memory_instantiate` passes on: the loader has checked the page counts, and all but
-- the offset have 32 bits.
structure Request where
  initPageCount : Nat
  maxPageCount : Nat
  heapOffset : Nat
  heapSize : Nat
  init_le_max : initPageCount ≤ maxPageCount
  max_le : maxPageCount ≤ UINT32_MAX
  heapSize_le : heapSize ≤ UINT32_MAX

structure State where
  memory : Option MemoryInstance
  platform : Platform

-- Between two calls the guest may store anything into its memory.
inductive Op where
  | allocate (request : Request) (outcomes : Outcomes)
  | enlarge (incPageCount : UInt32) (outcomes : Outcomes)
  | deallocate (outcomes : Outcomes)
  | guest (bytes : Nat → UInt8)

inductive Reply where
  | allocated (ok : Bool)
  | enlarged (ok : Bool)
  | done
  deriving DecidableEq

def Request.memoryInstance (request : Request) (data memoryDataSize : Nat) : MemoryInstance where
  memoryData := data
  memoryDataEnd := data + memoryDataSize
  memoryDataSize := memoryDataSize
  heapData := data + request.heapOffset
  heapDataEnd := data + request.heapOffset + request.heapSize
  numBytesPerPage := DEFAULT_NUM_BYTES_PER_PAGE
  curPageCount := request.initPageCount
  maxPageCount := request.maxPageCount

def guestStores (memory : MemoryInstance) (bytes : Nat → UInt8) (platform : Platform) :
    Platform :=
  match platform.mappings memory.memoryData with
  | none => platform
  | some mapping =>
      let stored : Mapping := { mapping with
        bytes := fun i => if i < memory.memoryDataSize then bytes i else mapping.bytes i }
      { platform with
        mappings := Function.update platform.mappings memory.memoryData (some stored) }

-- A memory is allocated once, and released when its instance goes. The callers of
-- `wasm_deallocate_linear_memory` skip a null pointer.
def next (s : State) : Op → State × Reply
  | .allocate request outcomes =>
      match s.memory with
      | some _ => (s, .done)
      | none =>
          match wasmAllocateLinearMemory outcomes DEFAULT_NUM_BYTES_PER_PAGE
              request.initPageCount s.platform with
          | (none, platform) => (⟨none, platform⟩, .allocated false)
          | (some (data, memoryDataSize), platform) =>
              (⟨some (request.memoryInstance data memoryDataSize), platform⟩, .allocated true)
  | .enlarge incPageCount outcomes =>
      match s.memory with
      | none => (s, .done)
      | some memory =>
          match wasmEnlargeMemoryInternal outcomes memory incPageCount s.platform with
          | (ok, memory, platform) => (⟨some memory, platform⟩, .enlarged ok)
  | .deallocate outcomes =>
      match s.memory with
      | none => (s, .done)
      | some memory =>
          if memory.memoryData = 0 then (⟨none, s.platform⟩, .done)
          else (⟨none, wasmDeallocateLinearMemory outcomes memory s.platform⟩, .done)
  | .guest bytes =>
      match s.memory with
      | none => (s, .done)
      | some memory => (⟨some memory, guestStores memory bytes s.platform⟩, .done)

end Sessions

-- The fields agree with each other and with what is mapped.
structure Sound (memory : MemoryInstance) (platform : Platform) : Prop where
  bytesPerPage : memory.numBytesPerPage = DEFAULT_NUM_BYTES_PER_PAGE
  size : memory.memoryDataSize = memory.numBytesPerPage * memory.curPageCount
  dataEnd : memory.memoryDataEnd = memory.memoryData + memory.memoryDataSize
  pages : memory.curPageCount ≤ memory.maxPageCount
  limit : memory.maxPageCount ≤ UINT32_MAX
  heapData : memory.memoryData ≤ memory.heapData
  heapDataEnd : memory.heapData ≤ memory.heapDataEnd
  heapSize : memory.heapDataEnd - memory.heapData ≤ UINT32_MAX
  mapped : (memory.memoryData = 0 ∧ memory.memoryDataSize = 0) ∨
    memory.memoryData ≠ 0 ∧ ∃ mapping, platform.mappings memory.memoryData = some mapping ∧
      mapping.length = memory.memoryDataSize

-- Every mapping is still there, with its bytes.
def Kept (platform later : Platform) : Prop :=
  ∀ base mapping, platform.mappings base = some mapping → later.mappings base = some mapping

-- The memory has so many pages more, holds what it held (but for the links of a heap that
-- has moved), and took the place of the old one in the ledger.
structure Grown (memory : MemoryInstance) (incPageCount : UInt32) (platform : Platform)
    (memory' : MemoryInstance) (later : Platform) : Prop where
  sound : Sound memory' later
  pageCount : memory'.curPageCount = memory.curPageCount + incPageCount.toNat
  maxPageCount : memory'.maxPageCount = memory.maxPageCount
  heapOffset : memory'.heapOffset = memory.heapOffset
  heapSize : memory'.heapSize = memory.heapSize
  contents : ∀ old new, platform.mappings memory.memoryData = some old →
    later.mappings memory'.memoryData = some new → ∀ i < memory.memoryDataSize,
      memory'.memoryData = memory.memoryData ∨ i < memory.heapOffset ∨
        memory.heapOffset + memory.heapSize ≤ i → new.bytes i = old.bytes i
  replaced : memory'.memoryData ≠ memory.memoryData → memory.memoryData ≠ 0 →
    later.mappings memory.memoryData = none
  others : ∀ base, base ≠ memory.memoryData → base ≠ memory'.memoryData →
    later.mappings base = platform.mappings base

-- `tee_remap` succeeds and `tee_mprotect` then fails: the new mapping is taken away again,
-- and the old one is gone already.
def Loses (outcomes : Outcomes) (memory : MemoryInstance) (incPageCount : UInt32)
    (platform : Platform) : Prop :=
  memory.memoryData ≠ 0 ∧ incPageCount ≠ 0 ∧
    memory.curPageCount ≤ memory.totalPageCount incPageCount ∧
    memory.totalPageCount incPageCount ≤ memory.maxPageCount ∧
    ¬(memory.heapSize > 0 ∧ outcomes.heapCorrupted) ∧
    (teeRemap outcomes (memory.totalSizeNew incPageCount) memory.memoryData platform).1.isSome ∧
    outcomes.mprotect = false

end Watz.LinearMemory
