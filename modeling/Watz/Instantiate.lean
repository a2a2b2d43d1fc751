import Mathlib.Data.Nat.Notation

namespace Watz.Instantiate

def SHARED_MEMORY_FLAG : UInt32 := 0x02

def MEMORY64_FLAG : UInt32 := 0x04

def DEFAULT_MAX_PAGES : UInt32 := 65536

def DEFAULT_MEM64_MAX_PAGES : UInt32 := 0xFFFFFFFF

def BH_KB : UInt32 := 1024

def APP_HEAP_SIZE_MAX : UInt32 := 1024 * 1024 * 1024

def PAGE_SIZE : UInt64 := 4 * 1024

def MAX_LINEAR_MEMORY_SIZE : UInt64 := 4 * 1024 * 1024 * 1024

def MAX_LINEAR_MEM64_MEMORY_SIZE : UInt64 := DEFAULT_MEM64_MAX_PAGES.toUInt64 * 64 * 1024

def getMaxLinearMemorySize (isMemory64 : Bool) : UInt64 :=
  if isMemory64 then MAX_LINEAR_MEM64_MEMORY_SIZE else MAX_LINEAR_MEMORY_SIZE

-- `WASM_ENABLE_SHARED_MEMORY` and `WASM_ENABLE_MEMORY64`.
structure Build where
  sharedMemory : Bool
  memory64 : Bool

-- What the loader knows of the module: its first memory, whether it exports `malloc` and
-- `free`, and the value of its `__heap_base` global when it has one.
structure Module where
  flags : UInt32
  numBytesPerPage : UInt32
  initPageCount : UInt32
  maxPageCount : UInt32
  mallocFunction : Bool
  freeFunction : Bool
  auxHeapBase : Option UInt64

-- Whether the platform grants a mapping of this size with so much of it committed, the
-- allocator the block of the heap structure, and the heap accepts its pool.
structure Host where
  mmapLinearMemory : UInt64 → UInt64 → Bool
  runtimeMalloc : Bool
  createWithStructAndPool : UInt64 → UInt32 → Bool

inductive Reason where
  | insertAppHeap
  | allocateLinearMemory
  | allocateMemory
  | initAppHeap
  deriving DecidableEq

def Reason.text : Reason → String
  | .insertAppHeap =>
      "failed to insert app heap into linear memory, try using `--heap-size=0` option"
  | .allocateLinearMemory => "allocate linear memory failed"
  | .allocateMemory => "allocate memory failed"
  | .initAppHeap => "init app heap failed"

-- The memory instance. `heap` is the offset of `heap_data` and the length up to
-- `heap_data_end`, `heapBase` the value that `__heap_base` was set to.
structure Memory where
  numBytesPerPage : UInt32
  curPageCount : UInt32
  maxPageCount : UInt32
  memoryDataSize : UInt64
  heap : Option (UInt64 × UInt32)
  heapBase : Option UInt64
  deriving DecidableEq

-- The variables of `memory_instantiate` once the heap has its place.
structure Plan where
  numBytesPerPage : UInt32
  initPageCount : UInt32
  maxPageCount : UInt32
  heapOffset : UInt64
  heapSize : UInt32
  heapBase : Option UInt64

-- The variables that the three ways to insert a heap into a memory that may grow assign.
structure Insertion where
  numBytesPerPage : UInt32
  heapOffset : UInt64
  heapSize : UInt32
  incPageCount : UInt32
  heapBase : Option UInt64

def alignUint (v b : UInt32) : UInt32 := (v + (b - 1)) &&& ~~~(b - 1)

def alignAsAndCast (size alignment : UInt64) : UInt64 :=
  (size + alignment - 1) &&& ~~~(alignment - 1)

def wasmRuntimeGetMaxMem (maxMemoryPages moduleInitPageCount moduleMaxPageCount : UInt32) :
    UInt32 :=
  if maxMemoryPages = 0 then moduleMaxPageCount
  else if maxMemoryPages < moduleInitPageCount then moduleInitPageCount
  else if maxMemoryPages > moduleMaxPageCount then moduleMaxPageCount
  else maxMemoryPages

-- The size of the memory, or `none` when the platform has no room for it.
def wasmAllocateLinearMemory (build : Build) (host : Host) (isSharedMemory : Bool)
    (numBytesPerPage initPageCount maxPageCount : UInt64) : Option UInt64 :=
  let mapSize :=
    if build.sharedMemory && isSharedMemory then maxPageCount * numBytesPerPage
    else initPageCount * numBytesPerPage
  let memoryDataSize := alignAsAndCast (initPageCount * numBytesPerPage) PAGE_SIZE
  if mapSize > 0 && !host.mmapLinearMemory mapSize memoryDataSize then none
  else some memoryDataSize

namespace Interpreter

-- A page of no bytes leads to a division by zero, which `udiv` answers with 0.
def insertBeforeHeapBase (build : Build) (isMemory64 : Bool) (auxHeapBase : UInt64)
    (numBytesPerPage heapSize : UInt32) : Insertion :=
  let bytesOfLastPage := (auxHeapBase % numBytesPerPage.toUInt64).toUInt32
  let bytesOfLastPage := if bytesOfLastPage = 0 then numBytesPerPage else bytesOfLastPage
  let bytesToPageEnd := numBytesPerPage - bytesOfLastPage
  let incPageCount := (heapSize - bytesToPageEnd + numBytesPerPage - 1) / numBytesPerPage
  let heapOffset := auxHeapBase
  let auxHeapBase := auxHeapBase + heapSize.toUInt64
  let bytesOfLastPage := (auxHeapBase % numBytesPerPage.toUInt64).toUInt32
  let bytesOfLastPage := if bytesOfLastPage = 0 then numBytesPerPage else bytesOfLastPage
  let bytesToPageEnd := numBytesPerPage - bytesOfLastPage
  let tight := bytesToPageEnd < 1 * BH_KB
  let auxHeapBase := if tight then auxHeapBase + (1 * BH_KB).toUInt64 else auxHeapBase
  { numBytesPerPage := numBytesPerPage
    heapOffset := heapOffset
    heapSize := heapSize
    incPageCount := if tight then incPageCount + 1 else incPageCount
    heapBase := some
      (if build.memory64 && isMemory64 then auxHeapBase else auxHeapBase.toUInt32.toUInt64) }

def insertion (build : Build) (isMemory64 : Bool) (module : Module)
    (numBytesPerPage initPageCount maxPageCount heapSize : UInt32) : Insertion :=
  let beforeNewPage : Insertion :=
    let incPageCount := (heapSize + numBytesPerPage - 1) / numBytesPerPage
    let heapSize := (numBytesPerPage.toUInt64 * incPageCount.toUInt64).toUInt32
    { numBytesPerPage := numBytesPerPage
      heapOffset := numBytesPerPage.toUInt64 * initPageCount.toUInt64
      heapSize := if heapSize > 0 then heapSize - 1 * BH_KB else heapSize
      incPageCount := incPageCount
      heapBase := none }
  if initPageCount = maxPageCount ∧ initPageCount = 0 then
    { numBytesPerPage := heapSize
      heapOffset := 0
      heapSize := heapSize
      incPageCount := 1
      heapBase := none }
  else
    match module.auxHeapBase with
    | some auxHeapBase =>
        if auxHeapBase < numBytesPerPage.toUInt64 * initPageCount.toUInt64 then
          insertBeforeHeapBase build isMemory64 auxHeapBase numBytesPerPage heapSize
        else beforeNewPage
    | none => beforeNewPage

-- The part of `memory_instantiate` that is only for the default memory.
def placeHeap (build : Build) (isMemory64 : Bool) (defaultMaxPage : UInt32) (module : Module)
    (numBytesPerPage initPageCount maxPageCount heapSize : UInt32) : Except Reason Plan :=
  let heapOffset := numBytesPerPage.toUInt64 * initPageCount.toUInt64
  let heapSize :=
    if heapSize > 0 ∧ module.mallocFunction ∧ module.freeFunction then 0 else heapSize
  if heapSize > 0 ∧ heapOffset = getMaxLinearMemorySize isMemory64 then .error .insertAppHeap
  else if initPageCount = maxPageCount ∧ initPageCount = 1 then
    let enlarged := numBytesPerPage + heapSize
    if enlarged < heapSize then .error .insertAppHeap
    else .ok ⟨enlarged, initPageCount, maxPageCount, numBytesPerPage.toUInt64, heapSize, none⟩
  else if heapSize > 0 then
    let inserted :=
      insertion build isMemory64 module numBytesPerPage initPageCount maxPageCount heapSize
    let initPageCount := initPageCount + inserted.incPageCount
    let maxPageCount := maxPageCount + inserted.incPageCount
    if initPageCount > defaultMaxPage then .error .insertAppHeap
    else
      .ok ⟨inserted.numBytesPerPage, initPageCount,
        if maxPageCount > defaultMaxPage then defaultMaxPage else maxPageCount,
        inserted.heapOffset, inserted.heapSize, inserted.heapBase⟩
  else .ok ⟨numBytesPerPage, initPageCount, maxPageCount, heapOffset, heapSize, none⟩

def memoryInstantiate (build : Build) (host : Host) (module : Module) (parent : Option Memory)
    (memoryIdx numBytesPerPage initPageCount maxPageCount heapSize flags : UInt32) :
    Except Reason Memory := do
  let isSharedMemory := build.sharedMemory && flags &&& SHARED_MEMORY_FLAG != 0
  match isSharedMemory, parent with
  | true, some memory => return memory
  | _, _ =>
      let isMemory64 := build.memory64 && flags &&& MEMORY64_FLAG != 0
      let defaultMaxPage := if isMemory64 then DEFAULT_MEM64_MAX_PAGES else DEFAULT_MAX_PAGES
      let plan ←
        if memoryIdx = 0 then
          placeHeap build isMemory64 defaultMaxPage module numBytesPerPage initPageCount
            maxPageCount heapSize
        else
          .ok ⟨numBytesPerPage, initPageCount, maxPageCount,
            numBytesPerPage.toUInt64 * initPageCount.toUInt64, heapSize, none⟩
      match wasmAllocateLinearMemory build host isSharedMemory plan.numBytesPerPage.toUInt64
          plan.initPageCount.toUInt64 plan.maxPageCount.toUInt64 with
      | none => throw .allocateLinearMemory
      | some memoryDataSize =>
          if memoryIdx = 0 ∧ plan.heapSize > 0 then
            if !host.runtimeMalloc then throw .allocateMemory
            if !host.createWithStructAndPool plan.heapOffset plan.heapSize then
              throw .initAppHeap
          return {
            numBytesPerPage := plan.numBytesPerPage
            curPageCount := plan.initPageCount
            maxPageCount := plan.maxPageCount
            memoryDataSize := memoryDataSize
            heap := if memoryIdx = 0 then some (plan.heapOffset, plan.heapSize) else none
            heapBase := plan.heapBase }

-- `wasm_instantiate` and `memories_instantiate`, as far as they are about the first memory.
def instantiate (build : Build) (host : Host) (module : Module) (parent : Option Memory)
    (heapSize maxMemoryPages : UInt32) : Except Reason Memory :=
  let heapSize := alignUint heapSize 8
  let heapSize := if heapSize > APP_HEAP_SIZE_MAX then APP_HEAP_SIZE_MAX else heapSize
  let maxPageCount :=
    wasmRuntimeGetMaxMem maxMemoryPages module.initPageCount module.maxPageCount
  memoryInstantiate build host module parent 0 module.numBytesPerPage module.initPageCount
    maxPageCount heapSize module.flags

end Interpreter

namespace Aot

-- The AOT runtime stores 32 bits of the new `__heap_base` also for a 64-bit memory.
def insertBeforeHeapBase (auxHeapBase : UInt64) (numBytesPerPage heapSize : UInt32) : Insertion :=
  let bytesOfLastPage := (auxHeapBase % numBytesPerPage.toUInt64).toUInt32
  let bytesOfLastPage := if bytesOfLastPage = 0 then numBytesPerPage else bytesOfLastPage
  let bytesToPageEnd := numBytesPerPage - bytesOfLastPage
  let incPageCount := (heapSize - bytesToPageEnd + numBytesPerPage - 1) / numBytesPerPage
  let heapOffset := auxHeapBase
  let auxHeapBase := auxHeapBase + heapSize.toUInt64
  let bytesOfLastPage := (auxHeapBase % numBytesPerPage.toUInt64).toUInt32
  let bytesOfLastPage := if bytesOfLastPage = 0 then numBytesPerPage else bytesOfLastPage
  let bytesToPageEnd := numBytesPerPage - bytesOfLastPage
  let tight := bytesToPageEnd < 1 * BH_KB
  let auxHeapBase := if tight then auxHeapBase + (1 * BH_KB).toUInt64 else auxHeapBase
  { numBytesPerPage := numBytesPerPage
    heapOffset := heapOffset
    heapSize := heapSize
    incPageCount := if tight then incPageCount + 1 else incPageCount
    heapBase := some auxHeapBase.toUInt32.toUInt64 }

def insertion (module : Module) (numBytesPerPage initPageCount maxPageCount heapSize : UInt32) :
    Insertion :=
  let beforeNewPage : Insertion :=
    let incPageCount := (heapSize + numBytesPerPage - 1) / numBytesPerPage
    let heapSize := (numBytesPerPage.toUInt64 * incPageCount.toUInt64).toUInt32
    { numBytesPerPage := numBytesPerPage
      heapOffset := numBytesPerPage.toUInt64 * initPageCount.toUInt64
      heapSize := if heapSize > 0 then heapSize - 1 * BH_KB else heapSize
      incPageCount := incPageCount
      heapBase := none }
  if initPageCount = maxPageCount ∧ initPageCount = 0 then
    { numBytesPerPage := heapSize
      heapOffset := 0
      heapSize := heapSize
      incPageCount := 1
      heapBase := none }
  else
    match module.auxHeapBase with
    | some auxHeapBase =>
        if auxHeapBase < numBytesPerPage.toUInt64 * initPageCount.toUInt64 then
          insertBeforeHeapBase auxHeapBase numBytesPerPage heapSize
        else beforeNewPage
    | none => beforeNewPage

-- The largest initial memory is that of 32 bits here, whatever the memory.
def placeHeap (defaultMaxPages : UInt32) (module : Module)
    (numBytesPerPage initPageCount maxPageCount heapSize : UInt32) : Except Reason Plan :=
  let heapOffset := numBytesPerPage.toUInt64 * initPageCount.toUInt64
  let heapSize :=
    if heapSize > 0 ∧ module.mallocFunction ∧ module.freeFunction then 0 else heapSize
  if heapSize > 0 ∧ heapOffset = MAX_LINEAR_MEMORY_SIZE then .error .insertAppHeap
  else if initPageCount = maxPageCount ∧ initPageCount = 1 then
    let enlarged := numBytesPerPage + heapSize
    if enlarged < heapSize then .error .insertAppHeap
    else .ok ⟨enlarged, initPageCount, maxPageCount, numBytesPerPage.toUInt64, heapSize, none⟩
  else if heapSize > 0 then
    let inserted := insertion module numBytesPerPage initPageCount maxPageCount heapSize
    let initPageCount := initPageCount + inserted.incPageCount
    let maxPageCount := maxPageCount + inserted.incPageCount
    if initPageCount > defaultMaxPages then .error .insertAppHeap
    else
      .ok ⟨inserted.numBytesPerPage, initPageCount,
        if maxPageCount > defaultMaxPages then defaultMaxPages else maxPageCount,
        inserted.heapOffset, inserted.heapSize, inserted.heapBase⟩
  else .ok ⟨numBytesPerPage, initPageCount, maxPageCount, heapOffset, heapSize, none⟩

def memoryInstantiate (build : Build) (host : Host) (module : Module) (parent : Option Memory)
    (heapSize maxMemoryPages : UInt32) : Except Reason Memory := do
  let maxPageCount :=
    wasmRuntimeGetMaxMem maxMemoryPages module.initPageCount module.maxPageCount
  let isMemory64 := module.flags &&& MEMORY64_FLAG != 0
  let isSharedMemory := build.sharedMemory && module.flags &&& SHARED_MEMORY_FLAG != 0
  match isSharedMemory, parent with
  | true, some memory => return memory
  | _, _ =>
      let defaultMaxPages :=
        if build.memory64 && isMemory64 then DEFAULT_MEM64_MAX_PAGES else DEFAULT_MAX_PAGES
      let plan ← placeHeap defaultMaxPages module module.numBytesPerPage module.initPageCount
        maxPageCount heapSize
      match wasmAllocateLinearMemory build host isSharedMemory plan.numBytesPerPage.toUInt64
          plan.initPageCount.toUInt64 plan.maxPageCount.toUInt64 with
      | none => throw .allocateLinearMemory
      | some memoryDataSize =>
          if plan.heapSize > 0 then
            if !host.runtimeMalloc then throw .allocateMemory
            if !host.createWithStructAndPool plan.heapOffset plan.heapSize then
              throw .initAppHeap
          return {
            numBytesPerPage := plan.numBytesPerPage
            curPageCount := plan.initPageCount
            maxPageCount := plan.maxPageCount
            memoryDataSize := memoryDataSize
            heap := some (plan.heapOffset, plan.heapSize)
            heapBase := plan.heapBase }

-- `aot_instantiate` and `memories_instantiate`, as far as they are about the first memory.
def instantiate (build : Build) (host : Host) (module : Module) (parent : Option Memory)
    (heapSize maxMemoryPages : UInt32) : Except Reason Memory :=
  let heapSize := alignUint heapSize 8
  let heapSize := if heapSize > APP_HEAP_SIZE_MAX then APP_HEAP_SIZE_MAX else heapSize
  memoryInstantiate build host module parent heapSize maxMemoryPages

end Aot

section Agreement

variable {build : Build} {isMemory64 : Bool} {module : Module}

theorem insertBeforeHeapBase_agree (h : (build.memory64 && isMemory64) = false)
    (auxHeapBase : UInt64) (numBytesPerPage heapSize : UInt32) :
    Interpreter.insertBeforeHeapBase build isMemory64 auxHeapBase numBytesPerPage heapSize =
      Aot.insertBeforeHeapBase auxHeapBase numBytesPerPage heapSize := by
  simp only [Interpreter.insertBeforeHeapBase, Aot.insertBeforeHeapBase, h]
  rfl

theorem insertion_agree (h : (build.memory64 && isMemory64) = false)
    (numBytesPerPage initPageCount maxPageCount heapSize : UInt32) :
    Interpreter.insertion build isMemory64 module numBytesPerPage initPageCount maxPageCount
        heapSize =
      Aot.insertion module numBytesPerPage initPageCount maxPageCount heapSize := by
  simp only [Interpreter.insertion, Aot.insertion, insertBeforeHeapBase_agree h]

theorem placeHeap_agree (build : Build)
    (defaultMaxPage numBytesPerPage initPageCount maxPageCount heapSize : UInt32) :
    Interpreter.placeHeap build false defaultMaxPage module numBytesPerPage initPageCount
        maxPageCount heapSize =
      Aot.placeHeap defaultMaxPage module numBytesPerPage initPageCount maxPageCount heapSize := by
  have hnarrow : (build.memory64 && false) = false := Bool.and_false _
  have hlimit : getMaxLinearMemorySize false = MAX_LINEAR_MEMORY_SIZE := rfl
  simp only [Interpreter.placeHeap, Aot.placeHeap, insertion_agree hnarrow, hlimit]

-- The guards that only one of the two has (the index of the memory, its width, its parent)
-- do not matter to a default memory of 32 bits that is not shared.
theorem memoryInstantiate_agree (build : Build) (host : Host) (parent : Option Memory)
    (heapSize maxMemoryPages : UInt32) (hwidth : module.flags &&& MEMORY64_FLAG = 0)
    (hshared : module.flags &&& SHARED_MEMORY_FLAG = 0) :
    Interpreter.memoryInstantiate build host module parent 0 module.numBytesPerPage
        module.initPageCount
        (wasmRuntimeGetMaxMem maxMemoryPages module.initPageCount module.maxPageCount) heapSize
        module.flags =
      Aot.memoryInstantiate build host module parent heapSize maxMemoryPages := by
  have hnarrow : (build.memory64 && module.flags &&& MEMORY64_FLAG != 0) = false := by
    simp [hwidth]
  have hprivate : (build.sharedMemory && module.flags &&& SHARED_MEMORY_FLAG != 0) = false := by
    simp [hshared]
  simp only [Interpreter.memoryInstantiate, Aot.memoryInstantiate, hnarrow, hprivate,
    placeHeap_agree, if_true, true_and]

end Agreement

-- A module gets the same memory, or fails for the same reason, in both execution modes.
theorem instantiate_agree (build : Build) (host : Host) (module : Module)
    (parent : Option Memory) (heapSize maxMemoryPages : UInt32)
    (hwidth : module.flags &&& MEMORY64_FLAG = 0)
    (hshared : module.flags &&& SHARED_MEMORY_FLAG = 0) :
    Interpreter.instantiate build host module parent heapSize maxMemoryPages =
      Aot.instantiate build host module parent heapSize maxMemoryPages := by
  simp only [Interpreter.instantiate, Aot.instantiate]
  exact memoryInstantiate_agree build host parent _ maxMemoryPages hwidth hshared

-- A module of two pages whose `__heap_base` stands in the second, and a platform with 16 MiB.
def sampleModule : Module := ⟨1, 65536, 2, 10, false, false, some 70000⟩

def sampleHost : Host := ⟨fun mapSize _ => mapSize ≤ 16777216, true, fun _ size => size ≥ 256⟩

theorem instantiate_agree_sample :
    Interpreter.instantiate ⟨false, false⟩ sampleHost sampleModule none 100000 0 =
        Aot.instantiate ⟨false, false⟩ sampleHost sampleModule none 100000 0 ∧
      Aot.instantiate ⟨false, false⟩ sampleHost sampleModule none 100000 0 =
        .ok ⟨65536, 3, 11, 196608, some (70000, 100000), some 170000⟩ :=
  ⟨instantiate_agree _ _ sampleModule none 100000 0 (by decide) (by decide), rfl⟩

section Memory64

-- A 64-bit memory of 4 GiB is the largest one to the AOT runtime only.
theorem Aot.placeHeap_full {module : Module}
    (defaultMaxPages numBytesPerPage initPageCount maxPageCount heapSize : UInt32)
    (hheap : heapSize > 0) (hexports : ¬(module.mallocFunction ∧ module.freeFunction))
    (hfull : numBytesPerPage.toUInt64 * initPageCount.toUInt64 = MAX_LINEAR_MEMORY_SIZE) :
    Aot.placeHeap defaultMaxPages module numBytesPerPage initPageCount maxPageCount heapSize =
      .error .insertAppHeap := by
  have hkept : ¬(heapSize > 0 ∧ module.mallocFunction ∧ module.freeFunction) := by
    rintro ⟨_, hboth⟩
    exact hexports hboth
  simp only [Aot.placeHeap, if_neg hkept]
  rw [if_pos ⟨hheap, hfull⟩]

example : (Interpreter.placeHeap ⟨false, true⟩ true DEFAULT_MEM64_MAX_PAGES
    ⟨4, 65536, 65536, 70000, false, false, none⟩ 65536 65536 70000 4096).isOk = true := rfl

end Memory64

end Watz.Instantiate
