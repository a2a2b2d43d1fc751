import Watz.LinearMemory

namespace Watz.LinearMemory

section Mappings

variable {outcomes : Outcomes} {platform later : Platform}

theorem pageAligned_pages (pages : Nat) :
    pageAligned (DEFAULT_NUM_BYTES_PER_PAGE * pages) = DEFAULT_NUM_BYTES_PER_PAGE * pages := by
  simp only [pageAligned, PAGE_SIZE, DEFAULT_NUM_BYTES_PER_PAGE]
  omega

theorem Kept.refl (platform : Platform) : Kept platform platform := fun _ _ h => h

theorem teeUnmap_of_ne {addr length base : Nat} (h : base ≠ addr) :
    (teeUnmap outcomes addr length platform).mappings base = platform.mappings base := by
  unfold teeUnmap
  split
  · rfl
  · split
    · exact Function.update_of_ne h _ _
    · rfl

-- The platform that granted a new mapping.
def Platform.mapAt (platform : Platform) (base : Nat) (mapping : Mapping) : Platform :=
  { platform with mappings := Function.update platform.mappings base (some mapping) }

@[simp] theorem mapAt_self (platform : Platform) (base : Nat) (mapping : Mapping) :
    (platform.mapAt base mapping).mappings base = some mapping :=
  Function.update_self _ _ _

theorem mapAt_of_ne {base other : Nat} (h : other ≠ base) (mapping : Mapping) :
    (platform.mapAt base mapping).mappings other = platform.mappings other :=
  Function.update_of_ne h _ _

theorem teeMapZi_eq (outcomes : Outcomes) (platform : Platform) (length : Nat) :
    teeMapZi outcomes length platform = (none, platform) ∨
      ∃ base, base ≠ 0 ∧ platform.mappings base = none ∧
        teeMapZi outcomes length platform =
          (some base, platform.mapAt base ⟨length, outcomes.fresh⟩) := by
  unfold teeMapZi
  cases outcomes.mapZi with
  | none => exact .inl rfl
  | some base =>
      by_cases h : base ≠ 0 ∧ (platform.mappings base).isNone
      · simp only [if_pos h]
        exact .inr ⟨base, h.1, Option.isNone_iff_eq_none.mp h.2, rfl⟩
      · simp only [if_neg h]
        exact .inl trivial

theorem osMmap_eq (outcomes : Outcomes) (platform : Platform) (size : Nat) :
    osMmap outcomes size MMAP_PROT_NONE platform = (none, platform) ∨
      ∃ base, base ≠ 0 ∧ platform.mappings base = none ∧
        osMmap outcomes size MMAP_PROT_NONE platform =
          (some base, platform.mapAt base ⟨pageAligned size, outcomes.fresh⟩) := by
  unfold osMmap
  by_cases hlarge : pageAligned size ≥ UINT32_MAX
  · simp only [if_pos hlarge]
    exact .inl trivial
  · simp only [if_neg hlarge]
    rcases teeMapZi_eq outcomes platform (pageAligned size) with h | ⟨base, hbase, hfree, h⟩
    · rw [h]
      exact .inl rfl
    · rw [h]
      exact .inr ⟨base, hbase, hfree, by simp [MMAP_PROT_NONE]⟩

theorem teeRemap_eq (outcomes : Outcomes) (platform : Platform) (newSize oldAddr : Nat) :
    teeRemap outcomes newSize oldAddr platform = (none, platform) ∨
      ∃ old base, platform.mappings oldAddr = some old ∧ base ≠ 0 ∧
        (base = oldAddr ∨ platform.mappings base = none) ∧
        teeRemap outcomes newSize oldAddr platform =
          (some base,
            ({ platform with mappings := Function.update platform.mappings oldAddr none } :
              Platform).mapAt base
              ⟨newSize, fun i => if i < old.length then old.bytes i else outcomes.fresh i⟩) := by
  unfold teeRemap
  cases hold : platform.mappings oldAddr with
  | none => exact .inl rfl
  | some old =>
      cases outcomes.remap with
      | none => exact .inl rfl
      | some base =>
          by_cases h : base ≠ 0 ∧ (base = oldAddr ∨ (platform.mappings base).isNone)
          · simp only [if_pos h]
            refine .inr ⟨old, base, rfl, h.1, ?_, rfl⟩
            exact h.2.imp_right Option.isNone_iff_eq_none.mp
          · simp only [if_neg h]
            exact .inl trivial

-- A memory that was not there yet.
theorem wasmMremapLinearMemory_zero (outcomes : Outcomes) (platform : Platform)
    (oldSize newSize commitSize : Nat) :
    (∃ later, Kept platform later ∧
        wasmMremapLinearMemory outcomes 0 oldSize newSize commitSize platform = (none, later)) ∨
      ∃ base, base ≠ 0 ∧ platform.mappings base = none ∧
        wasmMremapLinearMemory outcomes 0 oldSize newSize commitSize platform =
          (some base, platform.mapAt base ⟨pageAligned newSize, outcomes.fresh⟩) := by
  unfold wasmMremapLinearMemory
  rw [if_neg (by simp)]
  rcases osMmap_eq outcomes platform newSize with h | ⟨base, hbase, hfree, h⟩
  · rw [h]
    exact .inl ⟨platform, Kept.refl platform, rfl⟩
  · rw [h]
    by_cases hprotect : osMprotect outcomes = false
    · simp only [if_pos hprotect]
      refine .inl ⟨_, ?_, rfl⟩
      intro other mapping hother
      have hne : other ≠ base := by
        rintro rfl
        rw [hfree] at hother
        cases hother
      rw [wasmMunmapLinearMemory, osMunmap, teeUnmap_of_ne hne, mapAt_of_ne hne]
      exact hother
    · simp only [if_neg hprotect]
      exact .inr ⟨base, hbase, hfree, rfl⟩

-- A memory that is moved or stays in its place. When the platform refuses, nothing happened.
theorem wasmMremapLinearMemory_pos (outcomes : Outcomes) (platform : Platform)
    {mappedMem : Nat} (hmapped : mappedMem ≠ 0) (oldSize newSize commitSize : Nat)
    (hsafe : (teeRemap outcomes newSize mappedMem platform).1.isSome →
      outcomes.mprotect = true) :
    wasmMremapLinearMemory outcomes mappedMem oldSize newSize commitSize platform =
        (none, platform) ∨
      ∃ old base, platform.mappings mappedMem = some old ∧ base ≠ 0 ∧
        (base = mappedMem ∨ platform.mappings base = none) ∧
        wasmMremapLinearMemory outcomes mappedMem oldSize newSize commitSize platform =
          (some base,
            ({ platform with mappings := Function.update platform.mappings mappedMem none } :
              Platform).mapAt base
              ⟨newSize, fun i => if i < old.length then old.bytes i else outcomes.fresh i⟩) := by
  unfold wasmMremapLinearMemory osMremap
  rw [if_pos hmapped]
  rcases teeRemap_eq outcomes platform newSize mappedMem with h | ⟨old, base, hold, hbase, hfree, h⟩
  · rw [h]
    exact .inl rfl
  · have hprotect : outcomes.mprotect = true := hsafe (by rw [h]; rfl)
    rw [h]
    simp only [osMprotect, hprotect, Bool.true_eq_false, if_false]
    exact .inr ⟨old, base, hold, hbase, hfree, rfl⟩

end Mappings

section Growth

variable {outcomes : Outcomes} {memory : MemoryInstance} {incPageCount : UInt32}
  {platform later : Platform} {base newSize : Nat}

-- The ledger once the memory stands at its new address.
structure Moved (memory : MemoryInstance) (base newSize : Nat) (platform later : Platform) :
    Prop where
  base_ne : base ≠ 0
  mapped : ∃ new, later.mappings base = some new ∧ new.length = newSize
  contents : ∀ old new, platform.mappings memory.memoryData = some old →
    later.mappings base = some new → ∀ i < memory.memoryDataSize,
      base = memory.memoryData ∨ i < memory.heapOffset ∨
        memory.heapOffset + memory.heapSize ≤ i → new.bytes i = old.bytes i
  replaced : base ≠ memory.memoryData → memory.memoryData ≠ 0 →
    later.mappings memory.memoryData = none
  others : ∀ other, other ≠ memory.memoryData → other ≠ base →
    later.mappings other = platform.mappings other

theorem moved_zero (hdata : memory.memoryData = 0) (hsize : memory.memoryDataSize = 0)
    (hbase : base ≠ 0) (mapping : Mapping) :
    Moved memory base mapping.length platform (platform.mapAt base mapping) where
  base_ne := hbase
  mapped := ⟨mapping, mapAt_self _ _ _, rfl⟩
  contents := by
    intro old new _ _ i hi
    omega
  replaced := fun _ hne => absurd hdata hne
  others := fun other _ hne => mapAt_of_ne hne mapping

theorem moved_pos {old : Mapping} (hold : platform.mappings memory.memoryData = some old)
    (hlength : old.length = memory.memoryDataSize) (hbase : base ≠ 0) (bytes : Nat → UInt8)
    (hbytes : ∀ i < old.length, bytes i = old.bytes i) :
    Moved memory base newSize platform
      (({ platform with mappings := Function.update platform.mappings memory.memoryData none } :
        Platform).mapAt base ⟨newSize, bytes⟩) where
  base_ne := hbase
  mapped := ⟨⟨newSize, bytes⟩, mapAt_self _ _ _, rfl⟩
  contents := by
    intro old' new hold' hnew i hi _
    have hsame : old' = old := Option.some.inj (hold'.symm.trans hold)
    rw [mapAt_self, Option.some.injEq] at hnew
    rw [hsame, ← hnew]
    exact hbytes i (by omega)
  replaced := by
    intro hne _
    rw [mapAt_of_ne hne.symm]
    exact Function.update_self _ _ _
  others := by
    intro other hne hne'
    rw [mapAt_of_ne hne']
    exact Function.update_of_ne hne _ _

-- Moving the heap along touches nothing but its pool.
theorem Moved.migrate (h : Moved memory base newSize platform later) :
    Moved memory base newSize platform
      (memAllocatorMigrate outcomes memory.memoryData base memory.heapOffset memory.heapSize
        later) := by
  obtain ⟨new, hnew, hlength⟩ := h.mapped
  by_cases hstays : base = memory.memoryData
  · simp only [memAllocatorMigrate, hnew, if_pos hstays]
    exact h
  · let rewritten : Mapping := { new with
      bytes := fun i =>
        if memory.heapOffset ≤ i ∧ i < memory.heapOffset + memory.heapSize then outcomes.pool i
        else new.bytes i }
    have hmigrated : memAllocatorMigrate outcomes memory.memoryData base memory.heapOffset
        memory.heapSize later = later.mapAt base rewritten := by
      simp only [memAllocatorMigrate, hnew, if_neg hstays]
      rfl
    rw [hmigrated]
    exact
      { base_ne := h.base_ne
        mapped := ⟨rewritten, mapAt_self _ _ _, hlength⟩
        contents := by
          intro old new' hold hnew' i hi houtside
          have hkept := h.contents old new hold hnew i hi houtside
          have hpool : ¬(memory.heapOffset ≤ i ∧ i < memory.heapOffset + memory.heapSize) := by
            rcases houtside with hsame | hbelow | habove
            · exact absurd hsame hstays
            · omega
            · omega
          rw [mapAt_self, Option.some.injEq] at hnew'
          rw [← hnew']
          simp only [rewritten, if_neg hpool, hkept]
        replaced := by
          intro hne hdata
          rw [mapAt_of_ne hne.symm]
          exact h.replaced hne hdata
        others := by
          intro other hne hne'
          rw [mapAt_of_ne hne']
          exact h.others other hne hne' }

theorem totalPageCount_eq (h : Sound memory platform)
    (hpages : memory.curPageCount ≤ memory.totalPageCount incPageCount) :
    memory.totalPageCount incPageCount = memory.curPageCount + incPageCount.toNat := by
  have hlimit := Nat.le_trans h.pages h.limit
  have hinc : incPageCount.toNat < 4294967296 := incPageCount.toNat_lt
  simp only [MemoryInstance.totalPageCount, UINT32_MAX] at hpages hlimit ⊢
  omega

theorem heapSize_eq (h : Sound memory platform) :
    memory.heapSize = memory.heapDataEnd - memory.heapData := by
  have hsize := h.heapSize
  simp only [MemoryInstance.heapSize, UINT32_MAX] at hsize ⊢
  omega

theorem grown_of_moved (h : Sound memory platform)
    (hpages : memory.curPageCount ≤ memory.totalPageCount incPageCount)
    (hmax : memory.totalPageCount incPageCount ≤ memory.maxPageCount)
    (hmoved : Moved memory base (memory.totalSizeNew incPageCount) platform later) :
    Grown memory incPageCount platform (memory.enlarged incPageCount base) later := by
  have hheap := heapSize_eq h
  have hlimit := h.heapSize
  exact
    { sound :=
        { bytesPerPage := h.bytesPerPage
          size := rfl
          dataEnd := rfl
          pages := hmax
          limit := h.limit
          heapData := Nat.le_add_right _ _
          heapDataEnd := Nat.le_add_right _ _
          heapSize := by
            simp only [MemoryInstance.enlarged]
            omega
          mapped := .inr ⟨hmoved.base_ne, hmoved.mapped⟩ }
      pageCount := totalPageCount_eq h hpages
      maxPageCount := rfl
      heapOffset := by
        simp only [MemoryInstance.enlarged, MemoryInstance.heapOffset]
        omega
      heapSize := by
        simp only [MemoryInstance.enlarged, MemoryInstance.heapOffset]
        rw [hheap]
        simp only [MemoryInstance.heapSize, UINT32_MAX] at hlimit ⊢
        omega
      contents := hmoved.contents
      replaced := hmoved.replaced
      others := hmoved.others }

theorem grown_refl (h : Sound memory platform) : Grown memory 0 platform memory platform where
  sound := h
  pageCount := rfl
  maxPageCount := rfl
  heapOffset := rfl
  heapSize := rfl
  contents := by
    intro old new hold hnew i _ _
    rw [hold, Option.some.injEq] at hnew
    rw [hnew]
  replaced := fun hne _ => absurd rfl hne
  others := fun _ _ _ => rfl

-- What one call of `wasm_enlarge_memory_internal` may have done.
def EnlargeSpec (outcomes : Outcomes) (memory : MemoryInstance) (incPageCount : UInt32)
    (platform : Platform) (ok : Bool) (memory' : MemoryInstance) (later : Platform) : Prop :=
  (ok = true ∧ Grown memory incPageCount platform memory' later) ∨
    (ok = false ∧ memory' = memory ∧ Kept platform later) ∨
    (ok = false ∧ memory.heapSize > 0 ∧ outcomes.migrate = false ∧
      Grown memory incPageCount platform memory' later)

-- The call of `wasm_mremap_linear_memory` in it.
theorem remap_or_moved (h : Sound memory platform)
    (hsafe : memory.memoryData ≠ 0 →
      (teeRemap outcomes (memory.totalSizeNew incPageCount) memory.memoryData platform).1.isSome →
      outcomes.mprotect = true) :
    (∃ later, Kept platform later ∧
        wasmMremapLinearMemory outcomes memory.memoryData memory.memoryDataSize
          (memory.totalSizeNew incPageCount) (memory.totalSizeNew incPageCount) platform =
          (none, later)) ∨
      ∃ base later, Moved memory base (memory.totalSizeNew incPageCount) platform later ∧
        wasmMremapLinearMemory outcomes memory.memoryData memory.memoryDataSize
          (memory.totalSizeNew incPageCount) (memory.totalSizeNew incPageCount) platform =
          (some base, later) := by
  rcases h.mapped with ⟨hdata, hsize⟩ | ⟨hdata, old, hold, hlength⟩
  · rw [hdata]
    rcases wasmMremapLinearMemory_zero outcomes platform memory.memoryDataSize
        (memory.totalSizeNew incPageCount) (memory.totalSizeNew incPageCount) with
      hnone | ⟨base, hbase, _, hsome⟩
    · exact .inl hnone
    · refine .inr ⟨base, _, ?_, hsome⟩
      have haligned : pageAligned (memory.totalSizeNew incPageCount) =
          memory.totalSizeNew incPageCount := by
        rw [MemoryInstance.totalSizeNew, h.bytesPerPage]
        exact pageAligned_pages _
      rw [haligned]
      exact moved_zero hdata hsize hbase ⟨memory.totalSizeNew incPageCount, outcomes.fresh⟩
  · rcases wasmMremapLinearMemory_pos outcomes platform hdata memory.memoryDataSize
        (memory.totalSizeNew incPageCount) (memory.totalSizeNew incPageCount) (hsafe hdata) with
      hnone | ⟨old', base, hold', hbase, _, hsome⟩
    · exact .inl ⟨platform, Kept.refl platform, hnone⟩
    · have hsame : old' = old := Option.some.inj (hold'.symm.trans hold)
      subst hsame
      refine .inr ⟨base, _, moved_pos hold hlength hbase _ ?_, hsome⟩
      intro i hi
      exact if_pos hi

theorem wasmEnlargeMemoryInternal_spec (h : Sound memory platform)
    (hsafe : ¬Loses outcomes memory incPageCount platform) :
    EnlargeSpec outcomes memory incPageCount platform
      (wasmEnlargeMemoryInternal outcomes memory incPageCount platform).1
      (wasmEnlargeMemoryInternal outcomes memory incPageCount platform).2.1
      (wasmEnlargeMemoryInternal outcomes memory incPageCount platform).2.2 := by
  have hunchanged : EnlargeSpec outcomes memory incPageCount platform false memory platform :=
    .inr (.inl ⟨rfl, rfl, Kept.refl platform⟩)
  unfold wasmEnlargeMemoryInternal
  by_cases hinc : incPageCount = 0
  · rw [if_pos hinc, hinc]
    exact .inl ⟨rfl, grown_refl h⟩
  rw [if_neg hinc]
  by_cases hoverflow : memory.totalPageCount incPageCount < memory.curPageCount
  · rw [if_pos hoverflow]
    exact hunchanged
  rw [if_neg hoverflow]
  by_cases hmax : memory.totalPageCount incPageCount > memory.maxPageCount
  · rw [if_pos hmax]
    exact hunchanged
  rw [if_neg hmax]
  by_cases hcorrupted : memory.heapSize > 0 ∧ outcomes.heapCorrupted
  · rw [if_pos hcorrupted]
    exact hunchanged
  rw [if_neg hcorrupted]
  have hpages : memory.curPageCount ≤ memory.totalPageCount incPageCount := by omega
  have hbound : memory.totalPageCount incPageCount ≤ memory.maxPageCount := by omega
  have hprotected : memory.memoryData ≠ 0 →
      (teeRemap outcomes (memory.totalSizeNew incPageCount) memory.memoryData platform).1.isSome →
      outcomes.mprotect = true := by
    intro hdata hremap
    by_contra hfail
    have hdenied : outcomes.mprotect = false := by simpa using hfail
    exact hsafe ⟨hdata, hinc, hpages, hbound, hcorrupted, hremap, hdenied⟩
  rcases remap_or_moved h hprotected with ⟨later, hkept, heq⟩ | ⟨base, later, hmoved, heq⟩
  · rw [heq]
    exact .inr (.inl ⟨rfl, rfl, hkept⟩)
  · rw [heq]
    by_cases hheap : memory.heapSize > 0
    · simp only [if_pos hheap]
      have hgrown : Grown memory incPageCount platform (memory.enlarged incPageCount base)
          (memAllocatorMigrate outcomes memory.memoryData base memory.heapOffset memory.heapSize
            later) :=
        grown_of_moved h hpages hbound hmoved.migrate
      cases hmigrate : outcomes.migrate with
      | true => exact .inl ⟨rfl, hgrown⟩
      | false => exact .inr (.inr ⟨rfl, hheap, hmigrate, hgrown⟩)
    · simp only [if_neg hheap]
      exact .inl ⟨rfl, grown_of_moved h hpages hbound hmoved⟩

end Growth

end Watz.LinearMemory
