import Watz.LinearMemory.Growth

namespace Watz.LinearMemory

section Lifecycle

open Base

variable {outcomes : Outcomes} {memory : MemoryInstance} {platform : Platform}

-- One call of `tee_unmap`, with the base and the length of the live mapping. Nothing else
-- goes, and this mapping stays only when the platform refuses.
def Released (outcomes : Outcomes) (memory : MemoryInstance) (platform later : Platform) : Prop :=
  ∃ mapping, platform.mappings memory.memoryData = some mapping ∧
    later.unmapCalls = platform.unmapCalls ++ [(memory.memoryData, mapping.length)] ∧
    later.mappings =
      if outcomes.unmap then Function.update platform.mappings memory.memoryData none
      else platform.mappings

theorem wasmDeallocateLinearMemory_spec (h : Sound memory platform)
    (hdata : memory.memoryData ≠ 0) :
    Released outcomes memory platform
      (wasmDeallocateLinearMemory outcomes memory platform) := by
  rcases h.mapped with ⟨hzero, _⟩ | ⟨_, mapping, hmapping, hlength⟩
  · exact absurd hzero hdata
  · have haligned : pageAligned (memory.numBytesPerPage * memory.curPageCount) =
        mapping.length := by
      rw [hlength, h.size, h.bytesPerPage]
      exact pageAligned_pages _
    refine ⟨mapping, hmapping, ?_, ?_⟩
    · simp only [wasmDeallocateLinearMemory, wasmMunmapLinearMemory, osMunmap, haligned, teeUnmap,
        hmapping]
      split <;> rfl
    · simp only [wasmDeallocateLinearMemory, wasmMunmapLinearMemory, osMunmap, haligned, teeUnmap,
        hmapping, and_true]
      split <;> rfl

theorem wasmAllocateLinearMemory_spec (outcomes : Outcomes) (request : Request)
    (platform : Platform) :
    (∃ later, Kept platform later ∧
        wasmAllocateLinearMemory outcomes DEFAULT_NUM_BYTES_PER_PAGE request.initPageCount
          platform = (none, later)) ∨
      ∃ data memoryDataSize later, Kept platform later ∧
        wasmAllocateLinearMemory outcomes DEFAULT_NUM_BYTES_PER_PAGE request.initPageCount
          platform = (some (data, memoryDataSize), later) ∧
        Sound (request.memoryInstance data memoryDataSize) later := by
  have haligned : pageAligned (request.initPageCount * DEFAULT_NUM_BYTES_PER_PAGE) =
      DEFAULT_NUM_BYTES_PER_PAGE * request.initPageCount := by
    rw [Nat.mul_comm]
    exact pageAligned_pages _
  have hsound : ∀ data later, (data = 0 ∧ request.initPageCount = 0) ∨
      data ≠ 0 ∧ (∃ mapping, later.mappings data = some mapping ∧
        mapping.length = DEFAULT_NUM_BYTES_PER_PAGE * request.initPageCount) →
      Sound (request.memoryInstance data (DEFAULT_NUM_BYTES_PER_PAGE * request.initPageCount))
        later := by
    intro data later hmapped
    exact
      { bytesPerPage := rfl
        size := rfl
        dataEnd := rfl
        pages := request.init_le_max
        limit := request.max_le
        heapData := Nat.le_add_right _ _
        heapDataEnd := Nat.le_add_right _ _
        heapSize := by
          simp only [Request.memoryInstance]
          have hsize := request.heapSize_le
          omega
        mapped := hmapped.imp_left fun hzero => ⟨hzero.1, by
          simp [Request.memoryInstance, hzero.2]⟩ }
  simp only [wasmAllocateLinearMemory, haligned]
  by_cases hpages : request.initPageCount * DEFAULT_NUM_BYTES_PER_PAGE > 0
  · rw [if_pos hpages, wasmMmapLinearMemory]
    rcases wasmMremapLinearMemory_zero outcomes platform 0
        (request.initPageCount * DEFAULT_NUM_BYTES_PER_PAGE)
        (DEFAULT_NUM_BYTES_PER_PAGE * request.initPageCount) with
      ⟨later, hkept, heq⟩ | ⟨base, hbase, hfree, heq⟩
    · rw [heq]
      exact .inl ⟨later, hkept, rfl⟩
    · rw [heq, haligned]
      refine .inr ⟨base, _, _, ?_, rfl, hsound base _ (.inr ⟨hbase, _, mapAt_self _ _ _, rfl⟩)⟩
      intro other mapping hother
      have hne : other ≠ base := by
        rintro rfl
        rw [hfree] at hother
        cases hother
      rw [mapAt_of_ne hne]
      exact hother
  · rw [if_neg hpages]
    have hzero : request.initPageCount = 0 := by
      simp only [DEFAULT_NUM_BYTES_PER_PAGE] at hpages
      omega
    exact .inr ⟨0, _, platform, Kept.refl platform, rfl, hsound 0 platform (.inl ⟨rfl, hzero⟩)⟩

def State.Sound (s : State) : Prop :=
  ∀ memory, s.memory = some memory → LinearMemory.Sound memory s.platform

-- The steps that take the old mapping away and fail.
def Lost (t : Run.Step State Op Reply) : Prop :=
  match t.input, t.before.memory with
  | .enlarge incPageCount outcomes, some memory =>
      Loses outcomes memory incPageCount t.before.platform
  | _, _ => False

def StepSpec (t : Run.Step State Op Reply) : Prop :=
  match t.input, t.before.memory with
  | .allocate request _, none =>
      Kept t.before.platform t.after.platform ∧
        ((t.output = .allocated false ∧ t.after.memory = none) ∨
          ∃ memory, t.output = .allocated true ∧ t.after.memory = some memory ∧
            memory.curPageCount = request.initPageCount ∧
            memory.maxPageCount = request.maxPageCount)
  | .enlarge incPageCount outcomes, some memory =>
      ∃ ok memory', t.output = .enlarged ok ∧ t.after.memory = some memory' ∧
        EnlargeSpec outcomes memory incPageCount t.before.platform ok memory' t.after.platform
  | .deallocate outcomes, some memory =>
      t.after.memory = none ∧
        if memory.memoryData = 0 then t.after.platform = t.before.platform
        else Released outcomes memory t.before.platform t.after.platform
  | _, _ => t.after.memory = t.before.memory

theorem sound_guestStores (h : LinearMemory.Sound memory platform) (bytes : Nat → UInt8) :
    LinearMemory.Sound memory (guestStores memory bytes platform) := by
  refine { h with mapped := ?_ }
  refine h.mapped.imp_right ?_
  rintro ⟨hdata, mapping, hmapping, hlength⟩
  simp only [guestStores, hmapping]
  exact ⟨hdata, _, Function.update_self _ _ _, hlength⟩

theorem EnlargeSpec.sound {incPageCount : UInt32} {ok : Bool} {memory' : MemoryInstance}
    {later : Platform} (h : LinearMemory.Sound memory platform)
    (hspec : EnlargeSpec outcomes memory incPageCount platform ok memory' later) :
    LinearMemory.Sound memory' later := by
  rcases hspec with ⟨_, hgrown⟩ | ⟨_, hsame, hkept⟩ | ⟨_, _, _, hgrown⟩
  · exact hgrown.sound
  · subst hsame
    refine { h with mapped := ?_ }
    refine h.mapped.imp_right ?_
    rintro ⟨hdata, mapping, hmapping, hlength⟩
    exact ⟨hdata, mapping, hkept _ _ hmapping, hlength⟩
  · exact hgrown.sound

theorem step_spec {s : State} {op : Op} (hsound : s.Sound) (hsafe : ¬Lost (Run.one next s op)) :
    StepSpec (Run.one next s op) ∧ (next s op).1.Sound := by
  obtain ⟨_ | memory, platform⟩ := s
  · cases op with
    | allocate request outcomes =>
        rcases wasmAllocateLinearMemory_spec outcomes request platform with
          ⟨later, hkept, heq⟩ | ⟨data, memoryDataSize, later, hkept, heq, hnew⟩
        · have hstep : next ⟨none, platform⟩ (.allocate request outcomes) =
              (⟨none, later⟩, .allocated false) := by simp only [next, heq]
          simp only [StepSpec, Run.one, hstep]
          exact ⟨⟨hkept, .inl ⟨trivial, trivial⟩⟩, fun _ hsome => by cases hsome⟩
        · have hstep : next ⟨none, platform⟩ (.allocate request outcomes) =
              (⟨some (request.memoryInstance data memoryDataSize), later⟩, .allocated true) := by
            simp only [next, heq]
          simp only [StepSpec, Run.one, hstep]
          refine ⟨⟨hkept, .inr ⟨_, trivial, rfl, rfl, rfl⟩⟩, ?_⟩
          rintro memory hmemory
          cases hmemory
          exact hnew
    | enlarge incPageCount outcomes => exact ⟨rfl, hsound⟩
    | deallocate outcomes => exact ⟨rfl, hsound⟩
    | guest bytes => exact ⟨rfl, hsound⟩
  · have hmemory : LinearMemory.Sound memory platform := hsound memory rfl
    cases op with
    | allocate request outcomes => exact ⟨rfl, hsound⟩
    | enlarge incPageCount outcomes =>
        have hspec := wasmEnlargeMemoryInternal_spec hmemory hsafe
        refine ⟨⟨_, _, rfl, rfl, hspec⟩, ?_⟩
        rintro memory' hmemory'
        cases hmemory'
        exact hspec.sound hmemory
    | deallocate outcomes =>
        by_cases hdata : memory.memoryData = 0
        · have hstep : next ⟨some memory, platform⟩ (.deallocate outcomes) =
              (⟨none, platform⟩, .done) := by simp only [next, if_pos hdata]
          simp only [StepSpec, Run.one, hstep, if_pos hdata]
          exact ⟨⟨trivial, trivial⟩, fun _ hsome => by cases hsome⟩
        · have hstep : next ⟨some memory, platform⟩ (.deallocate outcomes) =
              (⟨none, wasmDeallocateLinearMemory outcomes memory platform⟩, .done) := by
            simp only [next, if_neg hdata]
          simp only [StepSpec, Run.one, hstep, if_neg hdata]
          exact ⟨⟨trivial, wasmDeallocateLinearMemory_spec hmemory hdata⟩,
            fun _ hsome => by cases hsome⟩
    | guest bytes =>
        refine ⟨rfl, ?_⟩
        rintro memory' hmemory'
        cases hmemory'
        exact sound_guestStores hmemory bytes

-- Every run that loses no mapping: an enlargement that fails leaves everything as it was,
-- except that a heap which could not be moved is reported once the memory has grown; one
-- that succeeds keeps the contents and the fields in step; and a release takes exactly the
-- live mapping.
theorem lifecycle (platform : Platform) (ops : List Op)
    (hsafe : ∀ t ∈ Run.steps next ⟨none, platform⟩ ops, ¬Lost t) :
    ∀ t ∈ Run.steps next ⟨none, platform⟩ ops, t.before.Sound ∧ t.after.Sound ∧ StepSpec t := by
  have hstart : (⟨none, platform⟩ : State).Sound := fun _ hsome => by cases hsome
  have hone : ∀ t ∈ Run.steps next ⟨none, platform⟩ ops,
      t.before.Sound → StepSpec t ∧ t.after.Sound := by
    intro t ht hbefore
    have heq := Run.step_eq ht
    have hkept := hsafe t ht
    rw [heq] at hkept ⊢
    exact step_spec hbefore hkept
  intro t ht
  obtain ⟨hbefore, hafter⟩ :=
    Run.invariant hstart (fun u hu hsound => (hone u hu hsound).2) t ht
  exact ⟨hbefore, hafter, (hone t ht hbefore).1⟩

-- A memory of one page with a heap, mapped at the second page of an empty platform, is to be
-- moved to the third.
def emptyPlatform : Platform := ⟨fun _ => none, []⟩

def onePage : Request := ⟨1, 10, 0, 4096, by decide, by decide, by decide⟩

def granting : Outcomes := ⟨some 4096, some 8192, fun _ => 0, true, true, false, true, fun _ => 0⟩

def sampleOps : List Op := [.allocate onePage granting, .enlarge 1 granting, .deallocate granting]

theorem lifecycle_sample :
    (∀ t ∈ Run.steps next ⟨none, emptyPlatform⟩ sampleOps, ¬Lost t) ∧
      ∀ t ∈ Run.steps next ⟨none, emptyPlatform⟩ sampleOps,
        t.before.Sound ∧ t.after.Sound ∧ StepSpec t := by
  have hsafe : ∀ t ∈ Run.steps next ⟨none, emptyPlatform⟩ sampleOps, ¬Lost t := by
    intro t ht hlost
    rcases List.mem_cons.mp ht with rfl | ht
    · exact hlost
    rcases List.mem_cons.mp ht with rfl | ht
    · exact absurd hlost.2.2.2.2.2.2 (by decide)
    rcases List.mem_cons.mp ht with rfl | ht
    · exact hlost
    · cases ht
  exact ⟨hsafe, lifecycle emptyPlatform sampleOps hsafe⟩

-- An enlargement that returns false has changed the fields when the heap could not be moved,
-- and has no memory left when the new mapping could not be protected. One that returns true has
-- changed bytes of a heap that it moved.
theorem enlarge_changes :
    let s := (next ⟨none, emptyPlatform⟩ (.allocate onePage granting)).1
    let heapStuck := next s (.enlarge 1 { granting with migrate := false })
    let unprotected := next s (.enlarge 1 { granting with mprotect := false })
    let relinked := next s (.enlarge 1 { granting with pool := fun _ => 1 })
    (heapStuck.2 = .enlarged false ∧ heapStuck.1.memory ≠ s.memory ∧
        (heapStuck.1.platform.mappings 4096).isNone) ∧
      (unprotected.2 = .enlarged false ∧
        unprotected.1.memory.map MemoryInstance.memoryData = some 4096 ∧
        (s.platform.mappings 4096).isSome ∧ (unprotected.1.platform.mappings 4096).isNone) ∧
      relinked.2 = .enlarged true ∧
        relinked.1.memory.map MemoryInstance.memoryData = some 8192 ∧
        (s.platform.mappings 4096).map (fun mapping => mapping.bytes 0) = some 0 ∧
        (relinked.1.platform.mappings 8192).map (fun mapping => mapping.bytes 0) = some 1 := by
  decide

end Lifecycle

end Watz.LinearMemory
