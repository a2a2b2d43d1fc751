import Mathlib.Algebra.Order.BigOperators.Group.List
import Watz.Ems.Migrate

namespace Watz.Ems

open Base.Layout Base.Words Base.Arena
open Base.Run (Step steps final)

section Service

variable {rootOffset structBuf structBufSize poolBuf poolBufSize : Nat} {mem : Mem} {h : Heap}
  (hbuffers : Buffers rootOffset structBuf poolBuf poolBufSize)
  (hinit : gcInitWithStructAndPool rootOffset structBuf structBufSize poolBuf poolBufSize mem =
    some h)

include hbuffers hinit in
theorem init_inv : Client.Inv ⟨h, []⟩ :=
  ⟨_, _, gcInitWithStructAndPool_wellFormed hbuffers hinit, by
    refine ⟨List.nodup_nil, by simp, fun b hb hused => ?_⟩
    rw [List.mem_singleton.mp hb] at hused
    cases hused⟩

-- The client is served from the pool of `h`.
def Client.Serves (h : Heap) (c : Client) : Prop := c.Inv ∧ SamePool h c.heap

theorem Client.Serves.next {c : Client} (hc : c.Serves h) (request : Request) :
    (c.next request).1.Serves h :=
  have hanswered := request_answered hc.1 request
  ⟨hanswered.inv, hc.2.trans hanswered.same⟩

include hbuffers hinit in
theorem init_serves : Client.Serves h ⟨h, []⟩ := ⟨init_inv hbuffers hinit, .refl h⟩

include hbuffers hinit in
theorem run_inv (requests : List Request) :
    (final Client.next ⟨h, []⟩ requests).Serves h := by
  refine Base.Run.invariant_final (init_serves hbuffers hinit) fun t ht hc => ?_
  rw [Base.Run.after_eq ht]
  exact hc.next t.input

include hbuffers hinit in
theorem step_inv (requests : List Request) :
    ∀ t ∈ steps Client.next ⟨h, []⟩ requests, t.before.Serves h ∧ t.after.Serves h := by
  refine Base.Run.invariant (init_serves hbuffers hinit) fun t ht hc => ?_
  rw [Base.Run.after_eq ht]
  exact hc.next t.input

include hinit in
theorem init_pool :
    h.baseAddr = poolBuf + 4 ∧ h.currentSize + 4 ≤ poolBufSize ∧ poolBuf % 8 = 0 := by
  rw [gcInitWithStructAndPool] at hinit
  split at hinit
  · cases hinit
  split at hinit
  · cases hinit
  split at hinit
  · cases hinit
  split at hinit
  · cases hinit
  rename_i haligned hmin
  obtain rfl := Option.some.inj hinit
  rw [show APP_HEAP_SIZE_MIN = 256 from rfl] at hmin
  refine ⟨rfl, ?_, by omega⟩
  change (poolBufSize - 4) / 8 * 8 + 4 ≤ poolBufSize
  omega

-- A pool of 256 bytes at address 64.
def sampleHeap : Heap := gcInitInternal 8 68 248 fun _ => 0

theorem sample_buffers : Buffers 0 8 64 256 :=
  ⟨by decide, by decide, by decide, by decide, by decide, .inl (by decide)⟩

theorem sample_init :
    gcInitWithStructAndPool 0 8 8 64 256 (fun _ => 0) = some sampleHeap := rfl

def sampleRequests : List Request := [.malloc 20, .malloc 30, .free 72, .write 96 0 7]

-- Whatever the client does, the heap stays well formed: its chunks fill the pool, no two free
-- chunks are neighbours, each free chunk is in the list of its size or in the tree, and the
-- objects that the client has are what the chunks in use hold. Every request is answered, and
-- every object can be freed.
include hbuffers hinit in
theorem heap_stays_wellFormed (requests : List Request) :
    ∀ t ∈ steps Client.next ⟨h, []⟩ requests,
      (∃ blocks file, WellFormed t.after.heap blocks file ∧ Holds blocks t.after.live) ∧
        t.output ≠ .stuck ∧ t.output ≠ .freed false := by
  intro t ht
  obtain ⟨hbefore, hafter⟩ := step_inv hbuffers hinit requests t ht
  refine ⟨hafter.1, ?_⟩
  rw [Base.Run.output_eq ht]
  exact (request_answered hbefore.1 t.input).answered

theorem heap_stays_wellFormed_sample :
    (steps Client.next ⟨sampleHeap, []⟩ sampleRequests).length = 4 ∧
    ∀ t ∈ steps Client.next ⟨sampleHeap, []⟩ sampleRequests,
      (∃ blocks file, WellFormed t.after.heap blocks file ∧ Holds blocks t.after.live) ∧
        t.output ≠ .stuck ∧ t.output ≠ .freed false :=
  ⟨rfl, heap_stays_wellFormed sample_buffers sample_init _⟩

-- The objects are aligned, lie in the pool and do not overlap.
include hbuffers hinit in
theorem live_objects_apart (requests : List Request) :
    (∀ o ∈ (final Client.next ⟨h, []⟩ requests).live,
      o.addr % 8 = 0 ∧ poolBuf ≤ o.addr ∧ o.addr + o.size ≤ poolBuf + poolBufSize) ∧
    (final Client.next ⟨h, []⟩ requests).live.Pairwise fun o o' =>
      Apart o.addr o.size o'.addr o'.size := by
  obtain ⟨⟨blocks, file, hwf, hholds⟩, hpools⟩ := run_inv hbuffers hinit requests
  obtain ⟨hbase, hcurrent, -⟩ := init_pool hinit
  constructor
  · intro o ho
    obtain ⟨b, hb, hused, haddr, hsize, -⟩ := hholds.chunk o ho
    have hbounds := hwf.tiles.bounds hb
    have haligned := hwf.aligned hb
    rw [hpools.base, hpools.current] at hbounds
    rw [show HMU_SIZE = 4 from rfl] at haddr hsize
    exact ⟨by omega, by omega, by omega⟩
  · refine (List.pairwise_map.mp hholds.nodup).imp_of_mem fun {o o'} ho ho' hne => ?_
    obtain ⟨b, hb, hused, haddr, hsize, -⟩ := hholds.chunk o ho
    obtain ⟨b', hb', hused', haddr', hsize', -⟩ := hholds.chunk o' ho'
    rw [show HMU_SIZE = 4 from rfl] at haddr hsize haddr' hsize'
    have hapart := hwf.tiles.apart hb hb' (by
      rintro rfl
      omega)
    rcases hapart with hapart | hapart
    · exact .inl (by omega)
    · exact .inr (by omega)

theorem live_objects_apart_sample :
    (final Client.next ⟨sampleHeap, []⟩ [.malloc 20, .malloc 30]).live =
      [⟨96, 30⟩, ⟨72, 20⟩] ∧
    (final Client.next ⟨sampleHeap, []⟩ [.malloc 20, .malloc 30]).live.Pairwise fun o o' =>
      Apart o.addr o.size o'.addr o'.size :=
  ⟨by decide +kernel, (live_objects_apart sample_buffers sample_init _).2⟩

-- A request leaves every object alone that it does not free, up to the byte that it writes.
include hbuffers hinit in
theorem live_objects_kept (requests : List Request) :
    ∀ t ∈ steps Client.next ⟨h, []⟩ requests, ∀ o ∈ t.before.live, o ∈ t.after.live →
      ∀ i ∈ o.bytes, t.input.Spares i → t.after.heap.mem i = t.before.heap.mem i := by
  intro t ht
  obtain ⟨hbefore, -⟩ := step_inv hbuffers hinit requests t ht
  rw [Base.Run.after_eq ht]
  exact (request_answered hbefore.1 t.input).kept

theorem live_objects_kept_sample :
    (steps Client.next ⟨sampleHeap, []⟩ sampleRequests).length = 4 ∧
    ∀ t ∈ steps Client.next ⟨sampleHeap, []⟩ sampleRequests,
      ∀ o ∈ t.before.live, o ∈ t.after.live →
        ∀ i ∈ o.bytes, t.input.Spares i → t.after.heap.mem i = t.before.heap.mem i :=
  ⟨rfl, live_objects_kept sample_buffers sample_init _⟩

-- `malloc` fails only where no free chunk has room for the object and its header, and else it
-- takes the smallest one that has.
include hbuffers hinit in
theorem malloc_best_fit (requests : List Request) (size : UInt32) :
    ∃ blocks file, WellFormed (final Client.next ⟨h, []⟩ requests).heap blocks file ∧
      (((final Client.next ⟨h, []⟩ requests).next (.malloc size)).2 = .null ↔
        ∀ b ∈ blocks, b.free = true → b.size < size.toNat + HMU_SIZE) ∧
      ∀ obj, ((final Client.next ⟨h, []⟩ requests).next (.malloc size)).2 = .object obj →
        ∃ b ∈ blocks, b.free = true ∧ obj = b.addr + HMU_SIZE ∧ size.toNat + HMU_SIZE ≤ b.size ∧
          ∀ b' ∈ blocks, b'.free = true → size.toNat + HMU_SIZE ≤ b'.size → b.size ≤ b'.size := by
  obtain ⟨⟨blocks, file, hwf, hholds⟩, -⟩ := run_inv hbuffers hinit requests
  generalize final Client.next ⟨h, []⟩ requests = c at hwf hholds ⊢
  refine ⟨blocks, file, hwf, ?_⟩
  rw [show HMU_SIZE = 4 from rfl]
  have hfree : ∀ b ∈ blocks, b.free = true → (b.addr, b.size) ∈ freed blocks := by
    intro b hb hb'
    rw [mem_freed, ← hb']
    exact hb
  rcases gcAllocVo_eq hwf size.toNat_lt with ⟨hrun, hnone⟩ | ⟨obj, h', blocks', file', hrun, ha⟩
  · have hnext : c.next (.malloc size) = (c, .null) := by
      rw [Client.next, hrun]
      rfl
    rw [hnext]
    exact ⟨⟨fun _ b hb hb' => hnone _ (hfree b hb hb'), fun _ => rfl⟩, by simp⟩
  · obtain ⟨before, p, n, after, hblocks, rfl, hn, hbest, -⟩ := ha.exists_chunk
    have hmem : (⟨p, n, true⟩ : Block) ∈ blocks := by
      rw [hblocks]
      simp
    have hnext : c.next (.malloc size) =
        (⟨h', ⟨p + 4, size.toNat⟩ :: c.live⟩, .object (p + 4)) := by
      rw [Client.next, hrun]
      rfl
    rw [hnext]
    refine ⟨⟨by simp, fun hsmall => ?_⟩, ?_⟩
    · have hlt := hsmall _ hmem rfl
      simp only at hlt
      omega
    · rintro obj hobj
      obtain rfl : p + 4 = obj := by simpa using hobj
      exact ⟨_, hmem, rfl, rfl, hn, fun b hb hb' hle => hbest _ (hfree b hb hb') hle⟩

theorem malloc_best_fit_sample :
    ∃ blocks file, WellFormed (final Client.next ⟨sampleHeap, []⟩ sampleRequests).heap blocks file ∧
      (((final Client.next ⟨sampleHeap, []⟩ sampleRequests).next (.malloc 300)).2 = .null ↔
        ∀ b ∈ blocks, b.free = true → b.size < 304) :=
  (malloc_best_fit sample_buffers sample_init sampleRequests 300).imp fun _ h =>
    h.imp fun _ h => ⟨h.1, h.2.1⟩

-- Nothing is lost: once the client has freed everything, the pool is one free chunk again, and
-- any object that fits in it can be had.
include hbuffers hinit in
theorem all_freed (requests : List Request)
    (hnone : (final Client.next ⟨h, []⟩ requests).live = []) :
    (∃ file, WellFormed (final Client.next ⟨h, []⟩ requests).heap [⟨h.baseAddr, h.currentSize, true⟩]
      file) ∧
    (final Client.next ⟨h, []⟩ requests).heap.totalFreeSize = h.currentSize ∧
    ∀ size : UInt32, size.toNat + HMU_SIZE ≤ h.currentSize →
      ((final Client.next ⟨h, []⟩ requests).next (.malloc size)).2 =
        .object (h.baseAddr + HMU_SIZE) := by
  obtain ⟨⟨blocks, file, hwf, hholds⟩, hpools⟩ := run_inv hbuffers hinit requests
  generalize final Client.next ⟨h, []⟩ requests = c at hwf hholds hpools hnone ⊢
  have hfree : ∀ b ∈ blocks, b.free = true := by
    intro b hb
    by_contra hused
    obtain ⟨o, ho, -⟩ := hholds.object b hb (by simpa using hused)
    rw [hnone] at ho
    cases ho
  have hne : blocks ≠ [] := by
    rintro rfl
    have hempty : c.heap.baseAddr = c.heap.baseAddr + c.heap.currentSize := hwf.tiles
    have hsome := gcInitWithStructAndPool_wellFormed hbuffers hinit
    have hlarge := (hsome.proper _ (List.mem_singleton.mpr rfl)).large
    rw [hpools.current] at hempty
    simp only at hlarge
    omega
  obtain ⟨⟨a, n, free⟩, rfl⟩ := hwf.merged.eq_singleton hne hfree
  obtain rfl : free = true := hfree _ (List.mem_singleton.mpr rfl)
  obtain ⟨ha, hn⟩ := hwf.tiles
  replace hn : c.heap.baseAddr + n = c.heap.baseAddr + c.heap.currentSize := hn
  obtain rfl : a = h.baseAddr := ha.trans hpools.base
  obtain rfl : n = h.currentSize := by
    rw [hpools.current] at hn
    omega
  refine ⟨⟨file, hwf⟩, ?_, ?_⟩
  · rw [hwf.total]
    simp
  · intro size hsize
    rcases gcAllocVo_eq hwf size.toNat_lt with ⟨hrun, hno⟩ | ⟨obj, h', blocks', file', hrun, ha⟩
    · have hlt := hno (h.baseAddr, h.currentSize) (by simp [freed])
      rw [show HMU_SIZE = 4 from rfl] at hsize
      simp only at hlt
      omega
    · obtain ⟨before, p, n, after, hblocks, rfl, -⟩ := ha.exists_chunk
      obtain rfl : p = h.baseAddr := by
        have hmem : (⟨p, n, true⟩ : Block) ∈ [(⟨h.baseAddr, h.currentSize, true⟩ : Block)] := by
          rw [hblocks]
          simp
        exact congrArg Block.addr (List.mem_singleton.mp hmem)
      rw [Client.next, hrun]
      rfl

theorem all_freed_sample :
    (final Client.next ⟨sampleHeap, []⟩ (sampleRequests ++ [.free 96])).live = [] ∧
    (∃ file, WellFormed (final Client.next ⟨sampleHeap, []⟩ (sampleRequests ++ [.free 96])).heap
      [⟨68, 248, true⟩] file) ∧
    (final Client.next ⟨sampleHeap, []⟩ (sampleRequests ++ [.free 96])).heap.totalFreeSize = 248 ∧
    ((final Client.next ⟨sampleHeap, []⟩ (sampleRequests ++ [.free 96])).next (.malloc 244)).2 =
      .object 72 :=
  have hnone : (final Client.next ⟨sampleHeap, []⟩ (sampleRequests ++ [.free 96])).live = [] := by
    decide +kernel
  have ⟨hone, htotal, hall⟩ := all_freed sample_buffers sample_init _ hnone
  ⟨hnone, hone, htotal, hall 244 (by decide)⟩

-- The size of the free memory is counted exactly: what is missing are the chunks of the objects,
-- and each of them is at most 15 bytes larger than the object with its header, or 24 bytes.
include hbuffers hinit in
theorem free_size_exact (requests : List Request) :
    (final Client.next ⟨h, []⟩ requests).heap.totalFreeSize +
        ((final Client.next ⟨h, []⟩ requests).live.map fun o => o.size + HMU_SIZE).sum ≤
      h.currentSize ∧
    h.currentSize ≤ (final Client.next ⟨h, []⟩ requests).heap.totalFreeSize +
      ((final Client.next ⟨h, []⟩ requests).live.map fun o => max (o.size + 19) 24).sum := by
  obtain ⟨⟨blocks, file, hwf, hholds⟩, hpools⟩ := run_inv hbuffers hinit requests
  generalize final Client.next ⟨h, []⟩ requests = c at hwf hholds hpools ⊢
  have hsum := hwf.tiles.sum
  have htotal := freeSize_add_used blocks
  rw [hpools.base, hpools.current] at hsum
  -- the sizes of the chunks in use, once by the chunks and once by the objects
  have hsizes : ((used blocks).map Block.size).sum =
      (c.live.map fun o => c.heap.hmuGetSize (o.addr - 4)).sum := hholds.sum_sizes hwf
  have hbound : ∀ o ∈ c.live, o.size + 4 ≤ c.heap.hmuGetSize (o.addr - 4) ∧
      c.heap.hmuGetSize (o.addr - 4) ≤ max (o.size + 19) 24 := by
    intro o ho
    obtain ⟨b, hb, -, haddr, hlow, hhigh⟩ := hholds.chunk o ho
    rw [haddr, show HMU_SIZE = 4 from rfl, Nat.add_sub_cancel, (hwf.labelled hb).2.1]
    exact ⟨hlow, hhigh⟩
  rw [hwf.total, show HMU_SIZE = 4 from rfl]
  have hlow := List.sum_le_sum fun o ho => (hbound o ho).1
  have hhigh := List.sum_le_sum fun o ho => (hbound o ho).2
  omega

theorem free_size_exact_sample :
    (final Client.next ⟨sampleHeap, []⟩ sampleRequests).heap.totalFreeSize +
        ((final Client.next ⟨sampleHeap, []⟩ sampleRequests).live.map
          fun o => o.size + HMU_SIZE).sum ≤ 248 :=
  (free_size_exact sample_buffers sample_init sampleRequests).1

include hbuffers hinit in
theorem live_reallocated (requests : List Request) {o : Object}
    (ho : o ∈ (final Client.next ⟨h, []⟩ requests).live) (size : UInt32) :
    ∃ blocks file p n obj h', WellFormed (final Client.next ⟨h, []⟩ requests).heap blocks file ∧
      Holds blocks (final Client.next ⟨h, []⟩ requests).live ∧ o.addr = p + 4 ∧
      o.size + 4 ≤ n ∧ ⟨p, n, false⟩ ∈ blocks ∧
      gcReallocVo (final Client.next ⟨h, []⟩ requests).heap (p + 4) size.toNat = some (obj, h') ∧
      Reallocated (final Client.next ⟨h, []⟩ requests).heap blocks p n size.toNat obj h' := by
  obtain ⟨⟨blocks, file, hwf, hholds⟩, -⟩ := run_inv hbuffers hinit requests
  obtain ⟨⟨p, n, free⟩, hb, hfree, haddr, hsize, -⟩ := hholds.chunk o ho
  simp only at hfree
  subst hfree
  obtain ⟨obj, h', hrun, hre⟩ := gcReallocVo_eq hwf hb size.toNat_lt
  exact ⟨blocks, file, p, n, obj, h', hwf, hholds, haddr, hsize, hb, hrun, hre⟩

-- `realloc` fails only where no free chunk has room, and then it changes nothing. Else the object
-- lies in the pool, apart from all others, with its old bytes; and the others have kept theirs.
include hbuffers hinit in
theorem realloc_keeps_bytes (requests : List Request) (o : Object)
    (ho : o ∈ (final Client.next ⟨h, []⟩ requests).live) (size : UInt32) :
    ∃ obj h', gcReallocVo (final Client.next ⟨h, []⟩ requests).heap o.addr size.toNat =
        some (obj, h') ∧
      (obj = 0 → h' = (final Client.next ⟨h, []⟩ requests).heap) ∧
      (obj ≠ 0 → poolBuf ≤ obj ∧ obj + size.toNat ≤ poolBuf + poolBufSize ∧
        (∀ i < o.size, h'.mem (obj + i) =
          (final Client.next ⟨h, []⟩ requests).heap.mem (o.addr + i)) ∧
        ∀ o' ∈ (final Client.next ⟨h, []⟩ requests).live, o' ≠ o →
          Apart obj size.toNat o'.addr o'.size ∧
          ∀ i ∈ o'.bytes, h'.mem i = (final Client.next ⟨h, []⟩ requests).heap.mem i) := by
  obtain ⟨blocks, file, p, n, obj, h', hwf, hholds, haddr, hsize, hb, hrun, hre⟩ :=
    live_reallocated hbuffers hinit requests ho size
  have hpools := (run_inv hbuffers hinit requests).2
  generalize final Client.next ⟨h, []⟩ requests = c at *
  obtain ⟨hbase, hcurrent, -⟩ := init_pool hinit
  rw [haddr]
  refine ⟨obj, h', hrun, ?_⟩
  suffices hresized : obj ≠ 0 → Resized c.heap blocks p n size.toNat obj h' by
    refine ⟨fun hnull => ?_, fun hpos => ?_⟩
    · cases hre with
      | none => rfl
      | moved hpos => exact absurd hnull hpos
      | grown => omega
    · have hr := hresized hpos
      have hinside := hr.inside
      rw [hpools.base, hpools.current] at hinside
      refine ⟨by omega, by omega, fun i hi => hr.copied i (by omega), fun o' ho' hne => ?_⟩
      obtain ⟨b, hb', hfree, haddr', hsub⟩ := hholds.payload_of_bytes ho'
      have hother : b.addr ≠ p := by
        rintro rfl
        exact hne (List.inj_on_of_nodup_map hholds.nodup ho' ho (haddr'.trans haddr.symm))
      refine ⟨?_, fun i hi => hr.kept b hb' hfree hother i (hsub hi)⟩
      have hend : o'.size = 0 ∨ o'.addr + o'.size ≤ b.addr + b.size := by
        by_cases hzero : o'.size = 0
        · exact .inl hzero
        · have hlast := (hsub (show o'.addr + o'.size - 1 ∈ o'.bytes from
            ⟨by omega, by omega⟩)).2
          exact .inr (by omega)
      have hlarge := (hwf.proper b hb').large
      rcases hr.apart b hb' hfree hother with hapart | hapart
      · exact .inl (by omega)
      · exact .inr (by omega)
  cases hre with
  | none => exact fun hpos => absurd rfl hpos
  | moved _ hr => exact fun _ => hr
  | grown hr => exact fun _ => hr

-- The second object is in the way of the first, which moves behind it.
theorem realloc_keeps_bytes_sample :
    ∃ h', gcReallocVo (final Client.next ⟨sampleHeap, []⟩ [.malloc 20, .malloc 30]).heap 72 100 =
        some (136, h') ∧
      (∀ i < 20, h'.mem (136 + i) =
        (final Client.next ⟨sampleHeap, []⟩ [.malloc 20, .malloc 30]).heap.mem (72 + i)) ∧
      Apart 136 100 96 30 ∧ ∀ i ∈ Set.Ico 96 126, h'.mem i =
        (final Client.next ⟨sampleHeap, []⟩ [.malloc 20, .malloc 30]).heap.mem i := by
  obtain ⟨obj, h', hrun, -, hmoved⟩ := realloc_keeps_bytes sample_buffers sample_init
    [.malloc 20, .malloc 30] ⟨72, 20⟩ (by decide +kernel) 100
  have hobj : (gcReallocVo (final Client.next ⟨sampleHeap, []⟩ [.malloc 20, .malloc 30]).heap 72
      100).map Prod.fst = some 136 := by decide +kernel
  obtain rfl : obj = 136 := Option.some.inj ((congrArg (Option.map Prod.fst) hrun).symm.trans hobj)
  obtain ⟨-, -, hbytes, hothers⟩ := hmoved (by decide)
  exact ⟨h', hrun, hbytes, hothers ⟨96, 30⟩ (by decide +kernel) (by decide)⟩

-- `realloc` keeps the heap well formed, but for one case: an object that grows into the free chunk
-- behind it is not counted, and so much more memory is said to be free than is. Where it takes all
-- of that chunk, the next one still says that the memory in front of it is free.
include hbuffers hinit in
theorem realloc_wellFormed_iff (requests : List Request) (o : Object)
    (ho : o ∈ (final Client.next ⟨h, []⟩ requests).live) (size : UInt32) :
    ∃ blocks file n obj h', WellFormed (final Client.next ⟨h, []⟩ requests).heap blocks file ∧
      ⟨o.addr - HMU_SIZE, n, false⟩ ∈ blocks ∧
      gcReallocVo (final Client.next ⟨h, []⟩ requests).heap o.addr size.toNat = some (obj, h') ∧
      ((∃ blocks' file', WellFormed h' blocks' file') ↔
        ¬GrowsInPlace blocks (o.addr - HMU_SIZE) n size.toNat) ∧
      (GrowsInPlace blocks (o.addr - HMU_SIZE) n size.toNat →
        ∃ blocks', Charted h' blocks' ∧
          h'.totalFreeSize = freeSize blocks' + (totSize size.toNat - n) ∧
          ∀ b ∈ blocks', b.free = false → b.addr = o.addr - HMU_SIZE + totSize size.toNat →
            h'.hmuGetPinuse b.addr = false) := by
  obtain ⟨blocks, file, p, n, obj, h', hwf, -, haddr, -, hb, hrun, hre⟩ :=
    live_reallocated hbuffers hinit requests ho size
  rw [haddr, show HMU_SIZE = 4 from rfl, Nat.add_sub_cancel]
  refine ⟨blocks, file, n, obj, h', hwf, hb, hrun, ?_⟩
  cases hre with
  | none _ hnot => exact ⟨⟨fun _ => hnot, fun _ => ⟨blocks, file, hwf⟩⟩, fun hg => absurd hg hnot⟩
  | moved _ _ hnot hwf' => exact ⟨⟨fun _ => hnot, fun _ => ⟨_, _, hwf'⟩⟩, fun hg => absurd hg hnot⟩
  | grown _ hgrows hcharted htotal hbehind =>
      refine ⟨⟨?_, fun hnot => absurd hgrows hnot⟩, fun _ => ⟨_, hcharted, htotal, hbehind⟩⟩
      rintro ⟨blocks', file', hwf'⟩ -
      -- the headers leave no other division of the pool
      have hsame := hwf'.charted.unique hcharted
      have hcounted := hwf'.total
      have hlt := hgrows.1
      rw [hsame] at hcounted
      omega

-- Three objects, and the one in the middle is free again.
def gapRequests : List Request := [.malloc 20, .malloc 30, .malloc 20, .free 96]

-- The first object takes all of the gap, 40 bytes.
theorem realloc_wellFormed_iff_sample :
    ∃ obj h', gcReallocVo (final Client.next ⟨sampleHeap, []⟩ gapRequests).heap 72 60 =
        some (obj, h') ∧
      (¬∃ blocks' file', WellFormed h' blocks' file') ∧
      ∃ blocks', Charted h' blocks' ∧ h'.totalFreeSize = freeSize blocks' + 40 ∧
        ∀ b ∈ blocks', b.free = false → b.addr = 132 → h'.hmuGetPinuse b.addr = false := by
  obtain ⟨blocks, file, n, obj, h', hwf, hmem, hrun, hiff, hcount⟩ := realloc_wellFormed_iff
    sample_buffers sample_init gapRequests ⟨72, 20⟩ (by decide +kernel) 60
  have hsize : (final Client.next ⟨sampleHeap, []⟩ gapRequests).heap.hmuGetSize 68 = 24 := by
    decide +kernel
  obtain rfl : n = 24 := (hwf.labelled hmem).2.1.symm.trans hsize
  have hfits : fitsNext (final Client.next ⟨sampleHeap, []⟩ gapRequests).heap 68 24 64 = true := by
    decide +kernel
  have hgrows : GrowsInPlace blocks 68 24 60 := ⟨by decide, (fitsNext_iff hwf hmem).mp hfits⟩
  exact ⟨obj, h', hrun, fun hwf' => hiff.mp hwf' hgrows, hcount hgrows⟩

-- The linear memory has grown and lies elsewhere. The client can go on, with its objects at their
-- new places, if and only if no free chunk was small enough for a list: the heads of the lists are
-- not adjusted. The data of the objects has moved in any case.
include hbuffers hinit in
theorem migrate_iff (requests : List Request) {newMem : Mem} {newPool : Nat}
    (haligned : newPool % 8 = 0)
    (hmoved : Moved (final Client.next ⟨h, []⟩ requests).heap newMem (newPool + 4)) :
    ∃ blocks file h', WellFormed (final Client.next ⟨h, []⟩ requests).heap blocks file ∧
      gcMigrate { (final Client.next ⟨h, []⟩ requests).heap with mem := newMem } newPool
        poolBufSize = some (true, h') ∧
      (Client.Inv ⟨h', (final Client.next ⟨h, []⟩ requests).live.map fun o =>
          { o with addr := o.addr - poolBuf + newPool }⟩ ↔
        newPool = poolBuf ∨
          ∀ b ∈ blocks, b.free = true → HMU_FC_NORMAL_MAX_SIZE ≤ b.size) ∧
      ∀ o ∈ (final Client.next ⟨h, []⟩ requests).live, ∀ i < o.size,
        h'.mem (o.addr - poolBuf + newPool + i) =
          (final Client.next ⟨h, []⟩ requests).heap.mem (o.addr + i) := by
  obtain ⟨⟨blocks, file, hwf, hholds⟩, hpools⟩ := run_inv hbuffers hinit requests
  generalize final Client.next ⟨h, []⟩ requests = c at *
  obtain ⟨hbase, hcurrent, -⟩ := init_pool hinit
  have hmax : poolBufSize ≤ 2 ^ 30 := hbuffers.pool_max
  rw [← hpools.base] at hbase
  rw [← hpools.current] at hcurrent
  obtain ⟨h', hrun, hiff, hbytes⟩ := gcMigrate_iff hwf hholds hmoved haligned hcurrent (by omega)
  -- both pools start four bytes before their chunks
  have hplace : ∀ o ∈ c.live, o.addr - c.heap.baseAddr + (newPool + 4) =
      o.addr - poolBuf + newPool := by
    intro o ho
    obtain ⟨b, hb, -, haddr, -⟩ := hholds.chunk o ho
    have hbounds := hwf.tiles.bounds hb
    omega
  refine ⟨blocks, file, h', hwf, hrun, ?_, fun o ho i hi => ?_⟩
  · rw [List.map_congr_left fun o ho => by rw [hplace o ho]] at hiff
    rw [hiff]
    exact or_congr_left (by omega)
  · rw [← hplace o ho]
    exact hbytes o ho i hi

-- A copy of the pool at address 1000.
def sampleCopy (h : Heap) : Mem := fun i =>
  if 1004 ≤ i ∧ i < 1004 + 248 then h.mem (i - 1004 + 68) else h.mem i

theorem sampleCopy_moved {h : Heap} (hpools : SamePool sampleHeap h) :
    Moved h (sampleCopy h) (1000 + 4) := by
  have hbase : h.baseAddr = 68 := hpools.base
  have hcurrent : h.currentSize = 248 := hpools.current
  have hroot : h.kfcTreeRoot = 8 := hpools.root
  refine ⟨by decide, by rw [hcurrent]; decide, ?_, fun i hi => ?_, fun i hlow hhigh => ?_⟩
  · rw [hroot, hcurrent]
    exact .inl (by decide)
  · rw [sampleCopy, if_pos (by omega), hbase,
      show 1000 + 4 + i - 1004 + 68 = 68 + i by omega]
  · rw [hroot, show TREE_NODE_SIZE = 32 from rfl] at hhigh
    rw [sampleCopy, if_neg (by omega)]

-- One object and a free chunk, which is small enough for a list.
theorem sample_charted : Charted (final Client.next ⟨sampleHeap, []⟩ [.malloc 20]).heap
    [⟨68, 24, false⟩, ⟨92, 224, true⟩] := by
  have hpools := (run_inv sample_buffers sample_init [.malloc 20]).2
  refine ⟨?_, by decide, ?_⟩
  · rw [hpools.base, hpools.current]
    exact ⟨rfl, rfl, rfl⟩
  simp only [List.forall_mem_cons, List.not_mem_nil, false_implies, implies_true, and_true,
    Labelled]
  decide +kernel

theorem migrate_iff_sample :
    ∃ h', gcMigrate { (final Client.next ⟨sampleHeap, []⟩ [.malloc 20]).heap with
        mem := sampleCopy (final Client.next ⟨sampleHeap, []⟩ [.malloc 20]).heap } 1000 256 =
        some (true, h') ∧
      ¬Client.Inv ⟨h', [⟨1008, 20⟩]⟩ ∧
      ∀ i < 20, h'.mem (1008 + i) =
        (final Client.next ⟨sampleHeap, []⟩ [.malloc 20]).heap.mem (72 + i) := by
  have hmoved := sampleCopy_moved (run_inv sample_buffers sample_init [.malloc 20]).2
  obtain ⟨blocks, file, h', hwf, hrun, hiff, hbytes⟩ :=
    migrate_iff sample_buffers sample_init [.malloc 20] (show 1000 % 8 = 0 from rfl) hmoved
  have hlive : (final Client.next ⟨sampleHeap, []⟩ [.malloc 20]).live = [⟨72, 20⟩] := by
    decide +kernel
  obtain rfl := hwf.charted.unique sample_charted
  rw [hlive] at hiff hbytes
  refine ⟨h', hrun, fun hinv => ?_, hbytes ⟨72, 20⟩ (by decide)⟩
  rcases hiff.mp hinv with hsame | hlarge
  · exact absurd hsame (by decide)
  · exact absurd (hlarge ⟨92, 224, true⟩ (by decide) rfl) (by decide)

end Service

end Watz.Ems
