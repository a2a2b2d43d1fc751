import Watz.Base.Run
import Watz.Ems.Free
import Watz.Ems.Init

namespace Watz.Ems

open Base.Layout Base.Words Base.Arena
open Base.Run (Step steps final)

-- An object that `malloc` has returned, with the size that was asked for.
structure Object where
  addr : Nat
  size : Nat
  deriving DecidableEq

-- The heap and the objects that its client has not freed.
structure Client where
  heap : Heap
  live : List Object

inductive Request where
  | malloc (size : UInt32)
  | free (obj : Nat)
  | write (obj offset : Nat) (byte : UInt8)

inductive Reply where
  | object (obj : Nat)
  | null
  | freed (success : Bool)
  | written
  | refused
  | stuck
  deriving DecidableEq

def Object.bytes (o : Object) : Set Nat := Set.Ico o.addr (o.addr + o.size)

-- The client frees objects that it has, and it writes into them. It does nothing else with the
-- memory of the pool.
def Client.next (c : Client) : Request → Client × Reply
  | .malloc size =>
      match gcAllocVo c.heap size.toNat with
      | none => (c, .stuck)
      | some (0, h) => ({ c with heap := h }, .null)
      | some (obj, h) => (⟨h, ⟨obj, size.toNat⟩ :: c.live⟩, .object obj)
  | .free obj =>
      if obj ∈ c.live.map Object.addr then
        match gcFreeVo c.heap obj with
        | none => (c, .stuck)
        | some (success, h) => (⟨h, c.live.filter fun o => o.addr != obj⟩, .freed success)
      else (c, .refused)
  | .write obj offset byte =>
      if c.live.any fun o => o.addr == obj && offset < o.size then
        ({ c with heap.mem := Function.update c.heap.mem (obj + offset) byte }, .written)
      else (c, .refused)

-- The objects are what the chunks in use hold. Of such a chunk little is wasted.
structure Holds (blocks : List Block) (live : List Object) : Prop where
  nodup : (live.map Object.addr).Nodup
  chunk : ∀ o ∈ live, ∃ b ∈ blocks, b.free = false ∧ o.addr = b.addr + HMU_SIZE ∧
    o.size + HMU_SIZE ≤ b.size ∧ b.size ≤ max (o.size + 19) 24
  object : ∀ b ∈ blocks, b.free = false → ∃ o ∈ live, o.addr = b.addr + HMU_SIZE

def Client.Inv (c : Client) : Prop :=
  ∃ blocks file, WellFormed c.heap blocks file ∧ Holds blocks c.live

section Steps

variable {h h' : Heap} {blocks blocks' : List Block} {file file' : File} {live : List Object}
  {size obj p : Nat}

theorem WellFormed.eq_of_addr (hwf : WellFormed h blocks file) {b c : Block} (hb : b ∈ blocks)
    (hc : c ∈ blocks) (haddr : b.addr = c.addr) : b = c := by
  by_contra hne
  have hlarge := (hwf.proper b hb).large
  have hlarge' := (hwf.proper c hc).large
  rcases hwf.tiles.apart hb hc hne with hapart | hapart <;> omega

-- The chunk of a new object.
theorem Allocated.used (hwf : WellFormed h blocks file)
    (ha : Allocated h blocks size obj h' blocks' file') :
    ∃ p n k, obj = p + 4 ∧ ⟨p, n, true⟩ ∈ blocks ∧ size + 4 ≤ k ∧ k ≤ max (size + 19) 24 ∧
      ∀ b : Block, b.free = false → (b ∈ blocks' ↔ b ∈ blocks ∨ b = ⟨p, k, false⟩) := by
  obtain ⟨before, p, n, after, rfl, rfl, hn, -, rfl⟩ := ha.exists_chunk
  have hbounds := hwf.tiles.bounds (b := ⟨p, n, true⟩) (by simp)
  have hproper := hwf.proper ⟨p, n, true⟩ (by simp)
  obtain ⟨j, hj⟩ := hproper.2
  have hlarge : 16 ≤ n := hproper.large
  have hsmall := hwf.pool.small
  simp only at hbounds hj
  have hfits : size + 11 < 2 ^ 32 := by omega
  obtain ⟨-, htot⟩ := totSize_of_fits hfits
  have hneeded : needed size = max ((size + 11) / 8 * 8) 16 := by
    rw [needed, htot]
    rfl
  refine ⟨p, n, (trim p n (needed size) after).1, rfl, by simp, ?_, ?_, ?_⟩
  · have hlow := (trim_bounds p after (show needed size ≤ n by omega)).1
    omega
  · rw [trim]
    split
    case isTrue => omega
    case isFalse hcut =>
      rw [show GC_SMALLEST_SIZE = 16 from rfl] at hcut
      omega
  · intro b hused
    simp only [List.append_assoc, List.mem_append, List.mem_cons, List.not_mem_nil, or_false]
    have hrest : b ∈ (trim p n (needed size) after).2 ↔ b ∈ after := by
      rw [trim]
      split
      · simp only [List.mem_cons]
        constructor
        · rintro (rfl | hb)
          · cases hused
          · exact hb
        · exact .inr
      · exact Iff.rfl
    rw [hrest]
    constructor
    · tauto
    · rintro ((hb | rfl | hb) | hb)
      · exact .inl hb
      · cases hused
      · exact .inr (.inr hb)
      · exact .inr (.inl hb)

theorem Holds.malloc (hwf : WellFormed h blocks file) (hholds : Holds blocks live)
    (ha : Allocated h blocks size obj h' blocks' file') : Holds blocks' (⟨obj, size⟩ :: live) := by
  obtain ⟨p, n, k, rfl, hmem, hlow, hhigh, hused⟩ := ha.used hwf
  refine ⟨List.nodup_cons.mpr ⟨?_, hholds.nodup⟩, ?_, ?_⟩
  · intro hin
    obtain ⟨o, ho, haddr⟩ := List.mem_map.mp hin
    obtain ⟨b, hb, hfree, hob, -⟩ := hholds.chunk o ho
    have heq := hwf.eq_of_addr hb hmem (by
      rw [haddr, show HMU_SIZE = 4 from rfl] at hob
      simp only at hob ⊢
      omega)
    rw [heq] at hfree
    cases hfree
  · intro o ho
    rcases List.mem_cons.mp ho with rfl | ho
    · exact ⟨⟨p, k, false⟩, (hused _ rfl).mpr (.inr rfl), rfl, rfl, hlow, hhigh⟩
    · obtain ⟨b, hb, hfree, hrest⟩ := hholds.chunk o ho
      exact ⟨b, (hused b hfree).mpr (.inl hb), hfree, hrest⟩
  · intro b hb hfree
    rcases (hused b hfree).mp hb with hb | rfl
    · obtain ⟨o, ho, haddr⟩ := hholds.object b hb hfree
      exact ⟨o, List.mem_cons_of_mem _ ho, haddr⟩
    · exact ⟨_, List.mem_cons_self, rfl⟩

theorem Holds.free (hholds : Holds blocks live) (hr : Released h blocks p h' blocks' file') :
    Holds blocks' (live.filter fun o => o.addr != p + 4) := by
  refine ⟨hholds.nodup.sublist (List.filter_sublist.map _), ?_, ?_⟩
  · intro o ho
    obtain ⟨ho, hne⟩ := List.mem_filter.mp ho
    obtain ⟨b, hb, hfree, haddr, hrest⟩ := hholds.chunk o ho
    refine ⟨b, (hr.used b hfree).mpr ⟨hb, ?_⟩, hfree, haddr, hrest⟩
    rintro rfl
    simp [haddr, HMU_SIZE] at hne
  · intro b hb hfree
    obtain ⟨hb, hne⟩ := (hr.used b hfree).mp hb
    obtain ⟨o, ho, haddr⟩ := hholds.object b hb hfree
    refine ⟨o, List.mem_filter.mpr ⟨ho, ?_⟩, haddr⟩
    simp only [haddr, HMU_SIZE, bne_iff_ne, ne_eq]
    omega

-- A byte of an object is none of the heap's own.
theorem WellFormed.write (hwf : WellFormed h blocks file) {b : Block} (hb : b ∈ blocks)
    (hused : b.free = false) {i : Nat} (hi : i ∈ payload b) (byte : UInt8) :
    WellFormed { h with mem := Function.update h.mem i byte } blocks file := by
  have hlow : b.addr + 4 ≤ i := hi.1
  have hhigh : i < b.addr + b.size := hi.2
  have hne : ∀ j, j ≠ i → Function.update h.mem i byte j = h.mem j := fun j hj =>
    Function.update_of_ne hj _ _
  refine ⟨⟨hwf.pool.base_pos, hwf.pool.fits, hwf.pool.small, hwf.pool.aligned, hwf.pool.units,
    hwf.pool.root_pos, hwf.pool.root_fits, hwf.pool.root_apart⟩, hwf.tiles, hwf.proper, ?_,
    hwf.merged, ?_, hwf.total, hwf.intact⟩
  · refine hwf.ranged.congr hwf.proper (fun q hq => nomatch hq) fun c hc j hj => hne j ?_
    rintro rfl
    obtain ⟨hlow', hhigh', hrim⟩ := hj
    by_cases heq : c = b
    · subst heq
      rw [hused] at hrim
      simp only [Bool.false_eq_true, false_and, or_false] at hrim
      omega
    · rcases hwf.tiles.apart hc hb heq with hapart | hapart <;> omega
  · refine hwf.filed.congr (scattered_of_tiles hwf.tiles hwf.proper) rfl rfl fun j hj => ?_
    apply hne
    rintro rfl
    exact payload_not_filing hwf.pool hwf.tiles hb hused subset_rfl j hi hj

-- Chunks in use and objects correspond, one to one.
theorem Holds.sum_sizes (hwf : WellFormed h blocks file) (hholds : Holds blocks live) :
    ((used blocks).map Block.size).sum =
      (live.map fun o => h.hmuGetSize (o.addr - 4)).sum := by
  have hperm : ((used blocks).map fun b => b.addr + 4).Perm (live.map Object.addr) := by
    refine (List.perm_ext_iff_of_nodup ?_ hholds.nodup).mpr fun a => ?_
    · have hnodup := hwf.tiles.nodup_addr fun b hb => by
        have hlarge := (hwf.proper b hb).large
        omega
      have hsub : ((used blocks).map Block.addr).Nodup :=
        hnodup.sublist (List.filter_sublist.map Block.addr)
      have hmap := hsub.map (add_left_injective 4)
      rwa [List.map_map] at hmap
    · simp only [List.mem_map, mem_used]
      constructor
      · rintro ⟨b, ⟨hb, hfree⟩, rfl⟩
        exact hholds.object b hb hfree
      · rintro ⟨o, ho, rfl⟩
        obtain ⟨b, hb, hfree, haddr, -⟩ := hholds.chunk o ho
        exact ⟨b, ⟨hb, hfree⟩, haddr.symm⟩
  have hsum := (hperm.map fun a => h.hmuGetSize (a - 4)).sum_eq
  rw [List.map_map, List.map_map] at hsum
  rw [← show (live.map ((fun a => h.hmuGetSize (a - 4)) ∘ Object.addr)).sum =
    (live.map fun o => h.hmuGetSize (o.addr - 4)).sum from rfl, ← hsum]
  congr 1
  refine List.map_congr_left fun b hb => ?_
  exact (hwf.labelled (mem_used.mp hb).1).2.1.symm

theorem Holds.payload_of_bytes (hholds : Holds blocks live) {o : Object} (ho : o ∈ live) :
    ∃ b ∈ blocks, b.free = false ∧ o.addr = b.addr + 4 ∧ o.bytes ⊆ payload b := by
  obtain ⟨b, hb, hfree, haddr, hsize, -⟩ := hholds.chunk o ho
  rw [show HMU_SIZE = 4 from rfl] at haddr hsize
  refine ⟨b, hb, hfree, haddr, fun i hi => ?_⟩
  have hlow : o.addr ≤ i := hi.1
  have hhigh : i < o.addr + o.size := hi.2
  exact ⟨by omega, by omega⟩

end Steps

section Run

variable {c : Client}

-- The request does not write this byte.
def Request.Spares (request : Request) (i : Nat) : Prop :=
  match request with
  | .write obj offset _ => obj + offset ≠ i
  | _ => True

-- What a request does to the client: it is answered, and the objects that are still there
-- afterwards have kept the bytes that it does not write.
structure Answered (c : Client) (request : Request) : Prop where
  inv : (c.next request).1.Inv
  same : SamePool c.heap (c.next request).1.heap
  answered : (c.next request).2 ≠ .stuck ∧ (c.next request).2 ≠ .freed false
  kept : ∀ o ∈ c.live, o ∈ (c.next request).1.live → ∀ i ∈ o.bytes, request.Spares i →
    (c.next request).1.heap.mem i = c.heap.mem i

theorem SamePool.refl (h : Heap) : SamePool h h := ⟨rfl, rfl, rfl, rfl⟩

theorem answered_of_same {request : Request} {reply : Reply} (hinv : c.Inv)
    (hnext : c.next request = (c, reply)) (hstuck : reply ≠ .stuck) (hfreed : reply ≠ .freed false) :
    Answered c request := by
  constructor
  · rw [hnext]
    exact hinv
  · rw [hnext]
    exact .refl _
  · rw [hnext]
    exact ⟨hstuck, hfreed⟩
  · intro o _ _ i _ _
    rw [hnext]

theorem malloc_answered (hinv : c.Inv) (size : UInt32) : Answered c (.malloc size) := by
  obtain ⟨blocks, file, hwf, hholds⟩ := hinv
  rcases gcAllocVo_eq hwf size.toNat_lt with ⟨hrun, -⟩ | ⟨obj, h', blocks', file', hrun, ha⟩
  · have hnext : c.next (.malloc size) = (c, .null) := by
      rw [Client.next, hrun]
      rfl
    exact answered_of_same ⟨blocks, file, hwf, hholds⟩ hnext (by simp) (by simp)
  · obtain ⟨p, n, k, rfl, -⟩ := ha.used hwf
    have hnext : c.next (.malloc size) =
        (⟨h', ⟨p + 4, size.toNat⟩ :: c.live⟩, .object (p + 4)) := by
      rw [Client.next, hrun]
      rfl
    constructor
    · rw [hnext]
      exact ⟨blocks', file', ha.wellFormed, hholds.malloc hwf ha⟩
    · rw [hnext]
      exact ha.same
    · rw [hnext]
      exact ⟨by simp, by simp⟩
    · intro o ho _ i hi _
      rw [hnext]
      obtain ⟨b, hb, hfree, -, hsub⟩ := hholds.payload_of_bytes ho
      exact ha.kept b hb hfree i (hsub hi)

theorem free_answered (hinv : c.Inv) (obj : Nat) : Answered c (.free obj) := by
  obtain ⟨blocks, file, hwf, hholds⟩ := hinv
  by_cases hlive : obj ∈ c.live.map Object.addr
  · obtain ⟨o, ho, rfl⟩ := List.mem_map.mp hlive
    obtain ⟨⟨p, n, free⟩, hb, hfree, haddr, hsub⟩ := hholds.payload_of_bytes ho
    simp only at hfree haddr
    subst hfree
    obtain ⟨h', blocks', file', hrun, hr⟩ := gcFreeVo_eq hwf hb
    have hnext : c.next (.free o.addr) =
        (⟨h', c.live.filter fun o' => o'.addr != p + 4⟩, .freed true) := by
      rw [Client.next, if_pos hlive, haddr, hrun]
    constructor
    · rw [hnext]
      exact ⟨blocks', file', hr.wellFormed, hholds.free hr⟩
    · rw [hnext]
      exact hr.same
    · rw [hnext]
      exact ⟨by simp, by simp⟩
    · intro o' ho' hkeep i hi _
      rw [hnext] at hkeep ⊢
      obtain ⟨b', hb', hfree', haddr', hsub'⟩ := hholds.payload_of_bytes ho'
      refine hr.kept b' hb' hfree' ?_ i (hsub' hi)
      have hne := (List.mem_filter.mp hkeep).2
      simp only [bne_iff_ne, ne_eq] at hne
      omega
  · have hnext : c.next (.free obj) = (c, .refused) := by
      rw [Client.next, if_neg hlive]
    exact answered_of_same ⟨blocks, file, hwf, hholds⟩ hnext (by simp) (by simp)

theorem write_answered (hinv : c.Inv) (obj offset : Nat) (byte : UInt8) :
    Answered c (.write obj offset byte) := by
  obtain ⟨blocks, file, hwf, hholds⟩ := hinv
  by_cases hlive : (c.live.any fun o => o.addr == obj && offset < o.size) = true
  · obtain ⟨o, ho, hin⟩ := List.any_eq_true.mp hlive
    simp only [Bool.and_eq_true, beq_iff_eq, decide_eq_true_eq] at hin
    obtain ⟨b, hb, hfree, -, hsub⟩ := hholds.payload_of_bytes ho
    have hnext : c.next (.write obj offset byte) =
        ({ c with heap.mem := Function.update c.heap.mem (obj + offset) byte }, .written) := by
      rw [Client.next, if_pos hlive]
    constructor
    · rw [hnext]
      exact ⟨blocks, file, hwf.write hb hfree (hsub ⟨by omega, by omega⟩) byte, hholds⟩
    · rw [hnext]
      exact ⟨rfl, rfl, rfl, rfl⟩
    · rw [hnext]
      exact ⟨by simp, by simp⟩
    · intro o' _ _ i _ hspares
      rw [hnext]
      exact Function.update_of_ne (Ne.symm hspares) _ _
  · have hnext : c.next (.write obj offset byte) = (c, .refused) := by
      rw [Client.next, if_neg hlive]
    exact answered_of_same ⟨blocks, file, hwf, hholds⟩ hnext (by simp) (by simp)

theorem request_answered (hinv : c.Inv) (request : Request) : Answered c request := by
  cases request with
  | malloc size => exact malloc_answered hinv size
  | free obj => exact free_answered hinv obj
  | write obj offset byte => exact write_answered hinv obj offset byte

end Run

end Watz.Ems
