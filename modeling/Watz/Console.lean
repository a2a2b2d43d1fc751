import Mathlib.Algebra.Order.BigOperators.Group.List
import Watz.GuestMemory
import Watz.Output

namespace Watz.Console

open Base Base.Layout Output

-- The arguments of `wasi_fd_write`, with the descriptor that `fd` leads to.
structure FdWrite where
  descriptor : Descriptor
  iovecApp : UInt32
  iovsLen : UInt32
  nwrittenApp : UInt32

-- What the heap answers to the two requests of the path: the native vector and the staging
-- block.
structure Grants where
  ciovec : Bool
  staging : Bool

variable (m : GuestMemory) (r : FdWrite)

-- The entry `iovec_app[i]`: `buf_offset` and `buf_len`.
def iovecApp (i : Nat) : Nat × Nat :=
  (m.readUint32 (r.iovecApp.toNat + 8 * i), m.readUint32 (r.iovecApp.toNat + 8 * i + 4))

def iovecs : List (Nat × Nat) := (List.range r.iovsLen.toNat).map (iovecApp m r)

-- The bytes that the entries describe.
def iov : List (List UInt8) := (iovecs m r).map fun entry => slice m.data entry.1 entry.2

def total : Nat := ((iovecs m r).map Prod.snd).sum

-- The runtime's check of the two pointers of the signature "(i*i*)i".
def pointersValid : Bool :=
  m.validateAppAddr r.iovecApp.toNat 1 && m.validateAppAddr r.nwrittenApp.toNat 1

def ciovecSize : Nat := if 16 * r.iovsLen.toNat = 0 then 1 else 16 * r.iovsLen.toNat

-- The checks of `wasi_fd_write` itself.
def validated : Bool :=
  m.validateNativeAddr r.nwrittenApp.toNat 4 && decide (8 * r.iovsLen.toNat < UINT32_MAX) &&
    m.validateNativeAddr r.iovecApp.toNat (8 * r.iovsLen.toNat) &&
    decide (ciovecSize r < UINT32_MAX) &&
    (iovecs m r).all fun entry => m.validateAppAddr entry.1 entry.2

-- The call gets as far as `writev`.
def Reaches (grants : Grants) : Prop :=
  pointersValid m r = true ∧ validated m r = true ∧ grants.ciovec = true

-- The two loops of `writev` over the lengths: `nchars` is a `size_t`, and `buffer_iter` counts
-- from the start of the staging block.
def countChars (lengths : List Nat) : Nat :=
  lengths.foldl (fun nchars length => (nchars + length) % 2 ^ 64) 0

structure Copying where
  bufferIter : Nat
  copies : List (Nat × Nat)

def Copying.next (c : Copying) (length : Nat) : Copying :=
  ⟨c.bufferIter + length, c.copies ++ [(c.bufferIter, length)]⟩

def copyChars (lengths : List Nat) : Copying := lengths.foldl Copying.next ⟨0, []⟩

-- What one call of `writev` asks for and copies: the argument of `os_malloc`, which is
-- `unsigned`, the `memcpy` calls into the staging block, the length of the one into the shared
-- buffer, and the result.
structure Sizes where
  asked : Nat
  copies : List (Nat × Nat)
  shared : Nat
  result : Nat

def writevSizes (outputBufferSize : Nat) (lengths : List Nat) : Sizes where
  asked := countChars lengths % 2 ^ 32
  copies := (copyChars lengths).copies
  shared := if countChars lengths < outputBufferSize then countChars lengths else 0
  result := countChars lengths

-- The sizes, and the value that `*nwritten_app` gets.
def wasiFdWrite (grants : Grants) (outputBufferSize : Nat) : Option (Sizes × Nat) :=
  if pointersValid m r && validated m r && grants.ciovec then
    let sizes := writevSizes outputBufferSize ((iovecs m r).map Prod.snd)
    some (sizes, sizes.result % 2 ^ 32)
  else none

-- The bytes of the staging block.
def Sizes.capacity (sizes : Sizes) (granted : Bool) : Nat := if granted then sizes.asked else 0

structure WithinGrant (granted : Bool) (total : Nat) (sizes : Sizes) (nwritten : Nat) : Prop where
  inside : ∀ copy ∈ sizes.copies, copy.1 + copy.2 ≤ sizes.capacity granted
  staged : (sizes.copies.map Prod.snd).sum ≤ sizes.capacity granted
  shared : sizes.shared ≤ sizes.capacity granted
  nwritten : nwritten = total

section Loops

theorem countChars_go (lengths : List Nat) (nchars : Nat) (h : nchars + lengths.sum < 2 ^ 64) :
    lengths.foldl (fun nchars length => (nchars + length) % 2 ^ 64) nchars =
      nchars + lengths.sum := by
  induction lengths generalizing nchars with
  | nil => rfl
  | cons length rest ih =>
      simp only [List.sum_cons] at h
      rw [List.foldl_cons, Nat.mod_eq_of_lt (by omega), ih _ (by omega), List.sum_cons]
      omega

theorem countChars_eq {lengths : List Nat} (h : lengths.sum < 2 ^ 64) :
    countChars lengths = lengths.sum := by
  rw [countChars, countChars_go lengths 0 (by omega), Nat.zero_add]

-- The copies so far end at the iterator, which has moved by their lengths.
structure Copying.Tiles (c : Copying) : Prop where
  inside : ∀ copy ∈ c.copies, copy.1 + copy.2 ≤ c.bufferIter
  staged : (c.copies.map Prod.snd).sum = c.bufferIter

theorem Copying.Tiles.next {c : Copying} (h : c.Tiles) (length : Nat) : (c.next length).Tiles := by
  refine ⟨?_, ?_⟩
  · intro copy hcopy
    simp only [Copying.next, List.mem_append, List.mem_singleton] at hcopy ⊢
    rcases hcopy with hold | rfl
    · have hbound := h.inside copy hold
      omega
    · exact Nat.le_refl _
  · simp only [Copying.next, List.map_append, List.sum_append, h.staged]
    simp

theorem copyChars_go (lengths : List Nat) {c : Copying} (h : c.Tiles) :
    (lengths.foldl Copying.next c).Tiles ∧
      (lengths.foldl Copying.next c).bufferIter = c.bufferIter + lengths.sum := by
  induction lengths generalizing c with
  | nil => exact ⟨h, rfl⟩
  | cons length rest ih =>
      obtain ⟨htiles, hiter⟩ := ih (h.next length)
      refine ⟨htiles, ?_⟩
      rw [List.foldl_cons, hiter, List.sum_cons]
      simp only [Copying.next]
      omega

theorem copyChars_tiles (lengths : List Nat) :
    (copyChars lengths).Tiles ∧ (copyChars lengths).bufferIter = lengths.sum := by
  have hstart : (⟨0, []⟩ : Copying).Tiles := ⟨by simp, rfl⟩
  obtain ⟨htiles, hiter⟩ := copyChars_go lengths hstart
  exact ⟨htiles, hiter.trans (Nat.zero_add _)⟩

end Loops

section Validation

theorem pointersValid_eq (fd : UInt32) : pointersValid m r =
    m.checkArguments [.int, .pointer, .int, .pointer] [fd.toNat, r.iovecApp.toNat,
      r.iovsLen.toNat, r.nwrittenApp.toNat] := by
  simp [pointersValid, GuestMemory.checkArguments]

variable {m r}

theorem length_iovecs : (iovecs m r).length = r.iovsLen.toNat := by
  simp [iovecs]

-- Every entry that passes lies in the memory, and there are fewer than 2 ^ 28 of them.
theorem validated_entries (h : validated m r = true) :
    r.iovsLen.toNat < 2 ^ 28 ∧ ∀ entry ∈ iovecs m r, entry.1 + entry.2 ≤ m.size := by
  simp only [validated, Bool.and_eq_true, decide_eq_true_eq, List.all_eq_true] at h
  obtain ⟨⟨-, hciovec⟩, hentries⟩ := h
  constructor
  · unfold ciovecSize UINT32_MAX at hciovec
    split at hciovec
    · omega
    · omega
  · intro entry hentry
    exact (m.validateAppAddr_iff _ _).mp (hentries entry hentry)

-- The sum cannot wrap a `size_t`.
theorem total_lt (h : validated m r = true) : total m r < 2 ^ 64 := by
  obtain ⟨hcount, hentries⟩ := validated_entries h
  have hsize := m.size_le
  have hlengths : ∀ length ∈ (iovecs m r).map Prod.snd, length ≤ MAX_LINEAR_MEMORY_SIZE := by
    intro length hlength
    obtain ⟨entry, hentry, rfl⟩ := List.mem_map.mp hlength
    have hinside := hentries entry hentry
    omega
  have hsum := List.sum_le_card_nsmul _ _ hlengths
  rw [List.length_map, length_iovecs, nsmul_eq_mul, Nat.cast_id] at hsum
  calc total m r ≤ r.iovsLen.toNat * MAX_LINEAR_MEMORY_SIZE := hsum
    _ ≤ 2 ^ 28 * MAX_LINEAR_MEMORY_SIZE := Nat.mul_le_mul_right _ hcount.le
    _ < 2 ^ 64 := by decide

end Validation

-- The sizes are those of the bytes that `writev` assembles and stores.
theorem writevSizes_writev {ρ : Type} (g : Globals ρ) (line : Line) (h : line.total < 2 ^ 64) :
    let sizes := writevSizes g.outputBufferSize (line.iov.map List.length)
    (deliver g line.call).2.result = sizes.result ∧
      (deliver g line.call).2.stored.length = sizes.shared := by
  have hcount : countChars (line.iov.map List.length) = line.total := countChars_eq h
  rw [deliver_line]
  simp only [writevSizes, hcount]
  by_cases hfits : line.total < g.outputBufferSize
  · have hbytes : line.bytes.length = line.total := length_assemble _
    simp only [if_pos hfits, Written.stored, hbytes, and_self]
  · simp only [if_neg hfits, Written.stored, List.length_nil, and_self]

variable {m r} in
theorem wasiFdWrite_of_reaches {grants : Grants} (h : Reaches m r grants)
    (outputBufferSize : Nat) :
    wasiFdWrite m r grants outputBufferSize =
      some (writevSizes outputBufferSize ((iovecs m r).map Prod.snd),
        (writevSizes outputBufferSize ((iovecs m r).map Prod.snd)).result % 2 ^ 32) := by
  obtain ⟨hpointers, hvalidated, hciovec⟩ := h
  simp [wasiFdWrite, hpointers, hvalidated, hciovec]

variable {m r} in
theorem wasiFdWrite_of_not_reaches {grants : Grants} (h : ¬ Reaches m r grants)
    (outputBufferSize : Nat) : wasiFdWrite m r grants outputBufferSize = none := by
  rw [wasiFdWrite, if_neg]
  simpa [Reaches, and_assoc] using h

-- A call stays within its staging block exactly when its bytes are fewer than 2 ^ 32 and the
-- block was granted, or there are none.
theorem withinGrant_iff (grants : Grants) (outputBufferSize : Nat) :
    (∀ sizes nwritten, wasiFdWrite m r grants outputBufferSize = some (sizes, nwritten) →
        WithinGrant grants.staging (total m r) sizes nwritten) ↔
      (Reaches m r grants → total m r < 2 ^ 32 ∧ (grants.staging = true ∨ total m r = 0)) := by
  by_cases hreaches : Reaches m r grants
  · have hcount : countChars ((iovecs m r).map Prod.snd) = total m r :=
      countChars_eq (total_lt hreaches.2.1)
    obtain ⟨htiles, hiter⟩ := copyChars_tiles ((iovecs m r).map Prod.snd)
    have hstaged : ((copyChars ((iovecs m r).map Prod.snd)).copies.map Prod.snd).sum = total m r :=
      htiles.staged.trans hiter
    simp only [wasiFdWrite_of_reaches hreaches, Option.some.injEq, Prod.mk.injEq, hreaches,
      forall_const]
    constructor
    · intro h
      have hwithin := h _ _ ⟨rfl, rfl⟩
      have hbound := hwithin.staged
      have hmod := hwithin.nwritten
      simp only [writevSizes, Sizes.capacity, hcount] at hbound hmod
      rw [hstaged] at hbound
      cases hgranted : grants.staging with
      | true =>
          simp only [hgranted, if_true] at hbound
          exact ⟨by omega, Or.inl rfl⟩
      | false =>
          simp only [hgranted, Bool.false_eq_true, if_false] at hbound
          exact ⟨by omega, Or.inr (by omega)⟩
    · rintro ⟨hword, hgranted⟩ sizes nwritten ⟨rfl, rfl⟩
      have hcapacity : total m r ≤
          (writevSizes outputBufferSize ((iovecs m r).map Prod.snd)).capacity grants.staging := by
        simp only [Sizes.capacity, writevSizes, hcount, Nat.mod_eq_of_lt hword]
        rcases hgranted with hgranted | hzero
        · simp [hgranted]
        · omega
      refine ⟨fun copy hcopy => ?_, ?_, ?_, ?_⟩
      · have hinside := htiles.inside copy hcopy
        rw [hiter] at hinside
        exact hinside.trans hcapacity
      · exact hstaged.le.trans hcapacity
      · refine le_trans ?_ hcapacity
        simp only [writevSizes, hcount]
        split
        · exact Nat.le_refl _
        · exact Nat.zero_le _
      · simp only [writevSizes, hcount, Nat.mod_eq_of_lt hword]
  · simp [wasiFdWrite_of_not_reaches hreaches, hreaches]

section Example

-- A memory of 16 MiB in which every entry of a vector describes the whole memory.
def wholeMemory : GuestMemory := ⟨2 ^ 24, fun i => if i % 8 = 7 then 1 else 0, by decide⟩

def wholeWrite (iovsLen : UInt32) : FdWrite := ⟨.stdout, 0, iovsLen, 0⟩

-- 256 entries add up to 2 ^ 32 bytes, for which no byte is asked for. One entry overruns a
-- block that was refused.
theorem copies_exceed_grant :
    (∃ sizes nwritten, wasiFdWrite wholeMemory (wholeWrite 256) ⟨true, true⟩ 0 =
        some (sizes, nwritten) ∧
      ¬ WithinGrant true (total wholeMemory (wholeWrite 256)) sizes nwritten) ∧
      ∃ sizes nwritten, wasiFdWrite wholeMemory (wholeWrite 1) ⟨true, false⟩ 0 =
          some (sizes, nwritten) ∧
        ¬ WithinGrant false (total wholeMemory (wholeWrite 1)) sizes nwritten := by
  have hmany : (pointersValid wholeMemory (wholeWrite 256) &&
      validated wholeMemory (wholeWrite 256) && true) = true := by decide +kernel
  have hone : (pointersValid wholeMemory (wholeWrite 1) &&
      validated wholeMemory (wholeWrite 1) && true) = true := by decide +kernel
  refine ⟨⟨_, _, if_pos hmany, fun h => ?_⟩, _, _, if_pos hone, fun h => ?_⟩
  · exact absurd h.staged (by decide +kernel)
  · exact absurd h.staged (by decide +kernel)

end Example

end Watz.Console
