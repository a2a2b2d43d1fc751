import Mathlib.Algebra.Order.Group.Multiset
import Mathlib.Logic.Function.Basic

namespace Watz.Base.References

-- Objects that are open as long as something refers to them. The counters have `w` bits and wrap.
-- `closed` begins with the last one.
structure Counts (w : Nat) where
  next : Nat
  count : Nat → BitVec w
  closed : List Nat

namespace Counts

variable {w : Nat}

section Operations

variable (c : Counts w)

-- A new object with one reference.
def create : Counts w :=
  { c with next := c.next + 1, count := Function.update c.count c.next 1#w }

def acquire (object : Nat) : Counts w :=
  { c with count := Function.update c.count object (c.count object + 1#w) }

-- The last reference closes the object.
def release (object : Nat) : Counts w :=
  { c with
    count := Function.update c.count object (c.count object - 1#w)
    closed := if c.count object = 1#w then object :: c.closed else c.closed }

end Operations

-- These are the references. The counters have their numbers as far as they go, and no object
-- without a reference is left open. While the references are `few` enough for the counters, each
-- object is closed once, when the last of them has gone.
structure Exact (c : Counts w) (refs : Multiset Nat) (few : Prop) : Prop where
  count : ∀ object, c.count object = BitVec.ofNat w (refs.count object)
  gone : ∀ object < c.next, object ∉ refs → object ∈ c.closed
  closed : few → ∀ object ∈ c.closed, object < c.next ∧ object ∉ refs
  once : few → c.closed.Nodup
  created : ∀ object ∈ refs, object < c.next

variable {c : Counts w} {refs : Multiset Nat} {few : Prop} {object : Nat}

theorem Exact.create (h : c.Exact refs few) : c.create.Exact (c.next ::ₘ refs) few := by
  have hnew : c.next ∉ refs := fun hmem => Nat.lt_irrefl _ (h.created _ hmem)
  refine ⟨fun other => ?_, fun other hlt hnot => ?_, fun hfew other hclosed => ?_, h.once,
    fun other hmem => ?_⟩
  · change Function.update c.count c.next 1#w other = _
    by_cases heq : other = c.next
    · rw [heq, Function.update_self, Multiset.count_cons_self, Multiset.count_eq_zero.mpr hnew,
        Nat.zero_add]
    · rw [Function.update_of_ne heq, Multiset.count_cons_of_ne heq, h.count]
  · rw [Multiset.mem_cons, not_or] at hnot
    exact h.gone other (Nat.lt_of_le_of_ne (Nat.le_of_lt_succ hlt) hnot.1) hnot.2
  · obtain ⟨hlt, hnot⟩ := h.closed hfew other hclosed
    rw [Multiset.mem_cons, not_or]
    exact ⟨Nat.lt_succ_of_lt hlt, Nat.ne_of_lt hlt, hnot⟩
  · rcases Multiset.mem_cons.mp hmem with rfl | hmem
    · exact Nat.lt_succ_self _
    · exact Nat.lt_succ_of_lt (h.created other hmem)

theorem Exact.acquire (h : c.Exact refs few) (hmem : object ∈ refs) :
    (c.acquire object).Exact (object ::ₘ refs) few := by
  have hsame : ∀ other, other ∉ object ::ₘ refs ↔ other ∉ refs := by
    intro other
    rw [Multiset.mem_cons, not_or]
    exact and_iff_right_of_imp fun hother heq => hother (heq ▸ hmem)
  refine ⟨fun other => ?_, fun other hlt hnot => h.gone other hlt ((hsame other).mp hnot),
    fun hfew other hclosed => ?_, h.once, fun other hother => ?_⟩
  · change Function.update c.count object (c.count object + 1#w) other = _
    by_cases heq : other = object
    · rw [heq, Function.update_self, Multiset.count_cons_self, h.count, BitVec.ofNat_add]
    · rw [Function.update_of_ne heq, Multiset.count_cons_of_ne heq, h.count]
  · obtain ⟨hlt, hnot⟩ := h.closed hfew other hclosed
    exact ⟨hlt, (hsame other).mpr hnot⟩
  · rcases Multiset.mem_cons.mp hother with rfl | hother
    · exact h.created _ hmem
    · exact h.created other hother

theorem ofNat_add_one_eq_one_iff {k : Nat} : BitVec.ofNat w k + 1#w = 1#w ↔ k % 2 ^ w = 0 := by
  constructor
  · intro heq
    have hzero : BitVec.ofNat w k = 0#w := by
      rw [← BitVec.add_sub_cancel (BitVec.ofNat w k) 1#w, heq, BitVec.sub_self]
    rw [← BitVec.toNat_ofNat, hzero, BitVec.toNat_ofNat, Nat.zero_mod]
  · intro hmod
    have hzero : BitVec.ofNat w k = 0#w := by
      apply BitVec.eq_of_toNat_eq
      rw [BitVec.toNat_ofNat, hmod, BitVec.toNat_ofNat, Nat.zero_mod]
    rw [hzero, BitVec.zero_add]

theorem mem_closed_release {other : Nat} : other ∈ (c.release object).closed ↔
    c.count object = 1#w ∧ other = object ∨ other ∈ c.closed := by
  simp only [Counts.release]
  split
  case isTrue hlast => simp [hlast]
  case isFalse hmore => simp [hmore]

-- A counter stands at one for the last reference, but also for any other number that it takes
-- for one.
theorem Exact.release (h : c.Exact (object ::ₘ refs) few)
    (hfew : few → refs.count object < 2 ^ w) : (c.release object).Exact refs few := by
  have hcount : c.count object = BitVec.ofNat w (refs.count object) + 1#w := by
    rw [h.count, Multiset.count_cons_self, BitVec.ofNat_add]
  have hone : c.count object = 1#w ↔ refs.count object % 2 ^ w = 0 := by
    rw [hcount, ofNat_add_one_eq_one_iff]
  have hother : ∀ other, other ≠ object → (other ∉ object ::ₘ refs ↔ other ∉ refs) := by
    intro other hne
    rw [Multiset.mem_cons, not_or]
    exact and_iff_right hne
  refine ⟨fun other => ?_, fun other hlt hnot => ?_, fun hcase other hclosed => ?_,
    fun hcase => ?_, fun other hmem => h.created other (Multiset.mem_cons_of_mem hmem)⟩
  · change Function.update c.count object (c.count object - 1#w) other = _
    by_cases heq : other = object
    · rw [heq, Function.update_self, hcount, BitVec.add_sub_cancel]
    · rw [Function.update_of_ne heq, h.count, Multiset.count_cons_of_ne heq]
  · by_cases heq : other = object
    · subst heq
      have hlast : c.count other = 1#w := hone.mpr (by
        rw [Multiset.count_eq_zero.mpr hnot, Nat.zero_mod])
      exact mem_closed_release.mpr (.inl ⟨hlast, rfl⟩)
    · exact mem_closed_release.mpr (.inr (h.gone other hlt ((hother other heq).mpr hnot)))
  · rcases mem_closed_release.mp hclosed with ⟨hlast, rfl⟩ | hpast
    · refine ⟨h.created other (Multiset.mem_cons_self _ _), Multiset.count_eq_zero.mp ?_⟩
      rw [← Nat.mod_eq_of_lt (hfew hcase)]
      exact hone.mp hlast
    · obtain ⟨hlt, hnot⟩ := h.closed hcase other hpast
      exact ⟨hlt, fun hmem => hnot (Multiset.mem_cons_of_mem hmem)⟩
  · have hopen : object ∉ c.closed := fun hmem =>
      (h.closed hcase object hmem).2 (Multiset.mem_cons_self _ _)
    simp only [Counts.release]
    split
    · exact List.nodup_cons.mpr ⟨hopen, h.once hcase⟩
    · exact h.once hcase

end Counts

end Watz.Base.References
